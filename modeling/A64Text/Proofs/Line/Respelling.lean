import A64Text.Proofs.Line.Recasing

/-!
# Respelling

What a text is read as does not depend on how it is spelled. Letters may change their case, spaces
may be put between lexemes and taken away, a number behind a hash may be written in any other way,
the hash may be left out behind a space, a comma or an opening bracket, and the blanks at the ends
do not matter (`Respelling`). Any number of such changes, in any order, leaves a text with the line
that it was read as (`read_of_respellings`).

The changes are made in characters, and reading is by lexemes. A change of case or of spaces leaves
the lexemes as they are, or makes synonyms of them. The two changes at a hash rest on what the
machine accepts there. Behind a hash it takes a number only, and goes where it would have gone
without the hash; behind that number a comma, a closing bracket or the end must follow, which no
spelling of a number can run into (`Derives.of_hash`).
-/

namespace A64Text.Line

open Lexeme

/-! ### Hashes -/

/-- A term goes on behind a hash as it would have without it. -/
theorem Pending.step_hash {pending pending' : Pending} (h : pending.step .hash = some pending') :
    ∃ name?, pending' = .hash name? ∧
      ∀ n, pending.step (.number n) = some (.filled ⟨name?, some (numberValue n)⟩) := by
  cases pending with
  | vacant => exact ⟨none, (Option.some.inj h).symm, fun n ↦ rfl⟩
  | named name => exact ⟨some name, (Option.some.inj h).symm, fun n ↦ rfl⟩
  | _ => cases h

/-- The places of a term: among the operands and between brackets. -/
inductive State.Site : (Pending → State) → Prop
  | operand (m : String) (before : List Item) : Site (.operand m before)
  | memory (m : String) (before : List Item) (parts : List Term) : Site (.memory m before parts)

namespace State.Site

variable {place : Pending → State} (hplace : Site place) {name? : Option String}
include hplace

theorem step {pending pending' : Pending} {t : Lexeme} (h : pending.step t = some pending') :
    (place pending).step t = some (place pending') := by
  cases hplace with
  | operand m before => exact Pending.step_operand h m before
  | memory m before parts => exact Pending.step_memory h m before parts

theorem line?_hash : (place (.hash name?)).line? = none := by
  cases hplace <;> rfl

/-- Behind a hash stands a number. -/
theorem exists_number {t : Lexeme} {s : State} (h : (place (.hash name?)).step t = some s) :
    ∃ n, t = .number n ∧ s = place (.filled ⟨name?, some (numberValue n)⟩) := by
  cases hplace <;> cases t <;>
    first | exact ⟨_, rfl, (Option.some.inj h).symm⟩ | cases h

/-- Behind a number stands a comma or a closing bracket. -/
theorem step_filled {v : Term} {t : Lexeme} {s : State} (h : (place (.filled v)).step t = some s) :
    t = .comma ∨ t = .endMemory := by
  cases hplace <;> cases t <;> first | exact .inl rfl | exact .inr rfl | cases h

end State.Site

/-- Where a hash can stand there is a place for a term, and a number could stand there as well. -/
theorem State.exists_place {s s' : State} (h : s.step .hash = some s') :
    ∃ place name?, Site place ∧ s' = place (.hash name?) ∧
      ∀ n, s.step (.number n) = some (place (.filled ⟨name?, some (numberValue n)⟩)) := by
  cases s with
  | start => cases h
  | closed _ _ _ writeback => cases writeback <;> cases h
  | mnemonic m =>
    exact ⟨_, none, .operand m [], (Option.some.inj h).symm, fun n ↦ rfl⟩
  | operand m before pending =>
    obtain ⟨-, ht, -⟩ | ⟨ht, -⟩ | ⟨pending', hpending, rfl⟩ := step_operand_cases h
    · cases ht
    · cases ht
    · obtain ⟨name?, rfl, hnumber⟩ := Pending.step_hash hpending
      exact ⟨_, name?, .operand m before, rfl, fun n ↦ (Site.operand m before).step (hnumber n)⟩
  | memory m before parts pending =>
    obtain ⟨ht, -⟩ | ⟨ht, -⟩ | ⟨pending', hpending, rfl⟩ := step_memory_cases h
    · cases ht
    · cases ht
    · obtain ⟨name?, rfl, hnumber⟩ := Pending.step_hash hpending
      exact ⟨_, name?, .memory m before parts, rfl,
        fun n ↦ (Site.memory m before parts).step (hnumber n)⟩

/-- In a line a number follows a hash, a comma or a closing bracket or nothing follows that number,
and without the hash the line is the same. -/
theorem Derives.of_hash {ts us : List Lexeme} {l : Line} (h : Derives (ts ++ .hash :: us) l) :
    ∃ n vs, us = .number n :: vs ∧ (∀ t, vs.head? = some t → t = .comma ∨ t = .endMemory) ∧
      Derives (ts ++ .number n :: vs) l := by
  obtain ⟨s, hsteps, hline⟩ := h
  rw [State.steps_append] at hsteps
  obtain ⟨s₁, hts, hsteps⟩ := Option.bind_eq_some_iff.1 hsteps
  obtain ⟨s₂, hhash, hus⟩ := Option.bind_eq_some_iff.1 hsteps
  obtain ⟨place, name?, hplace, rfl, hnumber⟩ := State.exists_place hhash
  cases us with
  | nil =>
    obtain rfl := Option.some.inj hus
    rw [hplace.line?_hash] at hline
    cases hline
  | cons t vs =>
    obtain ⟨s₃, hstep, hvs⟩ := Option.bind_eq_some_iff.1 hus
    obtain ⟨n, rfl, rfl⟩ := hplace.exists_number hstep
    refine ⟨n, vs, rfl, ?_, s, ?_, hline⟩
    · intro t ht
      obtain ⟨vs, rfl⟩ := List.head?_eq_some_iff.1 ht
      obtain ⟨s₄, hstep, -⟩ := Option.bind_eq_some_iff.1 hvs
      exact hplace.step_filled hstep
    · rw [State.steps_append_of_eq hts, State.steps, hnumber]
      exact hvs

/-! ### Changes of spelling -/

/-- The changes of a text that do not concern its ends. -/
inductive Respells : List Char → List Char → Prop
  /-- Letters change their case. -/
  | recase {cs ds : List Char} (h : Recased cs ds) : Respells cs ds
  /-- Spaces are put between two lexemes. -/
  | spread {p q w : List Char} (hcut : Cut p q) (hw : ∀ c ∈ w, isSpace c = true) :
      Respells (p ++ q) (p ++ (w ++ q))
  /-- Spaces between two lexemes are taken away. -/
  | close {p q w : List Char} (hcut : Cut p q) (hw : ∀ c ∈ w, isSpace c = true) :
      Respells (p ++ (w ++ q)) (p ++ q)
  /-- A number behind a hash is replaced by an equal one. -/
  | renumber {p w n n' q : List Char} (hw : ∀ c ∈ w, isSpace c = true)
      (hn : LongestMatch numberPattern (n ++ q) n q) (hn' : n' ∈ numberPattern)
      (hvalue : numberValue n = numberValue n') :
      Respells (p ++ '#' :: (w ++ (n ++ q))) (p ++ '#' :: (w ++ (n' ++ q)))
  /-- A hash behind a space, a comma or an opening bracket is left out. -/
  | unhash {p q : List Char} {c : Char} (hc : isSpace c = true ∨ c = ',' ∨ c = '[') :
      Respells (p ++ c :: '#' :: q) (p ++ c :: q)

/-- One change of the spelling of a text, and of the blanks at its ends. -/
def Respelling (s t : String) : Prop :=
  ∃ m m', Framed m s.toList ∧ Respells m m' ∧ Framed m' t.toList

/-- Where a hash stands in a line, the lexemes come apart, a number is the next one, and without the
hash the line is the same. -/
theorem Spelled.exists_hash {p q : List Char} {l : Line} (h : Spelled (p ++ '#' :: q) l) :
    ∃ a b p' q' ts n us, p = a ++ p' ∧ q = q' ++ b ∧ (∀ d ∈ a, Text.isBlank d = true) ∧
      (∀ d ∈ b, Text.isBlank d = true) ∧ Lexed p' ts ∧ Lexed q' (.number n :: us) ∧
      (∀ t, us.head? = some t → t = .comma ∨ t = .endMemory) ∧
      Derives (ts ++ .hash :: .number n :: us) l ∧ Derives (ts ++ .number n :: us) l := by
  obtain ⟨a, b, p', q', ts, us, rfl, rfl, ha, hb, hp, hq, hderives⟩ :=
    h.exists_split (by decide) (by decide) (by decide)
  obtain ⟨us, rfl, hnumber⟩ := lexed_hash_iff.1 hq
  obtain ⟨n, us, rfl, hend, hunhashed⟩ := hderives.of_hash
  exact ⟨a, b, p', q', ts, n, us, rfl, rfl, ha, hb, hp, hnumber, hend, hderives, hunhashed⟩

/-- What is behind a number in a line cannot continue a number. -/
theorem boundary_of_lexed {cs : List Char} {ts : List Lexeme} (h : Lexed cs ts)
    (hts : ∀ t, ts.head? = some t → t = .comma ∨ t = .endMemory) : Boundary cs := by
  cases ts with
  | nil =>
    have hspaces := isSpace_of_lexed_nil h
    simpa using boundary_blanks (fun c hc ↦ isBlank_of_isSpace (hspaces c hc)) boundary_nil
  | cons t ts =>
    obtain ⟨w, cs', rest, rfl, hw, hmatch, -⟩ := h.exists_front
    refine boundary_blanks (fun c hc ↦ isBlank_of_isSpace (hw c hc)) ?_
    rw [← hmatch.append]
    rcases hts t rfl with rfl | rfl
    · exact boundary_comma rest
    · exact boundary_endMemory rest

theorem Spelled.renumber {p w n n' q : List Char} {l : Line} (hw : ∀ c ∈ w, isSpace c = true)
    (hn : LongestMatch numberPattern (n ++ q) n q) (hn' : n' ∈ numberPattern)
    (hvalue : numberValue n = numberValue n') (h : Spelled (p ++ '#' :: (w ++ (n ++ q))) l) :
    Spelled (p ++ '#' :: (w ++ (n' ++ q))) l := by
  obtain ⟨a, b, p', q', ts, m, us, rfl, heq, ha, hb, hp, hq, hend, hderives, -⟩ := h.exists_hash
  obtain ⟨w', cs, rest, rfl, hw', hmatch, hrest⟩ := hq.exists_front
  -- The number that the reader finds behind the hash is the one that is replaced.
  have hmatch' : LongestMatch numberPattern (cs ++ b) m (rest ++ b) :=
    hmatch.append_boundary (by simpa using boundary_blanks hb boundary_nil)
  rw [List.append_assoc] at heq
  obtain ⟨rfl, hnumber⟩ := append_inj_of_space hw hw'
    (isSpace_head_of_longestMatch (t := .number n) hn)
    (isSpace_head_of_longestMatch (t := .number m) hmatch') heq
  rw [← hnumber] at hmatch'
  obtain ⟨rfl, rfl⟩ := hn.unique hmatch'
  have hmatch'' := longestMatch_number hn' (boundary_of_lexed hrest hend)
  have hlexed : Lexed (w ++ (n' ++ rest)) (.number n' :: us) :=
    (lexed_spaces_iff hw).2 (.cons hmatch'' hrest)
  have hall := hp.append (lexed_hash_iff.2 ⟨_, rfl, hlexed⟩)
    (boundary_cons (by decide) (by decide))
  have hframed : Framed (p' ++ '#' :: (w ++ (n' ++ rest)))
      (a ++ p' ++ '#' :: (w ++ (n' ++ (rest ++ b)))) := ⟨a, b, by simp, ha, hb⟩
  rw [hframed.spelled_iff, hall.spelled_iff]
  refine hderives.of_synonym (List.rel_append (List.forall₂_same.2 fun t _ ↦ .same t) ?_)
  exact .cons (.same _) (.cons (.number hvalue) (List.forall₂_same.2 fun t _ ↦ .same t))

/-- A space, a comma or an opening bracket is a lexeme of its own or none, whatever follows. -/
theorem lexed_cons_of_lexed {c : Char} {cs : List Char} {ts us : List Lexeme}
    (hc : isSpace c = true ∨ c = ',' ∨ c = '[') (hts : Lexed [c] ts) (hus : Lexed cs us) :
    Lexed (c :: cs) (ts ++ us) := by
  have hnil : ∀ {vs : List Lexeme}, Lexed [] vs → vs = [] := fun h ↦ h.eq_nil_of_blank (by simp)
  rcases hc with hc | rfl | rfl
  · rw [lexed_space_iff hc] at hts ⊢
    rwa [hnil hts]
  · obtain ⟨vs, rfl, hvs⟩ := lexed_comma_iff.1 hts
    rw [hnil hvs]
    exact lexed_comma_iff.2 ⟨us, rfl, hus⟩
  · obtain ⟨vs, rfl, hvs⟩ := lexed_beginMemory_iff.1 hts
    rw [hnil hvs]
    exact lexed_beginMemory_iff.2 ⟨us, rfl, hus⟩

theorem boundary_of_separator {c : Char} (hc : isSpace c = true ∨ c = ',' ∨ c = '[')
    (rest : List Char) : Boundary (c :: rest) := by
  rcases hc with hc | rfl | rfl
  · exact boundary_blank (isBlank_of_isSpace hc) rest
  · exact boundary_comma rest
  · exact boundary_cons (by decide) (by decide)

theorem Spelled.unhash {p q : List Char} {c : Char} {l : Line}
    (hc : isSpace c = true ∨ c = ',' ∨ c = '[') (h : Spelled (p ++ c :: '#' :: q) l) :
    Spelled (p ++ c :: q) l := by
  rw [← List.singleton_append, ← List.append_assoc] at h
  obtain ⟨a, b, p', q', ts, n, us, heq, rfl, ha, hb, hp, hq, -, -, hderives⟩ := h.exists_hash
  -- A line does not begin with a hash, so the character in front of it is in what is framed.
  have hfront : ∃ p'', p' = p'' ++ [c] ∧ p = a ++ p'' := by
    rcases List.eq_nil_or_concat p' with rfl | ⟨p'', d, rfl⟩
    · obtain rfl := hp.eq_nil_of_blank (by simp)
      obtain ⟨s, hsteps, -⟩ := hderives
      cases hsteps
    · rw [List.concat_eq_append] at hp heq ⊢
      rw [← List.append_assoc] at heq
      obtain ⟨hfront, hlast⟩ := List.append_inj' heq rfl
      exact ⟨p'', by rw [hlast], hfront⟩
  obtain ⟨p'', rfl, rfl⟩ := hfront
  obtain ⟨ts, ts', rfl, hts, hts'⟩ := hp.split (boundary_of_separator hc [])
  have hall := hts.append (lexed_cons_of_lexed hc hts' hq) (boundary_of_separator hc q')
  have hframed : Framed (p'' ++ c :: q') (a ++ p'' ++ c :: (q' ++ b)) := ⟨a, b, by simp, ha, hb⟩
  rw [hframed.spelled_iff, hall.spelled_iff, ← List.append_assoc]
  exact hderives

/-- A change of spelling leaves the line. -/
theorem Spelled.of_respells {cs ds : List Char} {l : Line} (h : Spelled cs l)
    (hrespells : Respells cs ds) : Spelled ds l := by
  cases hrespells with
  | recase hcs =>
    obtain ⟨ts, hlexed, hderives⟩ := h
    obtain ⟨us, hus, hsame⟩ := hlexed.recase (trimChars_recased hcs)
    exact ⟨us, hus, hderives.of_synonym hsame⟩
  | spread hcut hw =>
    obtain ⟨ts, us, -, -, hlexed⟩ := id hcut
    rw [hlexed.spelled_iff] at h
    rwa [((hcut.lexed_spread hw).1 hlexed).spelled_iff]
  | close hcut hw =>
    obtain ⟨ts, us, -, -, hlexed⟩ := id hcut
    rw [((hcut.lexed_spread hw).1 hlexed).spelled_iff] at h
    rwa [hlexed.spelled_iff]
  | renumber hw hn hn' hvalue => exact h.renumber hw hn hn' hvalue
  | unhash hc => exact h.unhash hc

/-- What a text is read as does not depend on its spelling. If a text is read as a line, so is every
text that comes out of changes of its spelling, in whatever number and order, and the two are
equivalent. To write the text in capitals, or in lower-case, is such a change; letters of ASCII are
all that there is to change, because every other character of the text is a blank at its ends. -/
theorem read_of_respellings {s : String} {l : Line} (h : read s = .ok l) :
    (∀ t, Relation.ReflTransGen Respelling s t → read t = .ok l ∧ equivalent s t = .ok true) ∧
    Respelling s (Text.upperAscii s) ∧ Respelling s (Text.lowerAscii s) ∧
    (∀ c ∈ s.toList, c.toNat < 0x80 ∨ Text.isBlank c = true) ∧
    equivalent s (Text.upperAscii s) = .ok true := by
  have hspelled := read_eq_ok_iff_spelled.1 h
  have hread : ∀ t, Relation.ReflTransGen Respelling s t → read t = .ok l := by
    intro t hst
    rw [read_eq_ok_iff_spelled]
    induction hst with
    | refl => exact hspelled
    | tail _ hstep ih =>
      obtain ⟨m, m', hm, hrespells, hm'⟩ := hstep
      exact hm'.spelled_iff.2 ((hm.spelled_iff.1 ih).of_respells hrespells)
  have hequivalent : ∀ t, read t = .ok l → equivalent s t = .ok true := by
    intro t ht
    rw [equivalent, h, ht]
    exact congrArg Except.ok (decide_eq_true rfl)
  have hrecase : ∀ t : String, Recased s.toList t.toList → Respelling s t := fun t hst ↦
    ⟨s.toList, t.toList, framed_refl _, .recase hst, framed_refl _⟩
  have hupper := hrecase _ (recased_upperAscii s)
  refine ⟨fun t hst ↦ ⟨hread t hst, hequivalent t (hread t hst)⟩, hupper,
    hrecase _ (recased_lowerAscii s), hspelled.ascii, ?_⟩
  exact hequivalent _ (hread _ (.single hupper))

/-- The load with two amounts in its address. -/
def steppedLoad : Line :=
  ⟨"ldr", [.term ⟨some "x0", none⟩, .memory [⟨some "x29", some 5⟩, ⟨none, some 31⟩] true]⟩

/-- A load is written in lower-case and without the blanks around it, then its second amount with a
sign and in decimal, then without the hash, and last with a space in front of the first amount,
which has touched its register. -/
theorem read_of_respellings_load :
    read "\u00a0LDR X0,[FP+5,# 0X1F]!\n" = .ok steppedLoad ∧
      read "ldr x0,[fp +5, +0031]!" = .ok steppedLoad ∧
      equivalent "\u00a0LDR X0,[FP+5,# 0X1F]!\n" "ldr x0,[fp +5, +0031]!" = .ok true := by
  have hread : read "\u00a0LDR X0,[FP+5,# 0X1F]!\n" = .ok steppedLoad := by decide +kernel
  have hlower : Respelling "\u00a0LDR X0,[FP+5,# 0X1F]!\n" "ldr x0,[fp+5,# 0x1f]!" :=
    ⟨"LDR X0,[FP+5,# 0X1F]!".toList, "ldr x0,[fp+5,# 0x1f]!".toList,
      ⟨['\u00a0'], ['\n'], by decide, List.forall_mem_singleton.2 rfl,
        List.forall_mem_singleton.2 rfl⟩, .recase (by decide), framed_refl _⟩
  have hnumber : Respelling "ldr x0,[fp+5,# 0x1f]!" "ldr x0,[fp+5,# +0031]!" :=
    ⟨_, _, framed_refl _, @Respells.renumber "ldr x0,[fp+5,".toList [' '] "0x1f".toList
      "+0031".toList "]!".toList (List.forall_mem_singleton.2 rfl)
      (takesLongest_number.eq_some_iff.1 (by decide)) (isNumber_iff_mem.1 (by decide)) (by decide),
      framed_refl _⟩
  have hhash : Respelling "ldr x0,[fp+5,# +0031]!" "ldr x0,[fp+5, +0031]!" :=
    ⟨_, _, framed_refl _, @Respells.unhash "ldr x0,[fp+5".toList " +0031]!".toList ','
      (by decide), framed_refl _⟩
  have hspace : Respelling "ldr x0,[fp+5, +0031]!" "ldr x0,[fp +5, +0031]!" :=
    ⟨_, _, framed_refl _, @Respells.spread "ldr x0,[fp".toList "+5, +0031]!".toList [' ']
      (by decide +kernel) (List.forall_mem_singleton.2 rfl), framed_refl _⟩
  have hall := (read_of_respellings hread).1 _
    ((((Relation.ReflTransGen.single hlower).tail hnumber).tail hhash).tail hspace)
  exact ⟨hread, hall⟩

end A64Text.Line
