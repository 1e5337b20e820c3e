import A64Text.Proofs.Line.Derivation
import A64Text.Proofs.PrintRead

/-!
# Normal lines

A line is normal (`Line.IsNormal`) if reading leaves it as it is when it is printed: its names are
words in lower-case, no operand bears a second name of a register, nothing is empty, and no modifier
stands in front of an amount that it would take. Reading returns normal lines and normal lines only
(`isNormal_of_read`), and a normal line is read back from its text (`Line.IsNormal.read_text`), so
the normal lines are the image of reading, and printing is injective on them.

The modifiers are where the two halves meet. Joining neighbours leaves none that would join
(`isChain_coalesce`), and where none would join it changes nothing (`coalesce_of_isChain`).
-/

namespace A64Text.Line

/-! ### Joining until nothing joins -/

section

variable {α : Type} {join? : α → α → Option α}

/-- Nothing happens where no neighbours join. -/
theorem coalesce_of_isChain {xs : List α} (h : xs.IsChain fun a b ↦ join? a b = none) :
    coalesce join? xs = xs := by
  cases xs with
  | nil => rfl
  | cons x xs =>
    induction xs generalizing x with
    | nil => rfl
    | cons y ys ih =>
      obtain ⟨hxy, hrest⟩ := List.isChain_cons_cons.1 h
      show coalesceFrom join? x (y :: ys) = x :: y :: ys
      rw [coalesceFrom, hxy]
      exact congrArg _ (ih y hrest)

/-- What stands in front after joining takes part in no join from the left, if what stood there did
not and nothing joined does. -/
theorem exists_cons_coalesceFrom (hjoined : ∀ {a b c}, join? a b = some c → ∀ x, join? x c = none)
    (current : α) (xs : List α) :
    ∃ y ys, coalesceFrom join? current xs = y :: ys ∧
      ∀ x, join? x current = none → join? x y = none := by
  induction xs generalizing current with
  | nil => exact ⟨current, [], rfl, fun _ h ↦ h⟩
  | cons z zs ih =>
    rw [coalesceFrom]
    split
    · rename_i joined hjoin
      obtain ⟨y, ys, heq, hy⟩ := ih joined
      exact ⟨y, ys, heq, fun x _ ↦ hy x (hjoined hjoin x)⟩
    · exact ⟨current, _, rfl, fun _ h ↦ h⟩

/-- After joining, no neighbours join. -/
theorem isChain_coalesce (hjoined : ∀ {a b c}, join? a b = some c → ∀ x, join? x c = none)
    (xs : List α) : (coalesce join? xs).IsChain fun a b ↦ join? a b = none := by
  cases xs with
  | nil => exact .nil
  | cons x xs =>
    show (coalesceFrom join? x xs).IsChain _
    induction xs generalizing x with
    | nil => exact .singleton x
    | cons z zs ih =>
      rw [coalesceFrom]
      split
      · exact ih _
      · rename_i hnone
        obtain ⟨y, ys, heq, hy⟩ := exists_cons_coalesceFrom hjoined z zs
        have hrest := ih z
        rw [heq] at hrest ⊢
        exact List.isChain_cons_cons.2 ⟨hy x hnone, hrest⟩

/-- What holds of all members and survives a join holds of all members after joining. -/
theorem forall_mem_coalesce {p : α → Prop} (hjoin : ∀ {a b c}, join? a b = some c → p a → p b → p c)
    {xs : List α} (h : ∀ x ∈ xs, p x) : ∀ x ∈ coalesce join? xs, p x := by
  cases xs with
  | nil => exact h
  | cons x xs =>
    show ∀ y ∈ coalesceFrom join? x xs, p y
    induction xs generalizing x with
    | nil => exact h
    | cons z zs ih =>
      obtain ⟨hx, hz, hzs⟩ := by simpa using h
      rw [coalesceFrom]
      split
      · rename_i joined hsome
        exact ih joined (List.forall_mem_cons.2 ⟨hjoin hsome hx hz, hzs⟩)
      · exact List.forall_mem_cons.2 ⟨hx, ih z (List.forall_mem_cons.2 ⟨hz, hzs⟩)⟩

theorem coalesce_ne_nil {xs : List α} (h : xs ≠ []) : coalesce join? xs ≠ [] := by
  cases xs with
  | nil => exact absurd rfl h
  | cons x xs =>
    show coalesceFrom join? x xs ≠ []
    induction xs generalizing x with
    | nil => simp [coalesceFrom]
    | cons z zs ih =>
      rw [coalesceFrom]
      split
      · exact ih _ (List.cons_ne_nil _ _)
      · exact List.cons_ne_nil _ _

end

/-! ### Normal lines -/

/-- A word without capital letters. -/
structure IsLowerWord (name : String) : Prop where
  word : name.toList ∈ Lexeme.wordPattern
  lower : ∀ c ∈ name.toList, c.isUpper = false

/-- A modifier without an amount in front of a term without a name. -/
def Term.Takes (t next : Term) : Prop := t.isBareModifier = true ∧ next.name? = none

/-- A term in normal form: it has a name or a value, and its name is a word in lower-case and no
second name of a register. -/
structure Term.IsNormal (t : Term) : Prop where
  filled : t.name?.isSome = true ∨ t.value?.isSome = true
  name : ∀ {name}, t.name? = some name → IsLowerWord name ∧ name ≠ "fp" ∧ name ≠ "lr"

/-- Terms between brackets in normal form. -/
structure IsNormalTerms (parts : List Term) : Prop where
  nonempty : parts ≠ []
  normal : ∀ t ∈ parts, t.IsNormal
  apart : parts.IsChain fun t next ↦ ¬ t.Takes next

/-- A modifier without an amount in front of a term without a name, among operands. -/
def Item.Takes : Item → Item → Prop
  | term t, term next => t.Takes next
  | _, _ => False

/-- An operand in normal form. -/
def Item.IsNormal : Item → Prop
  | term t => t.IsNormal
  | memory parts _ => IsNormalTerms parts

/-- A line in normal form. -/
structure IsNormal (l : Line) : Prop where
  mnemonic : IsLowerWord l.mnemonic
  normal : ∀ o ∈ l.operands, o.IsNormal
  apart : l.operands.IsChain fun o next ↦ ¬ o.Takes next

theorem Term.fuse?_eq_none_iff {t next : Term} : t.fuse? next = none ↔ ¬ t.Takes next := by
  simp [fuse?, Takes]

theorem Item.fuse?_eq_none_iff {o next : Item} : o.fuse? next = none ↔ ¬ o.Takes next := by
  cases o <;> cases next <;> simp [fuse?, Takes, Term.fuse?_eq_none_iff]

theorem IsNormalTerms.fuseTerms_eq {parts : List Term} (h : IsNormalTerms parts) :
    fuseTerms parts = parts :=
  coalesce_of_isChain (h.apart.imp fun _ _ ↦ Term.fuse?_eq_none_iff.2)

/-- Where no item takes its neighbour, fusing does nothing. -/
theorem fuseItems_of_isChain {xs : List Item} (h : xs.IsChain fun x next ↦ ¬ x.Takes next) :
    fuseItems xs = xs :=
  coalesce_of_isChain (h.imp fun _ _ ↦ Item.fuse?_eq_none_iff.2)

theorem IsNormal.fuseItems_eq {l : Line} (h : l.IsNormal) : fuseItems l.operands = l.operands :=
  fuseItems_of_isChain h.apart

/-! ### What is read is normal -/

/-- What is no capital letter is its own lower-case. -/
theorem toLower_eq_self {c : Char} (h : c.isUpper = false) : c.toLower = c := by
  refine dif_neg fun hrange ↦ ?_
  exact Bool.false_ne_true (h.symm.trans (Lexeme.isUpper_iff.2 hrange))

/-- A capital letter becomes another letter in lower-case. -/
theorem toLower_of_isUpper {c : Char} (h : c.isUpper = true) :
    c.toLower.isUpper = false ∧ c.toLower.isAlpha = true := by
  have hall : ∀ n < 0x5B, (Char.ofNat n).isUpper = true →
      (Char.ofNat n).toLower.isUpper = false ∧ (Char.ofNat n).toLower.isAlpha = true := by decide
  have hc := hall c.toNat (Nat.lt_succ_of_le (Lexeme.isUpper_iff.1 h).2)
  rw [Char.ofNat_toNat] at hc
  exact hc h

/-- The lower-case of a character is no capital letter, and stands in words where that did. -/
theorem toLower_wordPart (c : Char) :
    c.toLower.isUpper = false ∧
      (Lexeme.isWordStart c = true → Lexeme.isWordStart c.toLower = true) ∧
      (Lexeme.isWordPart c = true → Lexeme.isWordPart c.toLower = true) := by
  cases h : c.isUpper with
  | true =>
    obtain ⟨hupper, hletter⟩ := toLower_of_isUpper h
    simp [Lexeme.isWordStart, Lexeme.isWordPart, Char.isAlphanum, hletter, hupper]
  | false =>
    rw [toLower_eq_self h]
    exact ⟨h, id, id⟩

theorem isLowerWord_normalMnemonic {w : List Char} (h : w ∈ Lexeme.wordPattern) :
    IsLowerWord (normalMnemonic w) := by
  have htoList : (normalMnemonic w).toList = w.map Char.toLower := String.toList_ofList
  constructor
  · obtain ⟨opening, c, body, closing, rfl, hopening, hc, hbody, hclosing⟩ :=
      Lexeme.mem_wordPattern_iff.1 h
    refine Lexeme.mem_wordPattern_iff.2 ⟨opening.map Char.toLower, c.toLower,
      body.map Char.toLower, closing.map Char.toLower, by simp [htoList], ?_,
      (toLower_wordPart c).2.1 hc, ?_, ?_⟩
    · rcases hopening with rfl | rfl
      · exact .inl rfl
      · exact .inr rfl
    · intro d hd
      obtain ⟨e, he, rfl⟩ := List.mem_map.1 hd
      exact (toLower_wordPart e).2.2 (hbody e he)
    · rcases hclosing with rfl | rfl
      · exact .inl rfl
      · exact .inr rfl
  · rw [htoList]
    intro c hc
    obtain ⟨d, -, rfl⟩ := List.mem_map.1 hc
    exact (toLower_wordPart d).1

theorem normalName_eq (w : List Char) :
    normalName w =
      if normalMnemonic w = "fp" then "x29" else if normalMnemonic w = "lr" then "x30"
      else normalMnemonic w := by
  by_cases hfp : normalMnemonic w = "fp"
  · rw [if_pos hfp, normalName, hfp]
    rfl
  · by_cases hlr : normalMnemonic w = "lr"
    · rw [if_neg hfp, if_pos hlr, normalName, hlr]
      rfl
    · simp [normalName, registerAliases, List.lookup_cons, hfp, hlr, beq_false_of_ne]

theorem isNormal_normalName {w : List Char} (h : w ∈ Lexeme.wordPattern) :
    IsLowerWord (normalName w) ∧ normalName w ≠ "fp" ∧ normalName w ≠ "lr" := by
  have hregister : ∀ name ∈ ["x29", "x30"], IsLowerWord name ∧ name ≠ "fp" ∧ name ≠ "lr" := by
    intro name hname
    have hfacts : ∀ name ∈ ["x29", "x30"], Lexeme.IsWord name.toList ∧
        name.toList.any Char.isUpper = false ∧ name ≠ "fp" ∧ name ≠ "lr" := by decide
    obtain ⟨hword, hlower, hne⟩ := hfacts name hname
    have hlower : ∀ c ∈ name.toList, c.isUpper = false := by simpa using hlower
    exact ⟨⟨Lexeme.isWord_iff_mem.1 hword, hlower⟩, hne⟩
  rw [normalName_eq]
  split
  · exact hregister "x29" (by decide)
  · rename_i hfp
    split
    · exact hregister "x30" (by decide)
    · rename_i hlr
      exact ⟨isLowerWord_normalMnemonic h, hfp, hlr⟩

/-- All words among lexemes match their pattern. -/
def WellSpelt (ts : List Lexeme) : Prop := ∀ w, .word w ∈ ts → w ∈ Lexeme.wordPattern

theorem WellSpelt.mono {ts us : List Lexeme} (h : WellSpelt us) (hsub : ts ⊆ us) : WellSpelt ts :=
  fun w hw ↦ h w (hsub hw)

theorem subset_separated {α : Type} {yield : α → List Lexeme} {x : α} {xs : List α} (hx : x ∈ xs) :
    yield x ⊆ separated yield xs := by
  cases xs with
  | nil => cases hx
  | cons y ys =>
    intro t ht
    rcases List.mem_cons.1 hx with rfl | hx
    · exact List.mem_append_left _ ht
    · exact List.mem_append_right _ (List.mem_flatMap.2 ⟨x, hx, List.mem_cons_of_mem _ ht⟩)

theorem TermTree.isNormal_value {t : TermTree} (h : WellSpelt t.yield) : t.value.IsNormal := by
  cases t with
  | name w =>
    refine ⟨.inl rfl, fun {name} hname ↦ ?_⟩
    obtain rfl := Option.some.inj hname
    exact isNormal_normalName (h w (List.mem_singleton.2 rfl))
  | amount w imm =>
    refine ⟨.inl rfl, fun {name} hname ↦ ?_⟩
    obtain rfl := Option.some.inj hname
    exact isNormal_normalName (h w List.mem_cons_self)
  | immediate imm =>
    refine ⟨.inr rfl, fun {name} hname ↦ ?_⟩
    cases hname

theorem Term.fuse?_eq_some_iff {t next u : Term} :
    t.fuse? next = some u ↔ t.Takes next ∧ u = ⟨t.name?, next.value?⟩ := by
  simp [fuse?, Takes, and_assoc, @eq_comm _ u]

theorem Item.fuse?_eq_some_iff {o next p : Item} :
    o.fuse? next = some p ↔
      ∃ t u, o = .term t ∧ next = .term u ∧ t.Takes u ∧ p = .term ⟨t.name?, u.value?⟩ := by
  constructor
  · intro h
    cases o <;> cases next <;> try cases h
    obtain ⟨joined, hfuse, rfl⟩ := Option.map_eq_some_iff.1 h
    obtain ⟨htakes, rfl⟩ := Term.fuse?_eq_some_iff.1 hfuse
    exact ⟨_, _, rfl, rfl, htakes, rfl⟩
  · rintro ⟨t, u, rfl, rfl, htakes, rfl⟩
    rw [fuse?, Term.fuse?_eq_some_iff.2 ⟨htakes, rfl⟩, Option.map_some]

/-- A modifier that has taken an amount has its name, and is taken by nothing. -/
theorem Term.Takes.name?_isSome {t next : Term} (h : t.Takes next) : t.name?.isSome = true := by
  have hbare := h.1
  rw [isBareModifier, Bool.and_eq_true] at hbare
  cases hname : t.name? with
  | none =>
    rw [hname] at hbare
    cases hbare.2
  | some name => rfl

theorem Term.Takes.isNormal {t next : Term} (h : t.Takes next) (ht : t.IsNormal) :
    Term.IsNormal ⟨t.name?, next.value?⟩ :=
  ⟨.inl h.name?_isSome, ht.name⟩

theorem Term.Takes.not_takes {t next : Term} (h : t.Takes next) (u : Term) (value? : Option Int) :
    ¬ u.Takes ⟨t.name?, value?⟩ := by
  rintro ⟨-, hnone⟩
  have hsome := h.name?_isSome
  rw [show t.name? = none from hnone] at hsome
  cases hsome

theorem isNormalTerms_fuseTerms {ts : List Term} (hne : ts ≠ []) (h : ∀ t ∈ ts, t.IsNormal) :
    IsNormalTerms (fuseTerms ts) where
  nonempty := coalesce_ne_nil hne
  normal := by
    refine forall_mem_coalesce ?_ h
    intro a b c hfuse ha _
    obtain ⟨htakes, rfl⟩ := Term.fuse?_eq_some_iff.1 hfuse
    exact htakes.isNormal ha
  apart := by
    refine (isChain_coalesce ?_ ts).imp fun _ _ ↦ Term.fuse?_eq_none_iff.1
    intro a b c hfuse x
    obtain ⟨htakes, rfl⟩ := Term.fuse?_eq_some_iff.1 hfuse
    exact Term.fuse?_eq_none_iff.2 (htakes.not_takes x _)

/-- An item that has taken an amount is taken by nothing. -/
theorem Item.fuse?_eq_none_of_takes {t u : Term} (h : t.Takes u) (value? : Option Int) (x : Item) :
    x.fuse? (.term ⟨t.name?, value?⟩) = none := by
  cases x with
  | term v => exact Item.fuse?_eq_none_iff.2 (h.not_takes v value?)
  | memory parts writeback => rfl

/-- After fusing, no item takes its neighbour. -/
theorem isChain_fuseItems (xs : List Item) :
    (fuseItems xs).IsChain fun x next ↦ ¬ x.Takes next := by
  refine (isChain_coalesce ?_ xs).imp fun _ _ ↦ Item.fuse?_eq_none_iff.1
  intro a b c hfuse x
  obtain ⟨t, u, rfl, rfl, htakes, rfl⟩ := Item.fuse?_eq_some_iff.1 hfuse
  exact Item.fuse?_eq_none_of_takes htakes _ x

theorem OperandTree.isNormal_value {o : OperandTree} (h : WellSpelt o.yield) :
    o.value.IsNormal := by
  cases o with
  | term t => exact TermTree.isNormal_value h
  | memory first others writeback =>
    refine isNormalTerms_fuseTerms (List.cons_ne_nil _ _) ?_
    intro u hu
    obtain ⟨t, ht, rfl⟩ := List.mem_map.1 hu
    refine TermTree.isNormal_value (h.mono fun v hv ↦ ?_)
    exact List.mem_append_left _ (List.mem_cons_of_mem _ (subset_separated ht hv))

theorem LineTree.isNormal_value {tree : LineTree} (h : WellSpelt tree.yield) :
    tree.value.IsNormal where
  mnemonic := isLowerWord_normalMnemonic (h _ List.mem_cons_self)
  normal := by
    refine forall_mem_coalesce ?_ ?_
    · intro a b c hfuse ha _
      obtain ⟨t, u, rfl, rfl, htakes, rfl⟩ := Item.fuse?_eq_some_iff.1 hfuse
      exact htakes.isNormal ha
    · intro p hp
      obtain ⟨o, ho, rfl⟩ := List.mem_map.1 hp
      refine OperandTree.isNormal_value (h.mono fun v hv ↦ ?_)
      exact List.mem_cons_of_mem _ (subset_separated ho hv)
  apart := isChain_fuseItems _

theorem isNormal_of_read {text : String} {l : Line} (h : read text = .ok l) : l.IsNormal := by
  obtain ⟨tree, hlexed, rfl⟩ := readChars_eq_ok_iff.1 (read_eq_ok_iff.1 h)
  exact LineTree.isNormal_value fun w hw ↦ hlexed.mem_pattern hw

/-! ### What is normal is read back -/

theorem IsLowerWord.normalMnemonic_eq {name : String} (h : IsLowerWord name) :
    normalMnemonic name.toList = name := by
  have hmap : name.toList.map Char.toLower = name.toList :=
    (List.map_congr_left fun c hc ↦ toLower_eq_self (h.lower c hc)).trans (List.map_id _)
  rw [normalMnemonic, hmap, String.ofList_toList]

theorem Term.IsNormal.spellsTerm {t : Term} (h : t.IsNormal) : SpellsTerm t.text.toList t := by
  obtain ⟨name?, value?⟩ := t
  have hkeeps : ∀ {name}, name? = some name →
      Lexeme.IsWord name.toList ∧ normalName name.toList = name := by
    intro name hname
    obtain ⟨hword, hfp, hlr⟩ := h.name hname
    refine ⟨Lexeme.isWord_iff_mem.2 hword.word, ?_⟩
    rw [normalName_eq, hword.normalMnemonic_eq, if_neg hfp, if_neg hlr]
  cases name? with
  | none =>
    cases value? with
    | none => exact absurd h.filled (by simp)
    | some n => simpa [text] using spellsTerm_immediate (Lexeme.spellsNumber_decimal n)
  | some name =>
    obtain ⟨hword, hname⟩ := hkeeps rfl
    cases value? with
    | none =>
      have hterm := spellsTerm_word hword
      rwa [hname] at hterm
    | some n =>
      have hterm := spellsTerm_amount hword (Lexeme.spellsNumber_decimal n)
      rw [hname] at hterm
      simpa [text] using hterm

/-- What is read one by one is read with commas between. -/
theorem reads_intercalate {α : Type} {Reads : List Char → List α → Prop} {text : α → String}
    (hjoin : ∀ {cs ds : List Char} {xs ys : List α}, Reads cs xs → Reads ds ys →
      Reads (commaJoin cs ds) (xs ++ ys))
    {xs : List α} (hne : xs ≠ []) (h : ∀ x ∈ xs, Reads (text x).toList [x]) :
    Reads (", ".intercalate (xs.map text)).toList xs := by
  cases xs with
  | nil => exact absurd rfl hne
  | cons x xs =>
    induction xs generalizing x with
    | nil => simpa using h x List.mem_cons_self
    | cons y ys ih =>
      obtain ⟨hx, hrest⟩ := List.forall_mem_cons.1 h
      have hjoined := hjoin hx (ih y (List.cons_ne_nil _ _) hrest)
      simpa [String.intercalate_cons_cons, commaJoin] using hjoined

theorem Item.IsNormal.readsItems {o : Item} (h : o.IsNormal) : ReadsItems o.text.toList [o] := by
  cases o with
  | term t => exact (Term.IsNormal.spellsTerm h).readsItems
  | memory parts writeback =>
    have hterms := reads_intercalate ReadsTerms.commaJoin h.nonempty
      fun t ht ↦ (h.normal t ht).spellsTerm.readsTerms
    have hitems := hterms.readsItems writeback
    rw [h.fuseTerms_eq] at hitems
    cases writeback <;> simpa [text, closing] using hitems

/-- A normal line is read back from its text. -/
theorem IsNormal.read_text {l : Line} (h : l.IsNormal) : read l.text = .ok l := by
  obtain ⟨m, operands⟩ := l
  have hword : Lexeme.IsWord m.toList := Lexeme.isWord_iff_mem.2 h.mnemonic.word
  have hm : normalMnemonic m.toList = m := h.mnemonic.normalMnemonic_eq
  by_cases hne : operands = []
  · subst hne
    have hread := readChars_mnemonic hword
    rw [hm, ← List.append_nil m.toList] at hread
    refine read_of_chars (List.append_nil _).symm hword ?_ hread
    rw [List.append_nil]
    exact hword.endsSolid
  · have hitems := reads_intercalate ReadsItems.commaJoin hne fun o ho ↦ (h.normal o ho).readsItems
    have hread := readChars_phrase hword hitems
    rw [hm, h.fuseItems_eq] at hread
    refine read_of_chars ?_ hword ((hitems.1.cons ' ').append _) hread
    simp [text, hne]

/-- Printing and reading are inverse to one another on normal lines, and those are the lines that
are read. In particular no two normal lines have the same text, and reading the text of what was
read changes nothing. -/
theorem read_text_iff_isNormal :
    (∀ text l, read text = .ok l → l.IsNormal) ∧
      (∀ l : Line, l.IsNormal → read l.text = .ok l) ∧
      (∀ l l' : Line, l.IsNormal → l'.IsNormal → l.text = l'.text → l = l') ∧
      ∀ text l, read text = .ok l → read l.text = .ok l := by
  refine ⟨fun text l h ↦ isNormal_of_read h, fun l h ↦ h.read_text, ?_, ?_⟩
  · intro l l' h h' htext
    have hread := h.read_text
    rw [htext, h'.read_text] at hread
    exact (Except.ok.inj hread).symm
  · intro text l h
    exact (isNormal_of_read h).read_text

/-- The load is normal because a text is read as it, and its own text is read as it too. -/
theorem read_text_iff_isNormal_load :
    scaledLoad.IsNormal ∧ scaledLoad.text = "ldr x0, [x29, x30, lsl #-3]!, sxtw #16" ∧
      read "ldr x0, [x29, x30, lsl #-3]!, sxtw #16" = .ok scaledLoad := by
  obtain ⟨hnormal, hread, -, -⟩ := read_text_iff_isNormal
  have hload : scaledLoad.IsNormal :=
    hnormal "LDR X0, [fp, LR, lsl, #-0X3]!, SXTW, #0X10" scaledLoad (by decide +kernel)
  have htext : scaledLoad.text = "ldr x0, [x29, x30, lsl #-3]!, sxtw #16" := by decide +kernel
  exact ⟨hload, htext, htext ▸ hread scaledLoad hload⟩

end A64Text.Line
