import A64Text.Proofs.Line.Grammar
import A64Text.Proofs.Line.Phrases

/-!
# Reading and the grammar

The machine that reads lines accepts the lexemes that the grammar derives, and what it returns is
the value of the tree.

One direction is an invariant. In every state the lexemes taken so far are the yield of complete
operands and terms, each with a comma behind it, and of the part of a term in progress
(`State.Reads`); one step keeps it (`State.Reads.step`), and where a line may end it is a tree
(`State.Reads.exists_tree`). The other direction runs the machine over the yield of a tree, rule by
rule (`LineTree.steps_yield`). With the patterns of lexemes this says which texts are lines, and
which lines they are (`Line.read_iff_derives`).
-/

namespace A64Text.Line

/-! ### What a step can be -/

namespace State

variable {m : String} {before : List Item} {parts : List Term} {pending : Pending}
  {writeback : Bool}
  {s : State} {t : Lexeme}

theorem startOperand_cases (h : startOperand m before t = some s) :
    (t = .beginMemory ∧ s = memory m before [] .vacant) ∨
      ∃ pending, Pending.vacant.step t = some pending ∧ s = operand m before pending := by
  unfold startOperand at h
  split at h
  · exact .inl ⟨rfl, (Option.some.inj h).symm⟩
  · obtain ⟨pending, hpending, rfl⟩ := Option.map_eq_some_iff.1 h
    exact .inr ⟨pending, hpending, rfl⟩

theorem step_operand_cases (h : (operand m before pending).step t = some s) :
    (pending = .vacant ∧ t = .beginMemory ∧ s = memory m before [] .vacant) ∨
    (t = .comma ∧ ∃ v, pending.term? = some v ∧ s = operand m (before ++ [.term v]) .vacant) ∨
      ∃ pending', pending.step t = some pending' ∧ s = operand m before pending' := by
  cases pending with
  | vacant =>
    obtain ⟨rfl, rfl⟩ | hpending := startOperand_cases h
    · exact .inl ⟨rfl, rfl, rfl⟩
    · exact .inr (.inr hpending)
  | _ =>
    refine .inr ?_
    cases t with
    | comma =>
      simp only [step, Option.map_eq_some_iff] at h
      obtain ⟨v, hv, rfl⟩ := h
      exact .inl ⟨rfl, v, hv, rfl⟩
    | _ =>
      simp only [step, Option.map_eq_some_iff] at h
      obtain ⟨pending', hpending, rfl⟩ := h
      exact .inr ⟨pending', hpending, rfl⟩

theorem step_memory_cases (h : (memory m before parts pending).step t = some s) :
    (t = .comma ∧ ∃ v, pending.term? = some v ∧ s = memory m before (parts ++ [v]) .vacant) ∨
    (t = .endMemory ∧ ∃ v, pending.term? = some v ∧ s = closed m before (parts ++ [v]) false) ∨
      ∃ pending', pending.step t = some pending' ∧ s = memory m before parts pending' := by
  cases t with
  | comma =>
    obtain ⟨v, hv, rfl⟩ := Option.map_eq_some_iff.1 h
    exact .inl ⟨rfl, v, hv, rfl⟩
  | endMemory =>
    obtain ⟨v, hv, rfl⟩ := Option.map_eq_some_iff.1 h
    exact .inr (.inl ⟨rfl, v, hv, rfl⟩)
  | _ =>
    obtain ⟨pending', hpending, rfl⟩ := Option.map_eq_some_iff.1 h
    exact .inr (.inr ⟨pending', hpending, rfl⟩)

theorem step_closed_cases (h : (closed m before parts writeback).step t = some s) :
    (t = .bang ∧ writeback = false ∧ s = closed m before parts true) ∨
      (t = .comma ∧ s = operand m (before ++ [.memory (fuseTerms parts) writeback]) .vacant) := by
  cases t with
  | bang =>
    cases writeback with
    | false => exact .inl ⟨rfl, rfl, (Option.some.inj h).symm⟩
    | true => cases h
  | comma =>
    refine .inr ⟨rfl, ?_⟩
    cases writeback <;> exact (Option.some.inj h).symm
  | _ => cases writeback <;> cases h

end State

/-! ### The trees behind a state -/

/-- What the members of a list yield, with a comma behind each of them. -/
def listed {α : Type} (yield : α → List Lexeme) (xs : List α) : List Lexeme :=
  xs.flatMap fun x ↦ yield x ++ [.comma]

theorem listed_concat {α : Type} (yield : α → List Lexeme) (xs : List α) (x : α) :
    listed yield (xs ++ [x]) = listed yield xs ++ yield x ++ [.comma] := by
  simp [listed]

theorem separated_concat {α : Type} (yield : α → List Lexeme) (xs : List α) (x : α) :
    separated yield (xs ++ [x]) = listed yield xs ++ yield x := by
  cases xs with
  | nil => simp [separated, listed]
  | cons y ys =>
    -- A comma between neighbours is behind the one and in front of the other.
    induction ys generalizing y with
    | nil => simp [separated, listed]
    | cons z zs ih =>
      have hrest := ih z
      simp only [separated, listed, List.cons_append, List.flatMap_cons, List.append_assoc,
        List.nil_append] at hrest ⊢
      rw [hrest]

/-- Lexemes taken inside a term. -/
inductive Pending.Reads : Pending → List Lexeme → Prop
  | vacant : Reads .vacant []
  | named (w : List Char) : Reads (.named (normalName w)) [.word w]
  | hash : Reads (.hash none) [.hash]
  | namedHash (w : List Char) : Reads (.hash (some (normalName w))) [.word w, .hash]
  | filled (t : TermTree) : Reads (.filled t.value) t.yield

/-- A step inside a term keeps track of what has been taken. -/
theorem Pending.Reads.step {pending pending' : Pending} {ts : List Lexeme} {t : Lexeme}
    (h : pending.Reads ts) (hstep : pending.step t = some pending') :
    pending'.Reads (ts ++ [t]) := by
  cases h with
  | vacant =>
    cases t with
    | word w => obtain rfl := Option.some.inj hstep; exact .named w
    | hash => obtain rfl := Option.some.inj hstep; exact .hash
    | number n => obtain rfl := Option.some.inj hstep; exact .filled (.immediate ⟨false, n⟩)
    | _ => cases hstep
  | named w =>
    cases t with
    | hash => obtain rfl := Option.some.inj hstep; exact .namedHash w
    | number n => obtain rfl := Option.some.inj hstep; exact .filled (.amount w ⟨false, n⟩)
    | _ => cases hstep
  | hash =>
    cases t with
    | number n => obtain rfl := Option.some.inj hstep; exact .filled (.immediate ⟨true, n⟩)
    | _ => cases hstep
  | namedHash w =>
    cases t with
    | number n => obtain rfl := Option.some.inj hstep; exact .filled (.amount w ⟨true, n⟩)
    | _ => cases hstep
  | filled => cases t <;> cases hstep

/-- Where a term may end, what has been taken is one. -/
theorem Pending.Reads.exists_tree {pending : Pending} {ts : List Lexeme} {v : Term}
    (h : pending.Reads ts) (hterm : pending.term? = some v) :
    ∃ t : TermTree, t.yield = ts ∧ t.value = v := by
  cases h with
  | named w => exact ⟨.name w, rfl, Option.some.inj hterm⟩
  | filled t => exact ⟨t, rfl, Option.some.inj hterm⟩
  | _ => cases hterm

/-- Lexemes taken on the way to a state. -/
inductive State.Reads : State → List Lexeme → Prop
  | start : Reads .start []
  | mnemonic (w : List Char) : Reads (.mnemonic (normalMnemonic w)) [.word w]
  | operand (w : List Char) (os : List OperandTree) {pending : Pending} {ts : List Lexeme}
      (h : pending.Reads ts) :
      Reads (.operand (normalMnemonic w) (os.map OperandTree.value) pending)
        (.word w :: listed OperandTree.yield os ++ ts)
  | memory (w : List Char) (os : List OperandTree) (ps : List TermTree) {pending : Pending}
      {ts : List Lexeme} (h : pending.Reads ts) :
      Reads (.memory (normalMnemonic w) (os.map OperandTree.value) (ps.map TermTree.value) pending)
        (.word w :: listed OperandTree.yield os ++ .beginMemory :: listed TermTree.yield ps ++ ts)
  | closed (w : List Char) (os : List OperandTree) (first : TermTree) (others : List TermTree)
      (writeback : Bool) :
      Reads (.closed (normalMnemonic w) (os.map OperandTree.value)
          ((first :: others).map TermTree.value) writeback)
        (.word w :: listed OperandTree.yield os ++
          (OperandTree.memory first others writeback).yield)

/-- A complete operand with a comma behind it joins those in front. -/
theorem State.Reads.operand_concat (w : List Char) (os : List OperandTree) (o : OperandTree) :
    (State.operand (normalMnemonic w) (os.map OperandTree.value ++ [o.value]) .vacant).Reads
      (.word w :: listed OperandTree.yield os ++ o.yield ++ [.comma]) := by
  have hnext := State.Reads.operand w (os ++ [o]) .vacant
  simpa [listed_concat] using hnext

/-- One step of the machine keeps track of what has been taken. -/
theorem State.Reads.step {s s' : State} {ts : List Lexeme} {t : Lexeme} (h : s.Reads ts)
    (hstep : s.step t = some s') : s'.Reads (ts ++ [t]) := by
  cases h with
  | start =>
    cases t with
    | word w => obtain rfl := Option.some.inj hstep; exact .mnemonic w
    | _ => cases hstep
  | mnemonic w =>
    obtain ⟨rfl, rfl⟩ | ⟨pending, hpending, rfl⟩ := startOperand_cases hstep
    · exact .memory w [] [] .vacant
    · exact .operand w [] (Pending.Reads.vacant.step hpending)
  | operand w os hpending =>
    obtain ⟨rfl, rfl, rfl⟩ | ⟨rfl, v, hv, rfl⟩ | ⟨pending', hpending', rfl⟩ :=
      step_operand_cases hstep
    · cases hpending
      simpa [listed] using State.Reads.memory w os [] .vacant
    · obtain ⟨tree, rfl, rfl⟩ := hpending.exists_tree hv
      exact .operand_concat w os (.term tree)
    · rw [List.append_assoc]
      exact .operand w os (hpending.step hpending')
  | memory w os ps hpending =>
    obtain ⟨rfl, v, hv, rfl⟩ | ⟨rfl, v, hv, rfl⟩ | ⟨pending', hpending', rfl⟩ :=
      step_memory_cases hstep
    · obtain ⟨tree, rfl, rfl⟩ := hpending.exists_tree hv
      have hnext := State.Reads.memory w os (ps ++ [tree]) .vacant
      simpa [listed_concat] using hnext
    · obtain ⟨tree, rfl, rfl⟩ := hpending.exists_tree hv
      -- The terms between the brackets are one at least, whichever was the first.
      obtain ⟨first, others, heq⟩ := List.exists_cons_of_ne_nil (l := ps ++ [tree]) (by simp)
      have hnext := State.Reads.closed w os first others false
      rw [OperandTree.yield, ← heq, separated_concat] at hnext
      simpa using hnext
    · rw [List.append_assoc]
      exact .memory w os ps (hpending.step hpending')
  | closed w os first others writeback =>
    obtain ⟨rfl, rfl, rfl⟩ | ⟨rfl, rfl⟩ := step_closed_cases hstep
    · have hnext := State.Reads.closed w os first others true
      simpa [OperandTree.yield] using hnext
    · exact .operand_concat w os (.memory first others writeback)

/-- All steps of the machine keep track of what has been taken. -/
theorem State.Reads.steps {s s' : State} {ts us : List Lexeme} (h : s.Reads ts)
    (hsteps : s.steps us = some s') : s'.Reads (ts ++ us) := by
  induction us generalizing s ts with
  | nil =>
    obtain rfl : s = s' := Option.some.inj hsteps
    rwa [List.append_nil]
  | cons u us ih =>
    obtain ⟨s₁, hstep, hrest⟩ := Option.bind_eq_some_iff.1 hsteps
    have hnext := ih (h.step hstep) hrest
    rwa [List.append_assoc] at hnext

/-- The operands in front and the last one make a line. -/
theorem LineTree.exists_of_concat (w : List Char) (os : List OperandTree) (o : OperandTree) :
    ∃ tree : LineTree, tree.yield = .word w :: listed OperandTree.yield os ++ o.yield ∧
      tree.value = ⟨normalMnemonic w, fuseItems (os.map OperandTree.value ++ [o.value])⟩ := by
  refine ⟨⟨w, os ++ [o]⟩, ?_, ?_⟩
  · rw [yield, separated_concat, List.cons_append]
  · simp [value]

/-- Where a line may end, what has been taken is one. -/
theorem State.Reads.exists_tree {s : State} {ts : List Lexeme} {l : Line} (h : s.Reads ts)
    (hline : s.line? = some l) : ∃ tree : LineTree, tree.yield = ts ∧ tree.value = l := by
  cases h with
  | start => cases hline
  | mnemonic w => exact ⟨⟨w, []⟩, rfl, Option.some.inj hline⟩
  | operand w os hpending =>
    obtain ⟨v, hv, rfl⟩ := Option.map_eq_some_iff.1 hline
    obtain ⟨tree, rfl, rfl⟩ := hpending.exists_tree hv
    exact LineTree.exists_of_concat w os (.term tree)
  | memory => cases hline
  | closed w os first others writeback =>
    obtain rfl := Option.some.inj hline
    exact LineTree.exists_of_concat w os (.memory first others writeback)

/-! ### Reading the yield of a tree -/

theorem TermTree.steps_yield (t : TermTree) :
    ∃ pending, Pending.vacant.steps t.yield = some pending ∧ pending.term? = some t.value := by
  rcases t with w | ⟨w, ⟨_ | _, n⟩⟩ | ⟨_ | _, n⟩ <;> exact ⟨_, rfl, rfl⟩

/-- Members with commas between them are read one after the other, if each of them is read behind
any others and a comma then leads to the next. -/
theorem steps_separated {α β : Type} {yield : α → List Lexeme} {value : α → β}
    (vacant : List β → State) {Held : List β → State → Prop}
    (hcomma : ∀ {xs : List β} {s : State}, Held xs s → s.step .comma = some (vacant xs))
    (hone : ∀ before x, ∃ s, (vacant before).steps (yield x) = some s ∧
      Held (before ++ [value x]) s)
    (before : List β) (x : α) (xs : List α) :
    ∃ s, (vacant before).steps (separated yield (x :: xs)) = some s ∧
      Held (before ++ (x :: xs).map value) s := by
  induction xs generalizing before x with
  | nil => simpa [separated] using hone before x
  | cons y ys ih =>
    obtain ⟨s, hs, hheld⟩ := hone before x
    obtain ⟨s', hs', hheld'⟩ := ih (before ++ [value x]) y
    refine ⟨s', ?_, by simpa using hheld'⟩
    have hsplit : separated yield (x :: y :: ys) =
        yield x ++ .comma :: separated yield (y :: ys) := by
      simp [separated]
    rw [hsplit, State.steps_append_of_eq hs, State.steps, hcomma hheld]
    exact hs'

theorem OperandTree.steps_yield (m : String) (before : List Item) (o : OperandTree) :
    ∃ s, (State.operand m before .vacant).steps o.yield = some s ∧
      s.Holds m (before ++ [o.value]) := by
  cases o with
  | term t =>
    obtain ⟨pending, hsteps, hterm⟩ := t.steps_yield
    exact ⟨_, Pending.steps_operand hsteps m before, .operand hterm⟩
  | memory first others writeback =>
    have hone : ∀ (parts : List Term) (t : TermTree), ∃ s,
        (State.memory m before parts .vacant).steps t.yield = some s ∧
          s.HoldsTerms m before (parts ++ [t.value]) := by
      intro parts t
      obtain ⟨pending, hsteps, hterm⟩ := t.steps_yield
      exact ⟨_, Pending.steps_memory hsteps m before parts, ⟨hterm⟩⟩
    obtain ⟨s, hs, hholds⟩ :=
      steps_separated (State.memory m before · .vacant) State.HoldsTerms.step_comma hone [] first
        others
    have hopen : (State.operand m before .vacant).steps
        (.beginMemory :: separated TermTree.yield (first :: others)) = some s := hs
    refine ⟨.closed m before ((first :: others).map TermTree.value) writeback, ?_, .closed⟩
    rw [yield, State.steps_append_of_eq hopen, State.steps, hholds.step_endMemory]
    cases writeback <;> rfl

theorem LineTree.steps_yield (tree : LineTree) :
    ∃ s, State.start.steps tree.yield = some s ∧ s.line? = some tree.value := by
  obtain ⟨w, operands⟩ := tree
  cases operands with
  | nil => exact ⟨.mnemonic (normalMnemonic w), rfl, rfl⟩
  | cons o os =>
    obtain ⟨s, hs, hholds⟩ := steps_separated (State.operand (normalMnemonic w) · .vacant)
      State.Holds.step_comma (OperandTree.steps_yield (normalMnemonic w)) [] o os
    refine ⟨s, ?_, hholds.line?⟩
    rw [yield, State.steps]
    -- Behind the mnemonic the machine starts an operand as it does behind a comma.
    cases hyield : separated OperandTree.yield (o :: os) with
    | nil =>
      rw [hyield] at hs
      obtain rfl := Option.some.inj hs
      generalize hitems : [] ++ (o :: os).map OperandTree.value = items at hholds
      cases hholds with
      | operand h => cases h
    | cons t ts =>
      rw [hyield] at hs
      exact hs

/-- The machine returns a line for the lexemes that a tree with this value yields. -/
theorem exists_line?_iff {ts : List Lexeme} {l : Line} :
    (∃ s, State.start.steps ts = some s ∧ s.line? = some l) ↔
      ∃ tree : LineTree, tree.yield = ts ∧ tree.value = l := by
  constructor
  · rintro ⟨s, hsteps, hline⟩
    exact (State.Reads.start.steps hsteps).exists_tree hline
  · rintro ⟨tree, rfl, rfl⟩
    exact tree.steps_yield

/-! ### Texts -/

/-- The columns of lexemes do not matter when all are taken. -/
theorem State.steps_of_run {s s' : State} {ls : List (Nat × Lexeme)} (h : s.run ls = .ok s') :
    s.steps (ls.map (·.2)) = some s' := by
  induction ls generalizing s with
  | nil =>
    obtain rfl : s = s' := Except.ok.inj h
    rfl
  | cons l ls ih =>
    rw [run] at h
    split at h
    · rename_i s₁ hstep
      rw [List.map_cons, steps, hstep]
      exact ih h
    · cases h

/-- Characters are read as a line exactly if they are lexemes that the grammar derives. -/
theorem readChars_eq_ok_iff {cs : List Char} {l : Line} :
    readChars cs = .ok l ↔ ∃ tree : LineTree, Lexeme.Lexed cs tree.yield ∧ tree.value = l := by
  constructor
  · intro h
    rw [readChars] at h
    split at h
    · cases h
    · rename_i s hrun
      split at h
      · cases h
      · rename_i hstop
        split at h
        · rename_i l' hline
          obtain rfl := Except.ok.inj h
          obtain ⟨tree, hyield, hvalue⟩ :=
            exists_line?_iff.1 ⟨s, State.steps_of_run hrun, hline⟩
          exact ⟨tree, hyield ▸ Lexeme.lexed_of_scan hstop, hvalue⟩
        · cases h
  · rintro ⟨tree, hlexed, rfl⟩
    obtain ⟨s, hsteps, hline⟩ := tree.steps_yield
    exact readChars_of_spells hlexed.spells hsteps hline

/-- The lexemes of a text are determined by it. -/
theorem Lexeme.Lexed.unique {cs : List Char} {ts us : List Lexeme} (h : Lexed cs ts)
    (h' : Lexed cs us) : ts = us :=
  (h.spells 1).1.symm.trans (h'.spells 1).1

/-- Every lexeme of a text matches its pattern. -/
theorem Lexeme.Lexed.mem_pattern {cs : List Char} {ts : List Lexeme} {t : Lexeme}
    (h : Lexed cs ts) (ht : t ∈ ts) : t.spelling ∈ t.pattern := by
  induction h with
  | nil => cases ht
  | space _ _ ih => exact ih ht
  | cons hmatch _ ih =>
    rcases List.mem_cons.1 ht with rfl | ht
    · exact hmatch.mem
    · exact ih ht

theorem read_eq_ok_iff {text : String} {l : Line} :
    read text = .ok l ↔ readChars (Text.trimChars text.toList) = .ok l := by
  rw [read]
  cases readChars (Text.trimChars text.toList) <;> simp [Except.mapError]

/-- Reading accepts the texts that the grammar derives, and reads each in one way. A text is a line
exactly if what stands between its blanks is a sequence of lexemes, each the longest match of its
pattern, that a tree yields; the line is the value of the tree. The lexemes are determined by the
text and the tree by the lexemes, and every number among them has a value. For any other text the
answer is an error about it. -/
theorem read_iff_derives (text : String) :
    (∀ l, read text = .ok l ↔
      ∃ ts, Lexeme.Lexed (Text.trimChars text.toList) ts ∧
        ∃ tree : LineTree, tree.yield = ts ∧ tree.value = l) ∧
    (∀ ts, Lexeme.Lexed (Text.trimChars text.toList) ts →
      (∀ us, Lexeme.Lexed (Text.trimChars text.toList) us → us = ts) ∧
      (∀ tree tree' : LineTree, tree.yield = ts → tree'.yield = ts → tree = tree') ∧
      ∀ w, .number w ∈ ts → Numeral.integer? w = some (Lexeme.numberValue w)) ∧
    ((¬ ∃ ts, Lexeme.Lexed (Text.trimChars text.toList) ts ∧
        ∃ tree : LineTree, tree.yield = ts) →
      ∃ fault, read text = .error ⟨text, fault⟩) := by
  have hread : ∀ l, read text = .ok l ↔
      ∃ ts, Lexeme.Lexed (Text.trimChars text.toList) ts ∧
        ∃ tree : LineTree, tree.yield = ts ∧ tree.value = l := by
    intro l
    rw [read_eq_ok_iff, readChars_eq_ok_iff]
    constructor
    · rintro ⟨tree, hlexed, hvalue⟩
      exact ⟨tree.yield, hlexed, tree, rfl, hvalue⟩
    · rintro ⟨ts, hlexed, tree, rfl, hvalue⟩
      exact ⟨tree, hlexed, hvalue⟩
  refine ⟨hread, fun ts hlexed ↦ ⟨fun us hus ↦ hus.unique hlexed, ?_, ?_⟩, fun hnone ↦ ?_⟩
  · intro tree tree' hyield hyield'
    exact LineTree.yield_injective (hyield.trans hyield'.symm)
  · intro w hw
    exact integer?_of_mem_numberPattern (hlexed.mem_pattern hw)
  · cases hresult : readChars (Text.trimChars text.toList) with
    | error fault => exact ⟨fault, by rw [read, hresult]; rfl⟩
    | ok l =>
      obtain ⟨ts, hlexed, tree, hyield, -⟩ := (hread l).1 (read_eq_ok_iff.2 hresult)
      exact absurd ⟨ts, hlexed, tree, hyield⟩ hnone

/-- A load with two registers and a shift in its address, and an extend behind the address. -/
def scaledLoad : Line :=
  ⟨"ldr", [.term ⟨some "x0", none⟩,
    .memory [⟨some "x29", none⟩, ⟨some "x30", none⟩, ⟨some "lsl", some (-3)⟩] true,
    .term ⟨some "sxtw", some 16⟩]⟩

/-- The load in capital letters between an ideographic space and a no-break space, with second names
of registers, and with the amounts of the shift and of the extend apart from them. -/
def spacedLoad : String := "\u3000LDR X0, [fp,LR , lsl, #-0X3]!, SXTW ,\t0x10\u00A0\n"

theorem read_iff_derives_load :
    ∃ ts, Lexeme.Lexed "LDR X0, [fp,LR , lsl, #-0X3]!, SXTW ,\t0x10".toList ts ∧
      (∃ tree : LineTree, tree.yield = ts ∧ tree.value = scaledLoad) ∧
      ∀ us, Lexeme.Lexed "LDR X0, [fp,LR , lsl, #-0X3]!, SXTW ,\t0x10".toList us →
        us = ts := by
  have hread : read spacedLoad = .ok scaledLoad := by decide +kernel
  have htrim : Text.trimChars spacedLoad.toList =
      "LDR X0, [fp,LR , lsl, #-0X3]!, SXTW ,\t0x10".toList := by decide +kernel
  obtain ⟨hderives, hunique, -⟩ := read_iff_derives spacedLoad
  rw [htrim] at hderives hunique
  obtain ⟨ts, hlexed, htree⟩ := (hderives scaledLoad).1 hread
  exact ⟨ts, hlexed, htree, (hunique ts hlexed).1⟩

end A64Text.Line
