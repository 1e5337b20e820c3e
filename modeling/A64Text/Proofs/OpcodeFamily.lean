import A64Text.Proofs.Bisection
import A64Text.Proofs.FieldTypes

/-!
# The family of an opcode

A family is found by bisection over numbers, and an opcode belongs to a family by its form. The two
agree: the family of a number is the family of the opcode with that number, and a number without an
opcode has no family (`Family.ofNumber?_eq`). So the family of an operation that is given by an
integer is that of its opcode (`Operation.ofNumber?_eq_family`).
-/

namespace A64Text

/-! ### Opcodes and their numbers -/

/-- An entry of a list is found by its key, if no two entries share one. -/
theorem find?_key {α β : Type} [DecidableEq β] {entries : List α} {key : α → β}
    (hnodup : (entries.map key).Nodup) {a : α} (ha : a ∈ entries) :
    (entries.find? fun b ↦ key b = key a) = some a := by
  induction entries with
  | nil => cases ha
  | cons b entries ih =>
    obtain ⟨hb, hnodup⟩ := List.nodup_cons.1 hnodup
    rw [List.find?_cons]
    rcases List.mem_cons.1 ha with rfl | ha
    · simp
    · have hne : key b ≠ key a := fun heq ↦ hb (heq ▸ List.mem_map_of_mem ha)
      simp only [hne, decide_false]
      exact ih hnodup ha

/-- Every opcode is listed. -/
theorem Opcode.mem_all (op : Opcode) : op ∈ all := by
  unfold all
  cases op
  -- Walk down the list of groups to the one that the opcode belongs to.
  all_goals
    repeat
      first
      | with_reducible refine List.mem_append_right _ (List.mem_map_of_mem ?_)
      | with_reducible refine List.mem_append_right _ (List.mem_singleton_self _)
      | with_reducible refine List.mem_map_of_mem ?_
      | with_reducible refine List.mem_append_left _ ?_
  all_goals
    rename_i op
    cases op <;> decide

/-- The opcode with the number of an opcode is that opcode. -/
theorem Opcode.ofNumber?_number (op : Opcode) : ofNumber? op.number = some op := by
  have hlt : all.idxOf op < all.length := List.idxOf_lt_length_of_mem op.mem_all
  have hplace : ((op.number : Int) - 1).toNat = all.idxOf op := by
    rw [number]
    omega
  rw [ofNumber?, if_pos (by unfold number; omega), hplace, List.getElem?_eq_getElem hlt,
    List.getElem_idxOf hlt]

/-- No two opcodes share a name. -/
theorem Opcode.nodup_names : (all.map name).Nodup := by decide +kernel

/-- An opcode has one number only. -/
theorem Opcode.number_of_ofNumber? {n : Int} {op : Opcode} (h : ofNumber? n = some op) :
    (op.number : Int) = n := by
  have hnodup : all.Nodup :=
    List.Pairwise.of_map name (fun _ _ hne heq ↦ hne (congrArg name heq)) nodup_names
  rw [ofNumber?] at h
  split at h
  · obtain ⟨hlt, rfl⟩ := List.getElem?_eq_some_iff.1 h
    rw [number, hnodup.idxOf_getElem]
    omega
  · cases h

/-- The opcodes of a family, by their form. -/
def Opcode.IsOf (op : Opcode) : Family → Prop
  | .pcRelativeAddressing => ∃ o, op = .pcRelativeAddressing o
  | .addSubtractImmediate => ∃ o, op = .addSubtractImmediate o
  | .logicalImmediate => ∃ o, op = .logicalImmediate o
  | .moveWideImmediate => ∃ o, op = .moveWideImmediate o
  | .bitfield => ∃ o, op = .bitfield o
  | .extract => op = .extract
  | .conditionalBranch => op = .conditionalBranch
  | .exceptionGeneration => ∃ o, op = .exceptionGeneration o
  | .system => ∃ o, op = .system o
  | .branchRegister => ∃ o, op = .branchRegister o
  | .branchImmediate => ∃ o, op = .branchImmediate o
  | .compareAndBranch => ∃ o, op = .compareAndBranch o
  | .testAndBranch => ∃ o, op = .testAndBranch o
  | .loadStoreExclusive => ∃ o, op = .loadStoreExclusive o
  | .loadLiteral => ∃ o, op = .loadLiteral o
  | .loadStorePair => ∃ o, op = .loadStorePair o
  | .loadStore => ∃ o, op = .loadStore o
  | .dataProcessingTwoSource => ∃ o, op = .dataProcessingTwoSource o
  | .dataProcessingOneSource => ∃ o, op = .dataProcessingOneSource o
  | .logicalShiftedRegister => ∃ o, op = .logicalShiftedRegister o
  | .addSubtractShiftedRegister => ∃ o, op = .addSubtractShiftedRegister o
  | .addSubtractExtendedRegister => ∃ o, op = .addSubtractExtendedRegister o
  | .addSubtractWithCarry => ∃ o, op = .addSubtractWithCarry o
  | .conditionalCompare => ∃ o, op = .conditionalCompare o
  | .conditionalSelect => ∃ o, op = .conditionalSelect o
  | .dataProcessingThreeSource => ∃ o, op = .dataProcessingThreeSource o

/-- An opcode that belongs to a family has the family's form. -/
theorem Opcode.isOf_family (op : Opcode) : op.IsOf op.family := by
  cases op
  case extract => exact rfl
  case conditionalBranch => exact rfl
  all_goals exact ⟨_, rfl⟩

/-! ### Families and numbers -/

namespace Family

theorem ascending_upperNumbers : Ascending upperNumbers := by decide +kernel

/-- The family at the place that bisection has to find. -/
theorem ofNumber?_eq_countP (n : Int) :
    ofNumber? n =
      if n < 1 then none
      else (upperBounds[upperNumbers.toList.countP (· < n)]?).map (·.2) := by
  rw [ofNumber?, lowerBound_eq_countP ascending_upperNumbers]

/-- For the numbers of opcodes the upper bounds give the opcode's own family. -/
theorem family_at_countP : ∀ k < Opcode.all.length,
    (upperBounds[upperNumbers.toList.countP (· < (k : Int) + 1)]?).map (·.2) =
      (Opcode.all[k]?).map Opcode.family := by
  decide +kernel

/-- All upper bounds are numbers of opcodes. -/
theorem upperNumbers_le : ∀ n ∈ upperNumbers.toList, n ≤ Opcode.all.length := by decide +kernel

/-- The family of a number is the family of the opcode with that number. -/
theorem ofNumber?_eq (n : Int) : ofNumber? n = (Opcode.ofNumber? n).map Opcode.family := by
  rw [ofNumber?_eq_countP, Opcode.ofNumber?]
  by_cases hn : n < 1
  · simp [hn, show ¬ 1 ≤ n by omega]
  · rw [if_neg hn, if_pos (by omega)]
    rcases Nat.lt_or_ge (n - 1).toNat Opcode.all.length with hlt | hge
    · have hfam := family_at_countP (n - 1).toNat hlt
      rwa [show (((n - 1).toNat : Int) + 1) = n by omega] at hfam
    · -- Behind the last opcode all bounds are below the number.
      have hall : upperNumbers.toList.countP (· < n) = upperNumbers.toList.length := by
        refine List.countP_eq_length.2 ?_
        intro m hm
        have := upperNumbers_le m hm
        simp only [decide_eq_true_eq]
        omega
      have hlen : upperNumbers.toList.length = upperBounds.length := by
        simp [upperNumbers]
      rw [hall, hlen, List.getElem?_eq_none (Nat.le_refl _), List.getElem?_eq_none hge]
      rfl

end Family

/-! ### Operations -/

namespace Operation

variable {o : Operation} {n : Int}

/-- An operation given by an integer has the opcode with that number. -/
theorem opcode?_eq (h : o.integer? = some n) : o.opcode? = Opcode.ofNumber? n := by
  cases o with
  | named op =>
    simp only [integer?, number?, Option.bind_some, Number.integer?_int, Option.some.injEq] at h
    rw [← h, Opcode.ofNumber?_number, opcode?]
  | numbered m =>
    simp only [integer?, number?, Option.bind_some] at h
    cases m with
    | int k => simp_all [opcode?]
    | truth b => simp_all [opcode?, Number.whole?]
    | real x => simp at h
  | unnumbered v => simp [integer?, number?] at h

/-- An operation given by an integer has the family of that number. -/
theorem family?_eq_ofNumber? (h : o.integer? = some n) : o.family? = Family.ofNumber? n := by
  obtain ⟨m, hm, hmn⟩ := Option.bind_eq_some_iff.1 h
  rw [family?, hm, Option.bind_some]
  cases m with
  | int k => simp_all [Family.of?]
  | truth b => simp_all [Family.of?]
  | real x => simp at hmn

/-- The family of an integer is that of the operation's opcode. -/
theorem ofNumber?_eq_family (h : o.integer? = some n) :
    Family.ofNumber? n = o.opcode?.map Opcode.family := by
  rw [opcode?_eq h, Family.ofNumber?_eq]

/-- An integer with a family is the number of an opcode of that family. -/
theorem exists_opcode {f : Family} (h : o.integer? = some n) (hf : Family.ofNumber? n = some f) :
    ∃ op, o.opcode? = some op ∧ op.family = f := by
  rw [ofNumber?_eq_family h] at hf
  exact Option.map_eq_some_iff.1 hf

/-- An operation with a number can be looked up in a table. -/
theorem isKey_of_number? {m : Number} (h : o.number? = some m) : o.isKey = true := by
  cases o with
  | named op => rfl
  | numbered m => rfl
  | unnumbered v => cases h

theorem isKey_of_integer? (h : o.integer? = some n) : o.isKey = true := by
  obtain ⟨m, hm, -⟩ := Option.bind_eq_some_iff.1 h
  exact isKey_of_number? hm

end Operation

end A64Text
