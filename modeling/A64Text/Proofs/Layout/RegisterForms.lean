import A64Text.Proofs.Layout.Field

/-!
# Outcomes of data processing with registers

One lemma for each family whose sources are registers. These layouts show operands of the
instruction and conditions, so all that is left to say is which operands are accepted and that every
preferred mnemonic is a word.
-/

namespace A64Text

open Signature

variable {i : Instruction}

/-! ### Two sources and one source -/

theorem TwoSourceOp.isMnemonic (op : TwoSourceOp) : IsMnemonic op.mnemonic :=
  (Opcode.dataProcessingTwoSource op).isMnemonic_name

theorem Layout.outcome_dataProcessingTwoSource (hkey : i.operation.isKey = true) :
    Outcome i .dataProcessingTwoSource (dataProcessingTwoSource i) := by
  rw [dataProcessingTwoSource]
  split
  · rename_i hlen
    split
    · rename_i op hop
      refine .ok hop rfl (by decide) ?_ (derives_operands op.isMnemonic)
      exact accepts_replicate_any.2 hlen
    · rename_i hop
      exact .unlisted (fun _ ↦ id) hop (i.isBreach_notListedFault hkey _)
  · rename_i hlen
    refine .rejected ?_ ⟨rfl, rfl⟩
    rintro _ ⟨op, rfl⟩ haccepts
    exact hlen (accepts_replicate_any.1 haccepts)

theorem OneSourceOp.isMnemonic (op : OneSourceOp) : IsMnemonic op.mnemonic :=
  (Opcode.dataProcessingOneSource op).isMnemonic_name

theorem OneSourceOp.isMnemonic_zero {op : OneSourceOp} {m : String}
    (h : op.form = .authenticated m) : IsMnemonic m := by
  cases op <;> first | cases h; decide | cases h

theorem Layout.outcome_dataProcessingOneSource (hkey : i.operation.isKey = true) :
    Outcome i .dataProcessingOneSource (dataProcessingOneSource i) := by
  rw [dataProcessingOneSource]
  split
  · rename_i rd rn hos
    split
    · rename_i op hop
      have hshown : ∀ {m : String} {ps : List Part} {r : Register}, IsMnemonic m →
          (∀ q ∈ (r : Part) :: ps, q.Derives i) →
            Outcome i .dataProcessingOneSource (.ok ⟨m, (r : Part) :: ps⟩) :=
        fun hm hps ↦ .shown hop rfl (by decide) (i.accepts_of_eq hos rfl) hm rfl hps
      split
      · exact hshown op.isMnemonic (by simp [hos])
      · rename_i zeroMnemonic hform
        split
        · exact hshown (OneSourceOp.isMnemonic_zero hform) (by simp [hos])
        · exact hshown op.isMnemonic (by simp [hos])
      · exact hshown op.isMnemonic (by simp [hos])
    · rename_i hop
      exact .unlisted (fun _ ↦ id) hop (i.isBreach_notListedFault hkey _)
  · rename_i hos
    refine .rejected ?_ (i.isBreach_shapeFault _)
    rintro _ ⟨op, rfl⟩ haccepts
    obtain ⟨rd, _, heq, rn, _, rfl, rfl⟩ := starts_register (starts_register ends) haccepts
    exact hos rd rn heq

/-! ### Shifted, extended and carried operands -/

/-- The mnemonics that may set flags are words with and without the ending. -/
theorem isMnemonic_flagSuffix {m : String} (h : IsMnemonic m ∧ IsMnemonic (m ++ "s"))
    (setsFlags : Bool) : IsMnemonic (m ++ Layout.flagSuffix setsFlags) := by
  cases setsFlags with
  | false =>
    rw [Layout.flagSuffix, if_neg Bool.false_ne_true, String.append_empty]
    exact h.1
  | true => exact h.2

namespace Layout

theorem outcome_logicalShiftedRegister :
    Outcome i .logicalShiftedRegister (logicalShiftedRegister i) := by
  rw [logicalShiftedRegister]
  split
  · rename_i rd rn rm s hos
    have hshown : ∀ {op : LogicalShiftedOp} {m : String} {ps : List Part} {r : Register},
        i.opcode? = some (.logicalShiftedRegister op) → IsMnemonic m →
          (∀ q ∈ (r : Part) :: ps, q.Derives i) →
            Outcome i .logicalShiftedRegister (.ok ⟨m, (r : Part) :: ps⟩) :=
      fun hop hm hps ↦ .shown hop rfl (by decide) (i.accepts_of_eq hos rfl) hm rfl hps
    split
    · rename_i hop
      split
      · exact hshown hop (by decide) (by simp [hos])
      · exact hshown hop (isMnemonic_flagSuffix (by decide) _) (by simp [hos])
    · rename_i hop
      exact hshown hop (isMnemonic_flagSuffix (by decide) _) (by simp [hos])
    · rename_i hop
      split
      · exact hshown hop (by decide) (by simp [hos])
      · exact hshown hop (by decide) (by simp [hos])
    · rename_i hop
      split
      · exact hshown hop (by decide) (by simp [hos])
      · exact hshown hop (by decide) (by simp [hos])
    · rename_i hop
      exact hshown hop (by decide) (by simp [hos])
    · rename_i hop
      exact hshown hop (by decide) (by simp [hos])
    · rename_i hand hbic horr horn heor heon
      refine .unhandled ?_ rfl
      rintro _ ⟨op, rfl⟩
      cases op with
      | and => exact hand
      | bic => exact hbic
      | orr => exact horr
      | orn => exact horn
      | eor => exact heor
      | eon => exact heon
  · rename_i hos
    refine .rejected ?_ (i.isBreach_shapeFault _)
    rintro _ ⟨op, rfl⟩ haccepts
    obtain ⟨rd, _, heq, rn, _, rfl, rm, _, rfl, s, _, rfl, rfl⟩ :=
      starts_register (starts_register (starts_register (starts_shift ends))) haccepts
    exact hos rd rn rm s heq

theorem outcome_addSubtractShiftedRegister :
    Outcome i .addSubtractShiftedRegister (addSubtractShiftedRegister i) := by
  rw [addSubtractShiftedRegister]
  split
  · rename_i rd rn rm s hos
    have hshown : ∀ {op : AddSubOp} {m : String} {ps : List Part} {r : Register},
        i.opcode? = some (.addSubtractShiftedRegister op) → IsMnemonic m →
          (∀ q ∈ (r : Part) :: ps, q.Derives i) →
            Outcome i .addSubtractShiftedRegister (.ok ⟨m, (r : Part) :: ps⟩) :=
      fun hop hm hps ↦ .shown hop rfl (by decide) (i.accepts_of_eq hos rfl) hm rfl hps
    split
    · rename_i hop
      split
      · exact hshown hop (by decide) (by simp [hos])
      · split
        · exact hshown hop (isMnemonic_flagSuffix (by decide) _) (by simp [hos])
        · exact hshown hop (isMnemonic_flagSuffix (by decide) _) (by simp [hos])
    · rename_i hop
      split
      · exact hshown hop (by decide) (by simp [hos])
      · exact hshown hop (isMnemonic_flagSuffix (by decide) _) (by simp [hos])
    · rename_i hsub hadd
      refine .unhandled ?_ rfl
      rintro _ ⟨(_ | _), rfl⟩
      · exact hadd
      · exact hsub
  · rename_i hos
    refine .rejected ?_ (i.isBreach_shapeFault _)
    rintro _ ⟨op, rfl⟩ haccepts
    obtain ⟨rd, _, heq, rn, _, rfl, rm, _, rfl, s, _, rfl, rfl⟩ :=
      starts_register (starts_register (starts_register (starts_shift ends))) haccepts
    exact hos rd rn rm s heq

theorem outcome_addSubtractExtendedRegister :
    Outcome i .addSubtractExtendedRegister (addSubtractExtendedRegister i) := by
  rw [addSubtractExtendedRegister]
  split
  · rename_i rd rn rm e hos
    split
    · rename_i op hop
      have hshown : ∀ {m : String} {ps : List Part} {r : Register}, IsMnemonic m →
          (∀ q ∈ (r : Part) :: ps, q.Derives i) →
            Outcome i .addSubtractExtendedRegister (.ok ⟨m, (r : Part) :: ps⟩) :=
        fun hm hps ↦ .shown hop rfl (by decide) (i.accepts_of_eq hos rfl) hm rfl hps
      split
      · exact hshown (by cases op <;> decide) (by simp [hos])
      · exact hshown (isMnemonic_flagSuffix (by cases op <;> decide) _) (by simp [hos])
    · rename_i hop
      exact .unlisted (fun _ ↦ id) hop rfl
  · rename_i hos
    refine .rejected ?_ (i.isBreach_shapeFault _)
    rintro _ ⟨op, rfl⟩ haccepts
    obtain ⟨rd, _, heq, rn, _, rfl, rm, _, rfl, e, _, rfl, rfl⟩ :=
      starts_register (starts_register (starts_register (starts_extend ends))) haccepts
    exact hos rd rn rm e heq

theorem outcome_addSubtractWithCarry :
    Outcome i .addSubtractWithCarry (addSubtractWithCarry i) := by
  rw [addSubtractWithCarry]
  split
  · rename_i rd rn rm hos
    have hshown : ∀ {op : CarryOp} {m : String} {ps : List Part} {r : Register},
        i.opcode? = some (.addSubtractWithCarry op) → IsMnemonic m →
          (∀ q ∈ (r : Part) :: ps, q.Derives i) →
            Outcome i .addSubtractWithCarry (.ok ⟨m, (r : Part) :: ps⟩) :=
      fun hop hm hps ↦ .shown hop rfl (by decide) (i.accepts_of_eq hos rfl) hm rfl hps
    split
    · rename_i hop
      split
      · exact hshown hop (isMnemonic_flagSuffix (by decide) _) (by simp [hos])
      · exact hshown hop (isMnemonic_flagSuffix (by decide) _) (by simp [hos])
    · rename_i hop
      exact hshown hop (isMnemonic_flagSuffix (by decide) _) (by simp [hos])
    · rename_i hsbc hadc
      refine .unhandled ?_ rfl
      rintro _ ⟨(_ | _), rfl⟩
      · exact hadc
      · exact hsbc
  · rename_i hos
    refine .rejected ?_ (i.isBreach_shapeFault _)
    rintro _ ⟨op, rfl⟩ haccepts
    obtain ⟨rd, _, heq, rn, _, rfl, rm, _, rfl, rfl⟩ :=
      starts_register (starts_register (starts_register ends)) haccepts
    exact hos rd rn rm heq

/-! ### Conditions -/

theorem outcome_conditionalCompare : Outcome i .conditionalCompare (conditionalCompare i) := by
  rw [conditionalCompare]
  split
  · rename_i rn second third hos
    have hparts : ∀ q ∈ [(rn : Part), second, third, i.conditionOf.part], q.Derives i := by
      have hcondition : i.conditionOf.part.Derives i := .word i.conditionOf.isName_text
      simp [hos, hcondition]
    simp only
    split
    · rename_i hop
      exact .shown hop rfl (by decide) (i.accepts_of_eq hos rfl) (by decide) rfl hparts
    · rename_i hop
      exact .shown hop rfl (by decide) (i.accepts_of_eq hos rfl) (by decide) rfl hparts
    · rename_i hccmn hccmp
      refine .unhandled ?_ rfl
      rintro _ ⟨(_ | _), rfl⟩
      · exact hccmn
      · exact hccmp
  · rename_i first second third hfirst hos
    refine .rejected ?_ ⟨rfl, rfl⟩
    rintro _ ⟨op, rfl⟩ haccepts
    obtain ⟨rn, _, heq, -⟩ := starts_register id haccepts
    rw [hos] at heq
    exact hfirst rn (List.cons.inj heq).1
  · rename_i hregister hother
    refine .rejected ?_ ⟨rfl, rfl⟩
    rintro _ ⟨op, rfl⟩ haccepts
    obtain ⟨rn, _, heq, second, _, rfl, third, _, rfl, rfl⟩ :=
      starts_register (starts_any (starts_any ends)) haccepts
    exact hother _ _ _ heq

end Layout

theorem ConditionalSelectOp.isMnemonic (op : ConditionalSelectOp) : IsMnemonic op.mnemonic :=
  (Opcode.conditionalSelect op).isMnemonic_name

/-- The preferred mnemonics of selections are words. -/
theorem ConditionalSelectOp.isMnemonic_preferred {op : ConditionalSelectOp} {m : String}
    (h : op.zeroSource? = some m ∨ op.sameSource? = some m) : IsMnemonic m := by
  rcases h with h | h
  · cases op <;> first | cases h; decide | cases h
  · cases op <;> first | cases h; decide | cases h

theorem Layout.outcome_conditionalSelect (hkey : i.operation.isKey = true) :
    Outcome i .conditionalSelect (conditionalSelect i) := by
  rw [conditionalSelect]
  split
  · rename_i rd rn rm hos
    have hcondition : i.conditionOf.part.Derives i := .word i.conditionOf.isName_text
    simp only
    split
    · rename_i op hop
      have hshown : ∀ {m : String} {ps : List Part} {r : Register}, IsMnemonic m →
          (∀ q ∈ (r : Part) :: ps, q.Derives i) →
            Outcome i .conditionalSelect (.ok ⟨m, (r : Part) :: ps⟩) :=
        fun hm hps ↦ .shown hop rfl (by decide) (i.accepts_of_eq hos rfl) hm rfl hps
      split
      · rename_i m hzero
        have hm := (Option.ite_none_right_eq_some.1 hzero).2
        exact hshown (ConditionalSelectOp.isMnemonic_preferred (.inl hm))
          (by simp [hos, hcondition])
      · split
        · rename_i m hsame
          have hm := (Option.ite_none_right_eq_some.1 hsame).2
          exact hshown (ConditionalSelectOp.isMnemonic_preferred (.inr hm))
            (by simp [hos, hcondition])
        · exact hshown op.isMnemonic (by simp [hos, hcondition])
    · rename_i hop
      exact .unlisted (fun _ ↦ id) hop (i.isBreach_notListedFault hkey _)
  · rename_i hos
    refine .rejected ?_ (i.isBreach_shapeFault _)
    rintro _ ⟨op, rfl⟩ haccepts
    obtain ⟨rd, _, heq, rn, _, rfl, rm, _, rfl, rfl⟩ :=
      starts_register (starts_register (starts_register ends)) haccepts
    exact hos rd rn rm heq

/-! ### Three sources -/

theorem ThreeSourceOp.isMnemonic (op : ThreeSourceOp) : IsMnemonic op.mnemonic :=
  (Opcode.dataProcessingThreeSource op).isMnemonic_name

theorem ThreeSourceOp.isMnemonic_product {op : ThreeSourceOp} {m : String}
    (h : op.product? = some m) : IsMnemonic m := by
  cases op <;> first | cases h; decide | cases h

theorem Layout.outcome_dataProcessingThreeSource (hkey : i.operation.isKey = true) :
    Outcome i .dataProcessingThreeSource (dataProcessingThreeSource i) := by
  rw [dataProcessingThreeSource]
  split
  · rename_i rd rn rm ra hos
    split
    · rename_i op hop
      have hshown : ∀ {m : String} {ps : List Part} {r : Register}, IsMnemonic m →
          (∀ q ∈ (r : Part) :: ps, q.Derives i) →
            Outcome i .dataProcessingThreeSource (.ok ⟨m, (r : Part) :: ps⟩) :=
        fun hm hps ↦ .shown hop rfl (by decide) (i.accepts_of_eq hos rfl) hm rfl hps
      split
      · exact hshown op.isMnemonic (by simp [hos])
      · rename_i product hproduct
        split
        · exact hshown (ThreeSourceOp.isMnemonic_product hproduct) (by simp [hos])
        · exact hshown op.isMnemonic (by simp [hos])
    · rename_i hop
      exact .unlisted (fun _ ↦ id) hop (i.isBreach_notListedFault hkey _)
  · rename_i hos
    refine .rejected ?_ (i.isBreach_shapeFault _)
    rintro _ ⟨op, rfl⟩ haccepts
    obtain ⟨rd, _, heq, rn, _, rfl, rm, _, rfl, ra, _, rfl, rfl⟩ :=
      starts_register (starts_register (starts_register (starts_register ends))) haccepts
    exact hos rd rn rm ra heq

end A64Text
