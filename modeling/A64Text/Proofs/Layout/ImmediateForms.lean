import A64Text.Proofs.Layout.Outcome

/-!
# Outcomes of data processing with immediates

One lemma for each family whose last source is an immediate. The widths and values that these
layouts compute with are integers, so no computation fails but the shift of a wide immediate.
-/

namespace A64Text.Layout

open Signature

variable {i : Instruction}

/-! ### Addresses -/

theorem pageFault?_eq_none {imm : Immediate} (h : imm.hasIntegers = true) :
    pageFault? imm = none := by
  simp only [Immediate.hasIntegers, Bool.and_eq_true] at h
  obtain ⟨v, hv⟩ := Number.isInt_iff.1 h.1
  obtain ⟨w, hw⟩ := Number.isInt_iff.1 h.2
  simp [pageFault?, hv, hw]

theorem hasIntegers_truncate (n size : Nat) (h : 0 < size ∧ size ≤ 64) :
    (Immediate.truncate n size h).hasIntegers = true := rfl

theorem outcome_pcRelativeAddressing (h : i.hasIntegers = true) :
    Outcome i .pcRelativeAddressing (pcRelativeAddressing i) := by
  rw [pcRelativeAddressing]
  split
  · rename_i rd imm s hos
    have himm : imm.hasIntegers = true := i.immediate_hasIntegers h (by simp [hos])
    split
    · rename_i hop
      exact .shown hop rfl (by decide) (i.accepts_of_eq hos rfl) (by decide) rfl
        (by simp [hos, himm])
    · rename_i hop
      rw [pageFault?_eq_none himm]
      exact .shown hop rfl (by decide) (i.accepts_of_eq hos rfl) (by decide) rfl
        (by simp [hos, hasIntegers_truncate])
    · rename_i hadr hadrp
      refine .unhandled ?_ rfl
      rintro _ ⟨(_ | _), rfl⟩
      · exact hadr
      · exact hadrp
  · rename_i hos
    refine .rejected ?_ (i.isBreach_shapeFault _)
    rintro _ ⟨op, rfl⟩ haccepts
    obtain ⟨rd, _, heq, imm, _, rfl, s, _, rfl, rfl⟩ :=
      starts_register (starts_immediate (starts_shift ends)) haccepts
    exact hos rd imm s heq

/-! ### Arithmetic and logic -/

theorem outcome_addSubtractImmediate :
    Outcome i .addSubtractImmediate (addSubtractImmediate i) := by
  rw [addSubtractImmediate]
  split
  · rename_i rd rn imm s hos
    split
    · rename_i op hop
      have hshown : ∀ {m : String} {ps : List Part} {r : Register}, IsMnemonic m →
          (∀ q ∈ (r : Part) :: ps, q.Derives i) →
            Outcome i .addSubtractImmediate (.ok ⟨m, (r : Part) :: ps⟩) :=
        fun hm hps ↦ .shown hop rfl (by decide) (i.accepts_of_eq hos rfl) hm rfl hps
      split
      · exact hshown (by decide) (by simp [hos])
      · split
        · exact hshown (by cases op <;> decide) (by simp [hos])
        · exact hshown (by cases op <;> cases i.setsFlags <;> decide) (by simp [hos])
    · rename_i hop
      exact .unlisted (fun _ ↦ id) hop rfl
  · rename_i hos
    refine .rejected ?_ (i.isBreach_shapeFault _)
    rintro _ ⟨op, rfl⟩ haccepts
    obtain ⟨rd, _, heq, rn, _, rfl, imm, _, rfl, s, _, rfl, rfl⟩ :=
      starts_register (starts_register (starts_immediate (starts_shift ends))) haccepts
    exact hos rd rn imm s heq

theorem outcome_logicalImmediate : Outcome i .logicalImmediate (logicalImmediate i) := by
  rw [logicalImmediate]
  split
  · rename_i rd rn imm hos
    have hshown : ∀ {op : LogicalImmediateOp} {m : String} {ps : List Part} {r : Register},
        i.opcode? = some (.logicalImmediate op) → IsMnemonic m →
          (∀ q ∈ (r : Part) :: ps, q.Derives i) →
            Outcome i .logicalImmediate (.ok ⟨m, (r : Part) :: ps⟩) :=
      fun hop hm hps ↦ .shown hop rfl (by decide) (i.accepts_of_eq hos rfl) hm rfl hps
    split
    · rename_i hop
      split
      · exact hshown hop (by decide) (by simp [hos])
      · split
        · exact hshown hop (by decide) (by simp [hos])
        · exact hshown hop (by decide) (by simp [hos])
    · rename_i hop
      split
      · exact hshown hop (by decide) (by simp [hos])
      · exact hshown hop (by decide) (by simp [hos])
    · rename_i hop
      exact hshown hop (by decide) (by simp [hos])
    · rename_i hand horr heor
      refine .unhandled ?_ rfl
      rintro _ ⟨(_ | _ | _), rfl⟩
      · exact hand
      · exact horr
      · exact heor
  · rename_i hos
    refine .rejected ?_ (i.isBreach_shapeFault _)
    rintro _ ⟨op, rfl⟩ haccepts
    obtain ⟨rd, _, heq, rn, _, rfl, imm, _, rfl, rfl⟩ :=
      starts_register (starts_register (starts_immediate ends)) haccepts
    exact hos rd rn imm heq

/-! ### Wide moves -/

/-- A wide immediate that is shifted into its place is shown, or is the one fault of a match. -/
theorem outcome_shifted {op : MoveWideOp} {rd : Register} {imm : Immediate} {s : Shift}
    (h : i.hasIntegers = true) (hop : i.opcode? = some (.moveWideImmediate op))
    (hshifts : op = .movz ∨ op = .movn)
    (hos : i.operands = [.register rd, .immediate imm, .shift s]) (bits : Nat)
    {mov : Nat → Layout} (hmov : ∀ value, (mov value).Derives i) :
    Outcome i .moveWideImmediate ((shiftedImmediate bits imm s).map mov) := by
  have haccepts := i.accepts_of_eq (s := .exactly [.register, .immediate, .shift]) hos rfl
  have himm : imm.hasIntegers = true := i.immediate_hasIntegers h (by simp [hos])
  have hs : s.hasIntegers = true := Instruction.hasIntegers_of_mem (o := .shift s) h (by simp [hos])
  obtain ⟨count, hcount⟩ := Json.isInt_iff.1 hs
  have hwide : i.wideFault? =
      if count < 0 then some .negativeShift
      else if Room.holdsShift imm.value count.toNat then none
      else some .room := by
    rcases hshifts with rfl | rfl <;> simp [Instruction.wideFault?, hop, hos, hcount]
  rw [shiftedImmediate, hcount, Immediate.given_eq_value himm]
  simp only [Number.integer?_int, Json.toInt?_int]
  by_cases hneg : count < 0
  · rw [if_pos hneg]
    rw [if_pos hneg] at hwide
    exact .noRoom hop rfl haccepts hwide
  · rw [if_neg hneg]
    rw [if_neg hneg] at hwide
    by_cases hroom : Room.holdsShift imm.value count.toNat = true
    · rw [if_pos hroom]
      rw [if_pos hroom] at hwide
      exact .laidOut hop rfl haccepts hwide (hmov _)
    · rw [if_neg hroom]
      rw [if_neg hroom] at hwide
      exact .noRoom hop rfl haccepts hwide

theorem outcome_moveWideImmediate (h : i.hasIntegers = true) :
    Outcome i .moveWideImmediate (moveWideImmediate i) := by
  rw [moveWideImmediate]
  split
  · rename_i rd imm s hos
    have hrd : rd.hasIntegers = true := i.register_hasIntegers h (by simp [hos])
    have himm : imm.hasIntegers = true := i.immediate_hasIntegers h (by simp [hos])
    obtain ⟨size, hsize⟩ := Json.isInt_iff.1 hrd
    simp only [hsize, Json.toNumber?_int]
    have hmov : ∀ value, Derives i ⟨"mov", [(rd : Part),
        (Immediate.truncate value _ (registerBits_bounds (.int size)) : Part)]⟩ := by
      intro value
      exact derives_cons (by decide) rfl (by simp [hos, hasIntegers_truncate])
    split
    · rename_i hop
      rw [Immediate.given_eq_value himm]
      refine .laidOut hop rfl (i.accepts_of_eq hos rfl) ?_ (derives_cons (by decide) rfl ?_)
      · simp [Instruction.wideFault?, hop]
      · have hlow : (imm.lowBits (registerBits (.int size))).hasIntegers = true := rfl
        simp [hos, hlow]
    · rename_i hop
      exact outcome_shifted h hop (.inl rfl) hos _ hmov
    · rename_i hop
      exact outcome_shifted h hop (.inr rfl) hos _ fun value ↦ hmov _
    · rename_i hmovk hmovz hmovn
      refine .unhandled ?_ rfl
      rintro _ ⟨(_ | _ | _), rfl⟩
      · exact hmovn
      · exact hmovk
      · exact hmovz
  · rename_i hos
    refine .rejected ?_ (i.isBreach_shapeFault _)
    rintro _ ⟨op, rfl⟩ haccepts
    obtain ⟨rd, _, heq, imm, _, rfl, s, _, rfl, rfl⟩ :=
      starts_register (starts_immediate (starts_shift ends)) haccepts
    exact hos rd imm s heq

/-! ### Bitfields -/

theorem derives_insertedField {immr imms : Number} (hr : immr.isInt = true)
    (hs : imms.isInt = true) (bits : Nat) : ∀ p ∈ insertedField bits immr imms, p.Derives i := by
  have hplace : ((Number.int bits).sub immr).isInt = true := Number.isInt_sub rfl hr
  have hwidth : (imms.add (.int 1)).isInt = true := Number.isInt_add hs rfl
  simp [insertedField, hplace, hwidth]

theorem derives_extractedField {immr imms : Number} (hr : immr.isInt = true)
    (hs : imms.isInt = true) : ∀ p ∈ extractedField immr imms, p.Derives i := by
  have hwidth : ((imms.sub immr).add (.int 1)).isInt = true :=
    Number.isInt_add (Number.isInt_sub hs hr) rfl
  simp [extractedField, hr, hwidth]

/-- The mnemonics of extensions are words. -/
theorem isMnemonic_extension {immr imms : Number} {suffix : String}
    (h : extension? immr imms = some suffix) :
    IsMnemonic ("sxt" ++ suffix) ∧ IsMnemonic ("uxt" ++ suffix) := by
  obtain ⟨-, h⟩ := Option.ite_none_right_eq_some.1 h
  obtain ⟨last, -, h⟩ := Option.bind_eq_some_iff.1 h
  unfold extensionSuffix? at h
  split at h
  · obtain rfl := Option.some.inj h
    decide
  · obtain rfl := Option.some.inj h
    decide
  · obtain rfl := Option.some.inj h
    decide
  · cases h

theorem outcome_bitfield (h : i.hasIntegers = true) : Outcome i .bitfield (bitfield i) := by
  rw [bitfield]
  split
  · rename_i rd rn rotation top hos
    have hrd : rd.hasIntegers = true := i.register_hasIntegers h (by simp [hos])
    have hr : rotation.given.isInt = true :=
      Immediate.isInt_given (i.immediate_hasIntegers h (by simp [hos]))
    have hs : top.given.isInt = true :=
      Immediate.isInt_given (i.immediate_hasIntegers h (by simp [hos]))
    obtain ⟨size, hsize⟩ := Json.isInt_iff.1 hrd
    simp only [hsize, Json.toNumber?_int]
    have hshown : ∀ {op : BitfieldOp} {m : String} {ps : List Part},
        i.opcode? = some (.bitfield op) → IsMnemonic m → (∀ q ∈ ps, q.Derives i) →
          Outcome i .bitfield (.ok ⟨m, (rd : Part) :: ps⟩) := by
      intro op m ps hop hm hps
      refine .shown hop rfl (by decide) (i.accepts_of_eq hos rfl) hm rfl ?_
      exact List.forall_mem_cons.2 ⟨.operand (by simp [hos]), hps⟩
    have hrn : (rn : Part).Derives i := .operand (by simp [hos])
    have hinserted := derives_insertedField (i := i) hr hs (registerBits (.int size))
    have hextracted := derives_extractedField (i := i) hr hs
    split
    · rename_i hop
      split
      · split
        · exact hshown hop (by decide) hinserted
        · exact hshown hop (by decide) (List.forall_mem_cons.2 ⟨hrn, hinserted⟩)
      · exact hshown hop (by decide) (List.forall_mem_cons.2 ⟨hrn, hextracted⟩)
    · rename_i hop
      split
      · exact hshown hop (by decide) (by simp [hos, hr])
      · split
        · exact hshown hop (by decide) (List.forall_mem_cons.2 ⟨hrn, hinserted⟩)
        · split
          · rename_i hext
            exact hshown hop (isMnemonic_extension hext).1 (by simp [hos])
          · exact hshown hop (by decide) (List.forall_mem_cons.2 ⟨hrn, hextracted⟩)
    · rename_i hop
      split
      · have hplace := Number.isInt_sub (Number.isInt_int (registerBits (.int size))) hr
        exact hshown hop (by decide) (by simp [hos, hplace])
      · split
        · exact hshown hop (by decide) (by simp [hos, hr])
        · split
          · exact hshown hop (by decide) (List.forall_mem_cons.2 ⟨hrn, hinserted⟩)
          · split
            · rename_i hext
              exact hshown hop (isMnemonic_extension hext).2 (by simp [hos])
            · exact hshown hop (by decide) (List.forall_mem_cons.2 ⟨hrn, hextracted⟩)
    · rename_i hbfm hsbfm hubfm
      refine .unhandled ?_ rfl
      rintro _ ⟨(_ | _ | _), rfl⟩
      · exact hsbfm
      · exact hbfm
      · exact hubfm
  · rename_i hos
    refine .rejected ?_ (i.isBreach_shapeFault _)
    rintro _ ⟨op, rfl⟩ haccepts
    obtain ⟨rd, _, heq, rn, _, rfl, rotation, _, rfl, top, _, rfl, rfl⟩ :=
      starts_register (starts_register (starts_immediate (starts_immediate ends))) haccepts
    exact hos rd rn rotation top heq

theorem outcome_extract (h : i.hasIntegers = true) : Outcome i .extract (extract i) := by
  rw [extract]
  split
  · rename_i rd rn rm imm hos
    have himm : imm.given.isInt = true :=
      Immediate.isInt_given (i.immediate_hasIntegers h (by simp [hos]))
    split
    · rename_i hop
      split
      · exact .shown hop rfl (by decide) (i.accepts_of_eq hos rfl) (by decide) rfl
          (by simp [hos, himm])
      · exact .shown hop rfl (by decide) (i.accepts_of_eq hos rfl) (by decide) rfl
          (by simp [hos, himm])
    · rename_i hop
      refine .unhandled ?_ rfl
      rintro _ rfl
      exact hop
  · rename_i hos
    refine .rejected ?_ (i.isBreach_shapeFault _)
    rintro _ rfl haccepts
    obtain ⟨rd, _, heq, rn, _, rfl, rm, _, rfl, imm, _, rfl, rfl⟩ :=
      starts_register (starts_register (starts_register (starts_immediate ends))) haccepts
    exact hos rd rn rm imm heq

end A64Text.Layout
