import A64Text.Proofs.Meaning.Mnemonics
import A64Text.Proofs.Meaning.Opcodes

/-!
# Aliases keep the meaning

A preferred alias leaves out a register and takes another mnemonic, and what the line then says is
what the opcode does (`Instruction.effect_of_text`). The two meanings are given apart, by opcode and
operands and by mnemonic and arguments, and are brought together arm by arm of every layout: a zero
register in front of a sum or a logical operation adds nothing, a result for the zero register
leaves only its flags, a subtraction is a sum with a complement, an extraction from one register is
a rotation, and a product with nothing to add is a product.
-/

namespace A64Text

open Line Meaning

namespace Meaning

/-! ### Modified sources -/

/-- The keyword of a shift says what the shift does. -/
theorem lookup_shiftKeyword {kind : ShiftKind} (h : kind.isListed = true) (hnone : kind ≠ .none) :
    ∃ m, Modification.keywords.lookup kind.keyword = some m ∧ kind.modification? = some m := by
  cases kind with
  | none => exact absurd rfl hnone
  | unlisted name => cases h
  | _ => exact ⟨_, rfl, rfl⟩

/-- The keyword of an extend says what the extend does. -/
theorem lookup_extendKeyword {kind : ExtendKind} (h : kind.isListed = true)
    (hnone : kind ≠ .none) :
    ∃ m, Modification.keywords.lookup kind.keyword = some m ∧ kind.modification? = some m := by
  cases kind with
  | none => exact absurd rfl hnone
  | unlisted name => cases h
  | _ => exact ⟨_, rfl, rfl⟩

/-- A register and the shift behind it are read as the shifted register. -/
theorem source?_shift {s : Shift} (h : s.kind.isListed = true) (v : View) :
    ∃ src, source? (.register v :: modifierArgs s.reading) = some src ∧
      ∀ σ n, src.value σ n = s.apply n (σ.value v) := by
  rw [Shift.reading_eq h]
  by_cases hnone : s.kind = .none
  · exact ⟨.register v, by simp [hnone, modifierArgs, source?], fun σ n ↦ by
      simp [Shift.apply, hnone, ShiftKind.modification?, modified, Source.value, Machine.operand]⟩
  · obtain ⟨m, hkeyword, hmodification⟩ := lookup_shiftKeyword h hnone
    exact ⟨.modified v m s.amount, by simp [hnone, modifierArgs, source?, hkeyword], fun σ n ↦ by
      simp [Shift.apply, hmodification, modified, Source.value]⟩

/-- A register and the extend behind it are read as the extended register. -/
theorem source?_extend {e : Extend} (h : e.kind.isListed = true) (v : View) :
    ∃ src, source? (.register v :: modifierArgs e.reading) = some src ∧
      ∀ σ n, src.value σ n = e.apply n (σ.value v) := by
  rw [Extend.reading_eq h]
  split
  · rename_i hnothing
    refine ⟨.register v, rfl, fun σ n ↦ ?_⟩
    rcases hnothing with hnone | ⟨hlsl, hzero⟩
    · rw [Extend.apply, hnone]
      rfl
    · rw [Extend.apply, hlsl, hzero]
      exact (Modification.apply_lsl_zero n _).symm
  · rename_i hshown
    obtain ⟨m, hkeyword, hmodification⟩ := lookup_extendKeyword h fun hnone ↦ hshown (.inl hnone)
    refine ⟨.modified v m e.amount, ?_, fun σ n ↦ ?_⟩
    · -- An amount of zero is not shown, and an amount that is not shown is zero.
      by_cases hzero : e.amount = 0 <;> simp [modifierArgs, source?, hkeyword, hzero]
    · rw [Extend.apply, hmodification]
      rfl

end Meaning

/-- A trivial shift does nothing. -/
theorem Shift.apply_of_isTrivial {s : Shift} (h : s.isTrivial = true) (hs : s.hasIntegers = true)
    (σ : Machine) (v : View) (n : Nat) : s.apply n (σ.value v) = σ.operand v n := by
  obtain ⟨kind, count⟩ := s
  obtain ⟨amount, rfl⟩ := Json.isInt_iff.1 hs
  simp only [isTrivial, Bool.or_eq_true, Bool.and_eq_true, decide_eq_true_eq, Json.whole?_int,
    Option.some.injEq] at h
  rcases h with rfl | ⟨rfl, rfl⟩
  · rfl
  · exact Modification.apply_lsl_zero n _

/-! ### One family after the other -/

/-- A layout means what an effect is, if its mnemonic does with its arguments. -/
theorem Layout.effectOf?_eq {m : String} {parts : List Part} {l : Layout} {verb : Verb}
    {σ : Machine} {e? : Option Effect} (hl : (.ok ⟨m, parts⟩ : Except LayoutFault Layout) = .ok l)
    (hverb : Verb.mnemonics.lookup m = some verb)
    (heffect : verb.effect? σ (parts.flatMap Part.args) = e?) :
    effectOf? l.mnemonic (l.parts.flatMap Part.args) σ = e? := by
  obtain rfl := Except.ok.inj hl
  rw [effectOf?, hverb, Option.bind_some, heffect]

namespace Instruction.HasForm

variable {i : Instruction} {l : Layout} {σ : Machine} {rd rn rm ra : Register}

-- What a verb does and what an opcode does are compared in every proof of this section.
attribute [local simp] Verb.effect? Form.effect?

theorem effect_logicalImmediate {op : LogicalImmediateOp} {imm : Immediate}
    (hF : i.HasForm (.logicalImmediate op rd rn imm)) (hbits : rn.view.bits = rd.view.bits)
    (hl : Layout.logicalImmediate i = .ok l) :
    effectOf? l.mnemonic (l.parts.flatMap Part.args) σ =
      Form.effect? i.setsFlags σ (.logicalImmediate op rd rn imm) := by
  have hop := hF.opcode
  have hos := hF.operands
  cases op <;> simp only [Form.opcode, Form.operands] at hop hos <;>
    simp only [Layout.logicalImmediate, hop, hos] at hl
  case and =>
    cases hflags : i.setsFlags with
    | false =>
      simp only [hflags, Bool.not_false, if_true] at hl
      exact Layout.effectOf?_eq hl rfl (by simp)
    | true =>
      simp only [hflags, Bool.not_true, Bool.false_eq_true, if_false] at hl
      split at hl
      · rename_i hzero
        have hcompare := Effect.ofResult_of_zero rd.view (Register.number_of_isZero hzero)
        have hsame := congrArg (fun n ↦ Effect.compare
          (logical (σ.operand rn.view n &&& BitVec.ofNat n imm.value)).flags) hbits
        refine Layout.effectOf?_eq hl rfl ?_
        simpa [hcompare] using hsame
      · exact Layout.effectOf?_eq hl rfl (by simp)
  case orr =>
    split at hl
    · rename_i hzero
      have hoperand : ∀ n, σ.operand rn.view n = 0#n :=
        Machine.operand_of_zero (Register.number_of_isZero hzero)
      exact Layout.effectOf?_eq hl rfl (by simp [hoperand])
    · exact Layout.effectOf?_eq hl rfl (by simp)
  case eor => exact Layout.effectOf?_eq hl rfl (by simp)

theorem effect_logicalShifted {op : LogicalShiftedOp} {s : Shift}
    (hF : i.HasForm (.logicalShifted op rd rn rm s)) (hlisted : s.kind.isListed = true)
    (hs : s.hasIntegers = true) (hbits : rn.view.bits = rd.view.bits)
    (hl : Layout.logicalShiftedRegister i = .ok l) :
    effectOf? l.mnemonic (l.parts.flatMap Part.args) σ =
      Form.effect? i.setsFlags σ (.logicalShifted op rd rn rm s) := by
  obtain ⟨src, hsrc, hvalue⟩ := source?_shift hlisted rm.view
  have hop := hF.opcode
  have hos := hF.operands
  cases op <;> simp only [Form.opcode, Form.operands] at hop hos <;>
    simp only [Layout.logicalShiftedRegister, hop, hos] at hl
  case and =>
    split at hl
    · rename_i hzero
      have hcompare := Effect.ofResult_of_zero rd.view (Register.number_of_isZero hzero.2)
      have hsame := congrArg (fun n ↦ Effect.compare
        (logical (σ.operand rn.view n &&& s.apply n (σ.value rm.view))).flags) hbits
      refine Layout.effectOf?_eq hl rfl ?_
      simpa [hsrc, hvalue, hzero.1, hcompare] using hsame
    · exact Layout.effectOf?_eq hl (Layout.lookup_flagSuffix ⟨rfl, rfl⟩ _)
        (by simp [hsrc, hvalue])
  case bic =>
    exact Layout.effectOf?_eq hl (Layout.lookup_flagSuffix ⟨rfl, rfl⟩ _)
      (by simp [hsrc, hvalue])
  case orr =>
    split at hl
    · rename_i hzero
      have hoperand : ∀ n, σ.operand rn.view n = 0#n :=
        Machine.operand_of_zero (Register.number_of_isZero hzero.1)
      exact Layout.effectOf?_eq hl rfl
        (by simp [hoperand, Shift.apply_of_isTrivial hzero.2 hs])
    · exact Layout.effectOf?_eq hl rfl (by simp [hsrc, hvalue])
  case orn =>
    split at hl
    · rename_i hzero
      have hoperand : ∀ n, σ.operand rn.view n = 0#n :=
        Machine.operand_of_zero (Register.number_of_isZero hzero)
      exact Layout.effectOf?_eq hl rfl
        (by simp [hsrc, hvalue, hoperand])
    · exact Layout.effectOf?_eq hl rfl (by simp [hsrc, hvalue])
  case eor => exact Layout.effectOf?_eq hl rfl (by simp [hsrc, hvalue])
  case eon => exact Layout.effectOf?_eq hl rfl (by simp [hsrc, hvalue])

theorem effect_addSubtractShifted {op : AddSubOp} {s : Shift}
    (hF : i.HasForm (.addSubtractShifted op rd rn rm s)) (hlisted : s.kind.isListed = true)
    (hbits : rn.view.bits = rd.view.bits) (hl : Layout.addSubtractShiftedRegister i = .ok l) :
    effectOf? l.mnemonic (l.parts.flatMap Part.args) σ =
      Form.effect? i.setsFlags σ (.addSubtractShifted op rd rn rm s) := by
  obtain ⟨src, hsrc, hvalue⟩ := source?_shift hlisted rm.view
  have hop := hF.opcode
  have hos := hF.operands
  have hsub := fun x y ↦ sum_not_true rd.view.bits_pos x y
  cases op <;> simp only [Form.opcode, Form.operands] at hop hos <;>
    simp only [Layout.addSubtractShiftedRegister, hop, hos] at hl
  case add =>
    split at hl
    · rename_i hzero
      have hcompare := Effect.ofResult_of_zero rd.view (Register.number_of_isZero hzero.2)
      have hsame := congrArg (fun n ↦ Effect.compare
        (sum (σ.operand rn.view n) (s.apply n (σ.value rm.view)) false).flags) hbits
      refine Layout.effectOf?_eq hl rfl ?_
      simpa [hsrc, hvalue, hzero.1, hcompare] using hsame
    · exact Layout.effectOf?_eq hl (Layout.lookup_flagSuffix ⟨rfl, rfl⟩ _)
        (by simp [hsrc, hvalue])
  case sub =>
    split at hl
    · rename_i hzero
      have hcompare := Effect.ofResult_of_zero rd.view (Register.number_of_isZero hzero.2)
      have hsame := congrArg (fun n ↦ Effect.compare
        (difference (σ.operand rn.view n) (s.apply n (σ.value rm.view))).flags) hbits
      refine Layout.effectOf?_eq hl rfl ?_
      simpa [hsrc, hvalue, hzero.1, hcompare, hsub] using hsame
    · split at hl
      · rename_i hzero
        have hoperand : ∀ n, σ.operand rn.view n = 0#n :=
          Machine.operand_of_zero (Register.number_of_isZero hzero)
        exact Layout.effectOf?_eq hl (Layout.lookup_flagSuffix ⟨rfl, rfl⟩ _)
          (by simp [hsrc, hvalue, hoperand, hsub])
      · exact Layout.effectOf?_eq hl (Layout.lookup_flagSuffix ⟨rfl, rfl⟩ _)
          (by simp [hsrc, hvalue, hsub])

theorem effect_addSubtractExtended {op : AddSubOp} {e : Extend}
    (hF : i.HasForm (.addSubtractExtended op rd rn rm e)) (hlisted : e.kind.isListed = true)
    (hbits : rn.view.bits = rd.view.bits) (hl : Layout.addSubtractExtendedRegister i = .ok l) :
    effectOf? l.mnemonic (l.parts.flatMap Part.args) σ =
      Form.effect? i.setsFlags σ (.addSubtractExtended op rd rn rm e) := by
  obtain ⟨src, hsrc, hvalue⟩ := source?_extend hlisted rm.view
  have hop := hF.opcode
  have hos := hF.operands
  have hsub := fun x y ↦ sum_not_true rd.view.bits_pos x y
  simp only [Form.opcode, Form.operands] at hop hos
  simp only [Layout.addSubtractExtendedRegister, hop, hos] at hl
  split at hl
  · rename_i hzero
    have hcompare := Effect.ofResult_of_zero rd.view (Register.number_of_isZero hzero.2)
    cases op with
    | add =>
      have hsame := congrArg (fun n ↦ Effect.compare
        (sum (σ.operand rn.view n) (e.apply n (σ.value rm.view)) false).flags) hbits
      refine Layout.effectOf?_eq hl rfl ?_
      simpa [hsrc, hvalue, hzero.1, hcompare] using hsame
    | sub =>
      have hsame := congrArg (fun n ↦ Effect.compare
        (difference (σ.operand rn.view n) (e.apply n (σ.value rm.view))).flags) hbits
      refine Layout.effectOf?_eq hl rfl ?_
      simpa [hsrc, hvalue, hzero.1, hcompare, hsub] using hsame
  · cases op with
    | add =>
      exact Layout.effectOf?_eq hl (Layout.lookup_flagSuffix ⟨rfl, rfl⟩ _)
        (by simp [hsrc, hvalue])
    | sub =>
      exact Layout.effectOf?_eq hl (Layout.lookup_flagSuffix ⟨rfl, rfl⟩ _)
        (by simp [hsrc, hvalue, hsub])

theorem effect_addSubtractCarry {op : CarryOp} (hF : i.HasForm (.addSubtractCarry op rd rn rm))
    (hl : Layout.addSubtractWithCarry i = .ok l) :
    effectOf? l.mnemonic (l.parts.flatMap Part.args) σ =
      Form.effect? i.setsFlags σ (.addSubtractCarry op rd rn rm) := by
  have hop := hF.opcode
  have hos := hF.operands
  have hsub := fun x y ↦ sum_not rd.view.bits_pos x y σ.carry
  cases op <;> simp only [Form.opcode, Form.operands] at hop hos <;>
    simp only [Layout.addSubtractWithCarry, hop, hos] at hl
  case adc =>
    exact Layout.effectOf?_eq hl (Layout.lookup_flagSuffix ⟨rfl, rfl⟩ _)
      (by simp)
  case sbc =>
    split at hl
    · rename_i hzero
      have hoperand : ∀ n, σ.operand rn.view n = 0#n :=
        Machine.operand_of_zero (Register.number_of_isZero hzero)
      exact Layout.effectOf?_eq hl (Layout.lookup_flagSuffix ⟨rfl, rfl⟩ _)
        (by simp [hoperand, hsub])
    · exact Layout.effectOf?_eq hl (Layout.lookup_flagSuffix ⟨rfl, rfl⟩ _)
        (by simp [hsub])

theorem effect_extract {lsb : Immediate} (hF : i.HasForm (.extract rd rn rm lsb))
    (hlsb : lsb.hasIntegers = true) (hviews : rn.number = rm.number → rn.view = rm.view)
    (hlt : lsb.value < rd.view.bits) (hl : Layout.extract i = .ok l) :
    effectOf? l.mnemonic (l.parts.flatMap Part.args) σ =
      Form.effect? i.setsFlags σ (.extract rd rn rm lsb) := by
  have hop := hF.opcode
  have hos := hF.operands
  simp only [Form.opcode, Form.operands] at hop hos
  simp only [Layout.extract, hop, hos, Immediate.given_eq_value hlsb] at hl
  split at hl
  · rename_i hsame
    exact Layout.effectOf?_eq hl rfl
      (by simp [hviews hsame, extracted_self hlt])
  · exact Layout.effectOf?_eq hl rfl (by simp)

theorem effect_threeSource {op : ThreeSourceOp} (hF : i.HasForm (.threeSource op rd rn rm ra))
    (hl : Layout.dataProcessingThreeSource i = .ok l) :
    effectOf? l.mnemonic (l.parts.flatMap Part.args) σ =
      Form.effect? i.setsFlags σ (.threeSource op rd rn rm ra) := by
  have hop := hF.opcode
  have hos := hF.operands
  simp only [Form.opcode, Form.operands] at hop hos
  simp only [Layout.dataProcessingThreeSource, hop, hos] at hl
  cases hproduct : op.product? with
  | none =>
    simp only [hproduct] at hl
    cases op
    case smulh => exact Layout.effectOf?_eq hl rfl (by simp)
    case umulh => exact Layout.effectOf?_eq hl rfl (by simp)
    all_goals cases hproduct
  | some product =>
    simp only [hproduct] at hl
    split at hl
    · rename_i hzero
      have hinteger : ∀ signed, σ.integer signed ra.view = 0 :=
        Machine.integer_of_zero (Register.number_of_isZero hzero)
      cases op <;> cases hproduct <;>
        exact Layout.effectOf?_eq hl rfl (by simp [hinteger])
    · cases op <;> cases hproduct <;>
        exact Layout.effectOf?_eq hl rfl (by simp [sub_eq_add_neg])

end Instruction.HasForm

/-! ### All families -/

/-- The families whose aliases stand for another instruction. -/
def Meaning.families : List Family :=
  [.logicalImmediate, .extract, .logicalShiftedRegister, .addSubtractShiftedRegister,
    .addSubtractExtendedRegister, .addSubtractWithCarry, .dataProcessingThreeSource]

/-- The widths that registers have beside one another. All are of one width, except that the last
register of an extended operand may be of either, and that a long multiplication takes factors of 32
bits to 64 bits. The lowest bit of an extraction lies inside a register. -/
def Form.HasUsualWidths : Form → Prop
  | logicalImmediate _ rd rn _ | addSubtractExtended _ rd rn .. => rn.size = rd.size
  | logicalShifted _ rd rn rm _ | addSubtractShifted _ rd rn rm _ | addSubtractCarry _ rd rn rm =>
    rn.size = rd.size ∧ rm.size = rd.size
  | extract rd rn rm lsb => rn.size = rd.size ∧ rm.size = rd.size ∧ lsb.value < rd.view.bits
  | threeSource op rd rn rm ra =>
    if op.isLong then
      rd.size = .int 64 ∧ rn.size = .int 32 ∧ rm.size = .int 32 ∧ ra.size = .int 64
    else rn.size = rd.size ∧ rm.size = rd.size ∧ ra.size = rd.size
  | bitfield .. | oneSource .. | conditionalSelect .. => True

/-- An instruction whose registers have the usual widths. -/
def Instruction.HasUsualWidths (i : Instruction) : Prop :=
  ∀ F, i.form? = some F → F.HasUsualWidths

theorem Register.bits_eq_of_size {r q : Register} (h : r.size = q.size) :
    r.view.bits = q.view.bits := by
  rw [view, view, h]
  rfl

variable {i : Instruction}

/-- A form of these families has an effect, and its layout means the same. -/
theorem Instruction.HasForm.exists_effect {F : Form} {l : Layout} (hF : i.HasForm F)
    (h : i.IsGeneral) (hwidths : F.HasUsualWidths) (hf : F.opcode.family ∈ Meaning.families)
    (hl : F.opcode.family.layout i = .ok l) (σ : Machine) :
    ∃ e, effectOf? l.mnemonic (l.parts.flatMap Part.args) σ = some e ∧
      Form.effect? i.setsFlags σ F = some e := by
  have hgeneral := h.operands
  have hintegers := fun o (ho : o ∈ i.operands) ↦ hasIntegers_of_mem h.integers ho
  rw [hF.operands] at hgeneral hintegers
  cases F with
  | logicalImmediate op rd rn imm =>
    exact ⟨_, hF.effect_logicalImmediate (Register.bits_eq_of_size hwidths) hl, rfl⟩
  | extract rd rn rm lsb =>
    obtain ⟨hrn, hrm, hlt⟩ := hwidths
    have hviews : rn.number = rm.number → rn.view = rm.view := by
      intro hnumber
      rw [Register.view, Register.view, hnumber, hrn, hrm]
    have hlsb : lsb.hasIntegers = true := hintegers (.immediate lsb) (by simp [Form.operands])
    exact ⟨_, hF.effect_extract hlsb hviews hlt hl, rfl⟩
  | logicalShifted op rd rn rm s =>
    have hlisted : s.kind.isListed = true := hgeneral (.shift s) (by simp [Form.operands])
    have hs : s.hasIntegers = true := hintegers (.shift s) (by simp [Form.operands])
    have hbits := Register.bits_eq_of_size hwidths.1
    exact ⟨_, hF.effect_logicalShifted hlisted hs hbits hl, rfl⟩
  | addSubtractShifted op rd rn rm s =>
    have hlisted : s.kind.isListed = true := hgeneral (.shift s) (by simp [Form.operands])
    have hbits := Register.bits_eq_of_size hwidths.1
    exact ⟨_, hF.effect_addSubtractShifted hlisted hbits hl, rfl⟩
  | addSubtractExtended op rd rn rm e =>
    have hlisted : e.kind.isListed = true := hgeneral (.extend e) (by simp [Form.operands])
    have hbits := Register.bits_eq_of_size hwidths
    exact ⟨_, hF.effect_addSubtractExtended hlisted hbits hl, rfl⟩
  | addSubtractCarry op rd rn rm => exact ⟨_, hF.effect_addSubtractCarry hl, rfl⟩
  | threeSource op rd rn rm ra => exact ⟨_, hF.effect_threeSource hl, rfl⟩
  | _ => exact absurd hf (by simp [Meaning.families, Form.opcode, Opcode.family])

/-- The printed line has an effect in every state, and it is the effect of the instruction: the same
value for the same register, and the same flags or none. -/
theorem Instruction.effect_of_text {f : Family} {s : String} (hf : f ∈ Meaning.families)
    (hfamily : i.operation.family? = some f) (h : i.IsGeneral) (hwidths : i.HasUsualWidths)
    (htext : i.text = .ok s) (σ : Machine) :
    ∃ line e, Line.read s = .ok line ∧ line.effect? σ = some e ∧ i.effect? σ = some e := by
  have hforms : f ∈ Form.families := by
    have hsubset : ∀ f ∈ Meaning.families, f ∈ Form.families := by decide
    exact hsubset f hf
  obtain ⟨F, l, line, hF, rfl, hl, hread, hmnemonic, hargs⟩ :=
    reads_args h hforms hfamily htext
  obtain ⟨e, hline, hform⟩ := hF.exists_effect h (hwidths F hF.form?_eq) hf hl σ
  refine ⟨line, e, hread, ?_, ?_⟩
  · rw [Line.effect?, hargs, Option.bind_some, hmnemonic, hline]
  · rw [effect?, hF.form?_eq, Option.bind_some, hform]

/-- A subtraction from the zero register that sets flags, with a shifted operand. -/
def shiftedNegation : Instruction where
  operation := .named (.addSubtractShiftedRegister .sub)
  operands := [.register ⟨5, .int 32⟩, .register ⟨31, .int 32⟩, .register ⟨6, .int 32⟩,
    .shift ⟨.lsr, .int 3⟩]
  setFlags := .bool true

/-- The negation prints without its zero register, and has the effect of the subtraction. -/
theorem Instruction.effect_of_text_negation :
    Family.addSubtractShiftedRegister ∈ Meaning.families ∧
      shiftedNegation.operation.family? = some .addSubtractShiftedRegister ∧
      shiftedNegation.IsGeneral ∧ shiftedNegation.HasUsualWidths ∧
      shiftedNegation.text = .ok "negs w5, w6, lsr #0x3" ∧
      ∃ line e, Line.read "negs w5, w6, lsr #0x3" = .ok line ∧
        line.effect? ⟨fun k ↦ BitVec.ofInt 64 (k - 40), false⟩ = some e ∧
        shiftedNegation.effect? ⟨fun k ↦ BitVec.ofInt 64 (k - 40), false⟩ = some e := by
  have hfamily : shiftedNegation.operation.family? = some .addSubtractShiftedRegister := by
    decide +kernel
  have hgeneral : shiftedNegation.IsGeneral := ⟨rfl, by decide⟩
  have hwidths : shiftedNegation.HasUsualWidths := by
    intro F hF
    obtain rfl := Option.some.inj hF
    exact ⟨rfl, rfl⟩
  have htext : shiftedNegation.text = .ok "negs w5, w6, lsr #0x3" := by decide +kernel
  exact ⟨by decide, hfamily, hgeneral, hwidths, htext,
    effect_of_text (by decide) hfamily hgeneral hwidths htext _⟩

end A64Text
