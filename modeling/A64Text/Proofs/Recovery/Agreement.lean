import A64Text.Proofs.Recovery.Assembler

/-!
# Lines tell instructions apart

Two instructions of one family of data processing that print alike are the same but for what their
alias leaves out (`Instruction.agrees_of_text`): they have one opcode, one flag-setting bit if the
opcode has a form that sets flags, one condition if a condition selects, and operands that agree one
by one up to the losses of the form (`Form.losses`).

Both lines are one and are read alike, so the assembler of the family finds one residue in them, and
that is the residue of either instruction.
-/

namespace A64Text

open Line Recovery

/-- Codes whose conditions print alike are the same, or both mean "always". -/
theorem Condition.code_of_text {m n : Int}
    (h : Text.lowerAscii (ofLowBits m).text = Text.lowerAscii (ofLowBits n).text) :
    m % 16 = n % 16 ∨ 14 ≤ m % 16 ∧ 14 ≤ n % 16 := by
  have hall : ∀ j < 16, ∀ k < 16,
      Text.lowerAscii (all.getD j al).text = Text.lowerAscii (all.getD k al).text →
        j = k ∨ 14 ≤ j ∧ 14 ≤ k := by decide +kernel
  have hcodes := hall (m % 16).toNat (by omega) (n % 16).toNat (by omega) h
  omega

theorem Form.conditionArgs_of_opcode {F : Form} {op : ConditionalSelectOp}
    (h : F.opcode = .conditionalSelect op) (c : Condition) :
    F.conditionArgs c = [.named (Text.lowerAscii c.text) none] := by
  cases F with
  | conditionalSelect op rd rn rm => rfl
  | _ => cases h

namespace Instruction

/-- The losses of an instruction of one of the ten forms. -/
def losses (i : Instruction) : List Loss := (i.form?.map (Form.losses i.setsFlags)).getD []

/-- Two instructions that are the same but for the losses of the first. -/
structure Agrees (i j : Instruction) : Prop where
  opcode : i.opcode? = j.opcode?
  /-- The flag-setting bit is the same if it makes a difference. -/
  setsFlags : ∀ op, i.opcode? = some op → op.hasFlagForm = true → i.setsFlags = j.setsFlags
  /-- The condition that selects is the same; fourteen and fifteen both mean "always". -/
  condition : ∀ op, i.opcode? = some (.conditionalSelect op) →
    i.condition % 16 = j.condition % 16 ∨ 14 ≤ i.condition % 16 ∧ 14 ≤ j.condition % 16
  operands : Operand.Agree i.losses i.operands j.operands

variable {i j : Instruction}

theorem HasForm.losses_eq {F : Form} (h : i.HasForm F) : i.losses = F.losses i.setsFlags := by
  rw [losses, h.form?_eq]
  rfl

/-- The operands of a form are general if those of the instruction are. -/
theorem HasForm.isGeneral_operands {F : Form} (hF : i.HasForm F) (h : i.IsGeneral) :
    ∀ o ∈ F.operands, o.IsGeneral ∧ o.hasIntegers = true := by
  intro o ho
  rw [← hF.operands] at ho
  exact ⟨h.operands o ho, hasIntegers_of_mem h.integers ho⟩

/-- Instructions of equal residues agree. -/
theorem HasForm.agrees_of_residue_eq {F G : Form} (hF : i.HasForm F) (hG : j.HasForm G)
    (hi : i.IsGeneral) (hj : j.IsGeneral)
    (h : F.residue i.setsFlags i.conditionOf = G.residue j.setsFlags j.conditionOf) :
    i.Agrees j := by
  simp only [Form.residue, Residue.mk.injEq] at h
  obtain ⟨hopcode, hflags, hkept, hrest⟩ := h
  refine ⟨?_, fun op hop hflag ↦ ?_, fun op hop ↦ ?_, ?_⟩
  · rw [hF.opcode, hG.opcode, hopcode]
  · obtain rfl := Option.some.inj (hF.opcode.symm.trans hop)
    rw [← hopcode, if_pos hflag, if_pos hflag] at hflags
    exact Option.some.inj hflags
  · have hFop := Option.some.inj (hF.opcode.symm.trans hop)
    rw [Form.conditionArgs_of_opcode hFop, Form.conditionArgs_of_opcode (hopcode ▸ hFop)] at hrest
    simp only [List.cons.injEq, Arg.named.injEq, and_true] at hrest
    exact Condition.code_of_text hrest
  · rw [hF.losses_eq, hF.operands, hG.operands]
    exact Form.agree_of_kept_eq (hF.isGeneral_operands hi) (hG.isGeneral_operands hj) hkept

/-- Instructions of one family that print alike are the same but for what their alias leaves out. -/
theorem agrees_of_text {f : Family} {s : String} (hf : f ∈ Form.families)
    (hfi : i.operation.family? = some f) (hfj : j.operation.family? = some f)
    (hi : i.IsGeneral) (hj : j.IsGeneral) (hti : i.text = .ok s) (htj : j.text = .ok s) :
    i.Agrees j := by
  obtain ⟨F, l, line, hF, rfl, hl, hread, hmnemonic, hargs⟩ := reads_args hi hf hfi hti
  obtain ⟨G, l', line', hG, hfamily, hl', hread', hmnemonic', hargs'⟩ := reads_args hj hf hfj htj
  -- One line is read, so both layouts have its mnemonic and its arguments.
  obtain rfl := Except.ok.inj (hread.symm.trans hread')
  have hsame : l'.mnemonic = l.mnemonic := hmnemonic'.symm.trans hmnemonic
  have hsameArgs := Option.some.inj (hargs'.symm.trans hargs)
  have hresidue := hF.recover?_eq hi hl
  have hresidue' := hG.recover?_eq hj (hfamily ▸ hl')
  rw [hfamily, hsame, hsameArgs, hresidue] at hresidue'
  exact hF.agrees_of_residue_eq hG hi hj (Option.some.inj hresidue')

/-- An inclusion with the zero register, of no shift. -/
def unshiftedMove : Instruction where
  operation := .named (.logicalShiftedRegister .orr)
  operands := [.register ⟨1, .int 64⟩, .register ⟨31, .int 64⟩, .register ⟨2, .int 64⟩,
    .shift ⟨.none, .int 5⟩]

/-- An inclusion with the narrow zero register, of a shift by nothing. -/
def shiftedMove : Instruction where
  operation := .named (.logicalShiftedRegister .orr)
  operands := [.register ⟨1, .int 64⟩, .register ⟨31, .int 32⟩, .register ⟨2, .int 64⟩,
    .shift ⟨.lsl, .int 0⟩]
  setFlags := .bool true
  condition := 3

/-- Two moves that differ in all that a move leaves out print alike, and agree. -/
theorem agrees_of_text_moves :
    Family.logicalShiftedRegister ∈ Form.families ∧
      unshiftedMove.operation.family? = some .logicalShiftedRegister ∧
      shiftedMove.operation.family? = some .logicalShiftedRegister ∧
      unshiftedMove.IsGeneral ∧ shiftedMove.IsGeneral ∧
      unshiftedMove.text = .ok "mov x1, x2" ∧ shiftedMove.text = .ok "mov x1, x2" ∧
      unshiftedMove.Agrees shiftedMove := by
  have hfi : unshiftedMove.operation.family? = some .logicalShiftedRegister := by decide +kernel
  have hfj : shiftedMove.operation.family? = some .logicalShiftedRegister := by decide +kernel
  have hi : unshiftedMove.IsGeneral := ⟨rfl, by decide⟩
  have hj : shiftedMove.IsGeneral := ⟨rfl, by decide⟩
  have hti : unshiftedMove.text = .ok "mov x1, x2" := by decide +kernel
  have htj : shiftedMove.text = .ok "mov x1, x2" := by decide +kernel
  exact ⟨by decide, hfi, hfj, hi, hj, hti, htj, agrees_of_text (by decide) hfi hfj hi hj hti htj⟩

end Instruction

end A64Text
