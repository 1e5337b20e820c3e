import A64Text.Proofs.Line.Arguments

/-!
# The forms of data processing

An instruction of the ten families of data processing that have aliases has an opcode and operands
that belong together, and `Form` lists the ten ways in which they do. An instruction that is laid
out by one of these families has a form (`Instruction.exists_form`). If its registers and modifiers
are the architecture's, what it prints is read as the mnemonic and the arguments of its layout
(`Instruction.reads_args`).
-/

namespace A64Text

open Line Signature

/-- An opcode with the operands that it calls for. -/
inductive Form where
  | logicalImmediate (op : LogicalImmediateOp) (rd rn : Register) (imm : Immediate)
  | bitfield (op : BitfieldOp) (rd rn : Register) (immr imms : Immediate)
  | extract (rd rn rm : Register) (lsb : Immediate)
  | oneSource (op : OneSourceOp) (rd rn : Register)
  | logicalShifted (op : LogicalShiftedOp) (rd rn rm : Register) (s : Shift)
  | addSubtractShifted (op : AddSubOp) (rd rn rm : Register) (s : Shift)
  | addSubtractExtended (op : AddSubOp) (rd rn rm : Register) (e : Extend)
  | addSubtractCarry (op : CarryOp) (rd rn rm : Register)
  | conditionalSelect (op : ConditionalSelectOp) (rd rn rm : Register)
  | threeSource (op : ThreeSourceOp) (rd rn rm ra : Register)
  deriving DecidableEq, Repr

namespace Form

/-- The families that the forms belong to. -/
def families : List Family :=
  [.logicalImmediate, .bitfield, .extract, .dataProcessingOneSource, .logicalShiftedRegister,
    .addSubtractShiftedRegister, .addSubtractExtendedRegister, .addSubtractWithCarry,
    .conditionalSelect, .dataProcessingThreeSource]

/-- The opcode of a form. -/
@[simp] def opcode : Form → Opcode
  | logicalImmediate op .. => .logicalImmediate op
  | bitfield op .. => .bitfield op
  | extract .. => .extract
  | oneSource op .. => .dataProcessingOneSource op
  | logicalShifted op .. => .logicalShiftedRegister op
  | addSubtractShifted op .. => .addSubtractShiftedRegister op
  | addSubtractExtended op .. => .addSubtractExtendedRegister op
  | addSubtractCarry op .. => .addSubtractWithCarry op
  | conditionalSelect op .. => .conditionalSelect op
  | threeSource op .. => .dataProcessingThreeSource op

/-- The operands of a form. -/
@[simp] def operands : Form → List Operand
  | logicalImmediate _ rd rn imm => [.register rd, .register rn, .immediate imm]
  | bitfield _ rd rn immr imms => [.register rd, .register rn, .immediate immr, .immediate imms]
  | extract rd rn rm lsb => [.register rd, .register rn, .register rm, .immediate lsb]
  | oneSource _ rd rn => [.register rd, .register rn]
  | logicalShifted _ rd rn rm s | addSubtractShifted _ rd rn rm s =>
    [.register rd, .register rn, .register rm, .shift s]
  | addSubtractExtended _ rd rn rm e => [.register rd, .register rn, .register rm, .extend e]
  | addSubtractCarry _ rd rn rm | conditionalSelect _ rd rn rm =>
    [.register rd, .register rn, .register rm]
  | threeSource _ rd rn rm ra => [.register rd, .register rn, .register rm, .register ra]

end Form

/-! ### What a layout of a form shows -/

/-- The ending of a mnemonic that sets flags selects the entry of a table that sets them. -/
theorem Layout.lookup_flagSuffix {α : Type} {table : List (String × α)} {m : String}
    {entry : Bool → α}
    (h : table.lookup m = some (entry false) ∧ table.lookup (m ++ "s") = some (entry true))
    (setsFlags : Bool) : table.lookup (m ++ flagSuffix setsFlags) = some (entry setsFlags) := by
  cases setsFlags with
  | false =>
    rw [flagSuffix, if_neg Bool.false_ne_true, String.append_empty]
    exact h.1
  | true => exact h.2

/-- A field that an extension takes starts at the lowest bit and ends where the ending says. -/
theorem Layout.extension?_cases {immr imms : Int} {suffix : String}
    (h : extension? (.int immr) (.int imms) = some suffix) :
    immr = 0 ∧ (imms = 7 ∧ suffix = "b" ∨ imms = 15 ∧ suffix = "h" ∨ imms = 31 ∧ suffix = "w") := by
  rw [extension?, Number.isZero_int] at h
  split at h
  · rename_i hzero
    refine ⟨of_decide_eq_true hzero, ?_⟩
    simp only [Number.whole?_int, Option.bind_some] at h
    fun_cases extensionSuffix? imms <;> simp_all [extensionSuffix?]
  · cases h

theorem Register.number_of_isZero {r : Register} (h : r.isZero = true) :
    r.number = zeroNumber :=
  of_decide_eq_true h

section

variable {ps : List Part}

@[simp] theorem arranged_nil : Arranged [] := trivial

@[simp] theorem arranged_register {r : Register} :
    Arranged ((r : Part) :: ps) ↔ r.IsGeneral ∧ Arranged ps := by
  simp [Arranged, Part.IsArg, Part.attaches, Operand.isModifier]

@[simp] theorem arranged_immediate {imm : Immediate} :
    Arranged ((imm : Part) :: ps) ↔ Arranged ps := by
  simp [Arranged, Part.IsArg, Part.attaches, Operand.isModifier]

@[simp] theorem arranged_decimal {n : Number} : Arranged (.decimal n :: ps) ↔ Arranged ps := by
  simp [Arranged, Part.IsArg, Part.attaches]

@[simp] theorem arranged_shift {s : Shift} :
    Arranged [(s : Part)] ↔ s.kind.isListed = true := by
  simp [Arranged, Part.IsArg]

@[simp] theorem arranged_extend {e : Extend} :
    Arranged [(e : Part)] ↔ e.kind.isListed = true := by
  simp [Arranged, Part.IsArg]

/-- A condition is neither the name of a view nor a modifier. -/
@[simp] theorem arranged_condition (c : Condition) : Arranged [c.part] := by
  have hall : ∀ c ∈ Condition.all, View.ofName? (Text.lowerAscii c.text) = none ∧
      modifierKeywords.contains (Text.lowerAscii c.text) = false := by decide +kernel
  refine ⟨hall c ?_, fun _ ↦ rfl, trivial⟩
  cases c <;> decide

end

namespace Instruction

variable {i : Instruction}

/-- The form of an instruction. -/
def form? (i : Instruction) : Option Form :=
  match i.opcode?, i.operands with
  | some (.logicalImmediate op), [.register rd, .register rn, .immediate imm] =>
    some (.logicalImmediate op rd rn imm)
  | some (.bitfield op), [.register rd, .register rn, .immediate immr, .immediate imms] =>
    some (.bitfield op rd rn immr imms)
  | some .extract, [.register rd, .register rn, .register rm, .immediate lsb] =>
    some (.extract rd rn rm lsb)
  | some (.dataProcessingOneSource op), [.register rd, .register rn] =>
    some (.oneSource op rd rn)
  | some (.logicalShiftedRegister op), [.register rd, .register rn, .register rm, .shift s] =>
    some (.logicalShifted op rd rn rm s)
  | some (.addSubtractShiftedRegister op), [.register rd, .register rn, .register rm, .shift s] =>
    some (.addSubtractShifted op rd rn rm s)
  | some (.addSubtractExtendedRegister op), [.register rd, .register rn, .register rm, .extend e] =>
    some (.addSubtractExtended op rd rn rm e)
  | some (.addSubtractWithCarry op), [.register rd, .register rn, .register rm] =>
    some (.addSubtractCarry op rd rn rm)
  | some (.conditionalSelect op), [.register rd, .register rn, .register rm] =>
    some (.conditionalSelect op rd rn rm)
  | some (.dataProcessingThreeSource op),
      [.register rd, .register rn, .register rm, .register ra] =>
    some (.threeSource op rd rn rm ra)
  | _, _ => none

/-- The opcode and the operands of an instruction are those of a form. -/
structure HasForm (i : Instruction) (F : Form) : Prop where
  opcode : i.opcode? = some F.opcode
  operands : i.operands = F.operands

theorem HasForm.form?_eq {F : Form} (h : i.HasForm F) : i.form? = some F := by
  rw [form?, h.opcode, h.operands]
  cases F <;> rfl

/-- An opcode of the ten families with operands that it accepts makes a form. -/
theorem exists_form {op : Opcode} (hop : i.opcode? = some op)
    (hfamily : op.family ∈ Form.families) (haccepts : op.signature.accepts i.kinds = true) :
    ∃ F : Form, F.opcode = op ∧ i.HasForm F := by
  have hform : ∃ F : Form, F.opcode = op ∧ i.operands = F.operands := by
    cases op
    case logicalImmediate op =>
      obtain ⟨rd, _, heq, rn, _, rfl, imm, _, rfl, rfl⟩ :=
        starts_register (starts_register (starts_immediate ends)) haccepts
      exact ⟨.logicalImmediate op rd rn imm, rfl, heq⟩
    case bitfield op =>
      obtain ⟨rd, _, heq, rn, _, rfl, immr, _, rfl, imms, _, rfl, rfl⟩ :=
        starts_register (starts_register (starts_immediate (starts_immediate ends))) haccepts
      exact ⟨.bitfield op rd rn immr imms, rfl, heq⟩
    case extract =>
      obtain ⟨rd, _, heq, rn, _, rfl, rm, _, rfl, lsb, _, rfl, rfl⟩ :=
        starts_register (starts_register (starts_register (starts_immediate ends))) haccepts
      exact ⟨.extract rd rn rm lsb, rfl, heq⟩
    case dataProcessingOneSource op =>
      obtain ⟨rd, _, heq, rn, _, rfl, rfl⟩ := starts_register (starts_register ends) haccepts
      exact ⟨.oneSource op rd rn, rfl, heq⟩
    case logicalShiftedRegister op =>
      obtain ⟨rd, _, heq, rn, _, rfl, rm, _, rfl, s, _, rfl, rfl⟩ :=
        starts_register (starts_register (starts_register (starts_shift ends))) haccepts
      exact ⟨.logicalShifted op rd rn rm s, rfl, heq⟩
    case addSubtractShiftedRegister op =>
      obtain ⟨rd, _, heq, rn, _, rfl, rm, _, rfl, s, _, rfl, rfl⟩ :=
        starts_register (starts_register (starts_register (starts_shift ends))) haccepts
      exact ⟨.addSubtractShifted op rd rn rm s, rfl, heq⟩
    case addSubtractExtendedRegister op =>
      obtain ⟨rd, _, heq, rn, _, rfl, rm, _, rfl, e, _, rfl, rfl⟩ :=
        starts_register (starts_register (starts_register (starts_extend ends))) haccepts
      exact ⟨.addSubtractExtended op rd rn rm e, rfl, heq⟩
    case addSubtractWithCarry op =>
      obtain ⟨rd, _, heq, rn, _, rfl, rm, _, rfl, rfl⟩ :=
        starts_register (starts_register (starts_register ends)) haccepts
      exact ⟨.addSubtractCarry op rd rn rm, rfl, heq⟩
    case conditionalSelect op =>
      obtain ⟨rd, _, heq, rn, _, rfl, rm, _, rfl, rfl⟩ :=
        starts_register (starts_register (starts_register ends)) haccepts
      exact ⟨.conditionalSelect op rd rn rm, rfl, heq⟩
    case dataProcessingThreeSource op =>
      obtain ⟨rd, _, heq, rn, _, rfl, rm, _, rfl, ra, _, rfl, rfl⟩ :=
        starts_register (starts_register (starts_register (starts_register ends))) haccepts
      exact ⟨.threeSource op rd rn rm ra, rfl, heq⟩
    all_goals exact absurd hfamily (by simp [Form.families, Opcode.family])
  obtain ⟨F, rfl, hoperands⟩ := hform
  exact ⟨F, rfl, hop, hoperands⟩

/-- The layout of a form shows its registers and numbers, and its modifier last. -/
theorem HasForm.arranged {F : Form} {l : Layout} (hF : i.HasForm F) (h : i.IsGeneral)
    (hl : F.opcode.family.layout i = .ok l) : Arranged l.parts := by
  have hop := hF.opcode
  have hos := hF.operands
  have hgeneral := h.operands
  rw [hos] at hgeneral
  cases F <;>
    simp only [Form.operands, Form.opcode, List.forall_mem_cons, Operand.IsGeneral, true_and]
      at hgeneral hop hos hl
  case logicalImmediate op rd rn imm =>
    cases op <;>
      simp only [Opcode.family, Family.layout, Layout.logicalImmediate, hop, hos] at hl <;>
      (repeat' split at hl) <;> obtain rfl := Except.ok.inj hl <;> simp [hgeneral]
  case bitfield op rd rn immr imms =>
    have hsize : rd.size.toNumber?.isSome = true := by
      rcases hgeneral.1.2 with hsize | hsize <;> rw [hsize] <;> rfl
    obtain ⟨size, hsize⟩ := Option.isSome_iff_exists.1 hsize
    cases op <;>
      simp only [Opcode.family, Family.layout, Layout.bitfield, hop, hos, hsize] at hl <;>
      (repeat' split at hl) <;> obtain rfl := Except.ok.inj hl <;>
      simp [hgeneral, Layout.insertedField, Layout.extractedField]
  case extract rd rn rm lsb =>
    simp only [Opcode.family, Family.layout, Layout.extract, hop, hos] at hl
    split at hl <;> obtain rfl := Except.ok.inj hl <;> simp [hgeneral]
  case oneSource op rd rn =>
    simp only [Opcode.family, Family.layout, Layout.dataProcessingOneSource, hop, hos] at hl
    (repeat' split at hl) <;> obtain rfl := Except.ok.inj hl <;> simp [hgeneral]
  case logicalShifted op rd rn rm s =>
    cases op <;>
      simp only [Opcode.family, Family.layout, Layout.logicalShiftedRegister, hop, hos] at hl <;>
      (repeat' split at hl) <;> obtain rfl := Except.ok.inj hl <;> simp [hgeneral]
  case addSubtractShifted op rd rn rm s =>
    cases op <;>
      simp only [Opcode.family, Family.layout, Layout.addSubtractShiftedRegister, hop, hos]
        at hl <;>
      (repeat' split at hl) <;> obtain rfl := Except.ok.inj hl <;> simp [hgeneral]
  case addSubtractExtended op rd rn rm e =>
    simp only [Opcode.family, Family.layout, Layout.addSubtractExtendedRegister, hop, hos] at hl
    split at hl <;> obtain rfl := Except.ok.inj hl <;> simp [hgeneral]
  case addSubtractCarry op rd rn rm =>
    cases op <;>
      simp only [Opcode.family, Family.layout, Layout.addSubtractWithCarry, hop, hos] at hl <;>
      (repeat' split at hl) <;> obtain rfl := Except.ok.inj hl <;> simp [hgeneral]
  case conditionalSelect op rd rn rm =>
    simp only [Opcode.family, Family.layout, Layout.conditionalSelect, hop, hos] at hl
    (repeat' split at hl) <;> obtain rfl := Except.ok.inj hl <;> simp [hgeneral]
  case threeSource op rd rn rm ra =>
    simp only [Opcode.family, Family.layout, Layout.dataProcessingThreeSource, hop, hos] at hl
    (repeat' split at hl) <;> obtain rfl := Except.ok.inj hl <;> simp [hgeneral]

/-! ### What is printed -/

/-- The text of an instruction with a family is that of its layout. -/
theorem layout_of_text {f : Family} {s : String} (h : i.hasIntegers = true)
    (hfamily : i.operation.family? = some f) (htext : i.text = .ok s) :
    i.operation.isKey = true ∧ ∃ l, f.layout i = .ok l ∧ l.text = s := by
  obtain ⟨n, hnumber, -⟩ := Option.bind_eq_some_iff.1 hfamily
  have hkey := Operation.isKey_of_number? hnumber
  have htokens := tokens_of_number? hnumber
  rw [hfamily] at htokens
  dsimp only at htokens
  rw [f.tokens_eq h hkey] at htokens
  rw [text, htokens] at htext
  cases hlayout : f.layout i with
  | error fault =>
    rw [hlayout] at htext
    cases htext
  | ok l =>
    rw [hlayout] at htext
    exact ⟨hkey, l, rfl, Except.ok.inj htext⟩

/-- No operand of a form is a system register, and the first one is no modifier. -/
theorem HasForm.plain {F : Form} (hF : i.HasForm F) :
    i.hasNaturals = true ∧ i.operands.head?.any Operand.isModifier = false := by
  rw [hasNaturals, hF.operands]
  cases F <;> exact ⟨rfl, rfl⟩

/-- What an instruction of a form prints is read as the mnemonic and the arguments of its layout. -/
theorem reads_args {f : Family} {s : String} (h : i.IsGeneral) (hf : f ∈ Form.families)
    (hfamily : i.operation.family? = some f) (htext : i.text = .ok s) :
    ∃ F l line, i.HasForm F ∧ F.opcode.family = f ∧ f.layout i = .ok l ∧
      Line.read s = .ok line ∧ line.mnemonic = l.mnemonic ∧
      line.args? = some (l.parts.flatMap Part.args) := by
  obtain ⟨hkey, l, hl, rfl⟩ := layout_of_text h.integers hfamily htext
  have houtcome := f.outcome h.integers hkey
  rw [hl] at houtcome
  cases houtcome with
  | laidOut hop hopfamily haccepts hwide hderives =>
    obtain ⟨F, rfl, hF⟩ := exists_form hop (hopfamily ▸ hf) haccepts
    obtain ⟨hnaturals, hfirst⟩ := hF.plain
    have hread := Family.read_of_layout h.integers hnaturals hfirst hkey hl
    have hsystem : i.opcode? ≠ some (.system .psbCsync) := by
      rw [hop]
      cases F <;> simp [Form.opcode]
    rw [if_neg hsystem] at hread
    refine ⟨F, l, _, hF, hopfamily, hl, hread, rfl, ?_⟩
    exact (hF.arranged h (hopfamily ▸ hl)).mapM_arg?

end Instruction

end A64Text
