import A64Text.Layout.Field
import A64Text.Layout.ImmediateForms

/-!
# Data processing with registers

Layouts of the families whose sources are registers. A source that is the zero register, a result
for the zero register, and two equal sources select the preferred alias. The two-source family and
the conditional comparisons check less than the others: the former only the number of operands, the
latter also the first operand.
-/

namespace A64Text

/-! ### Two sources and one source -/

/-- The mnemonic of a two-source operation is its listed name in lower-case. -/
def TwoSourceOp.mnemonic (op : TwoSourceOp) : String := Text.lowerAscii op.name

/-- An operation on two source registers. -/
def Layout.dataProcessingTwoSource (i : Instruction) : Except LayoutFault Layout :=
  if i.operands.length = 3 then
    match i.opcode? with
    | some (.dataProcessingTwoSource op) =>
      .ok ⟨op.mnemonic, i.operands.map Part.operand⟩
    | _ => .error (i.notListedFault Family.dataProcessingTwoSource.name)
  else .error (i.arityFault 3)

/-- How a one-source operation shows its operands. -/
inductive OneSourceForm where
  /-- Both registers. -/
  | unary
  /-- Both registers, or the destination alone under another mnemonic when the source is the zero
  register. -/
  | authenticated (zeroMnemonic : String)
  /-- The destination alone. -/
  | strip
  deriving DecidableEq, Repr

/-- The form of a one-source operation. -/
def OneSourceOp.form : OneSourceOp → OneSourceForm
  | .rbit | .rev16 | .rev32 | .rev | .clz | .cls => .unary
  | .pacia => .authenticated "paciza"
  | .pacib => .authenticated "pacizb"
  | .pacda => .authenticated "pacdza"
  | .pacdb => .authenticated "pacdzb"
  | .autia => .authenticated "autiza"
  | .autib => .authenticated "autizb"
  | .autda => .authenticated "autdza"
  | .autdb => .authenticated "autdzb"
  | .xpaci | .xpacd => .strip

/-- The mnemonic of a one-source operation is its listed name in lower-case. -/
def OneSourceOp.mnemonic (op : OneSourceOp) : String := Text.lowerAscii op.name

open Operand.Kind in
/-- An operation on one source register. -/
def Layout.dataProcessingOneSource (i : Instruction) : Except LayoutFault Layout :=
  match i.operands with
  | [.register rd, .register rn] =>
    match i.opcode? with
    | some (.dataProcessingOneSource op) =>
      match op.form with
      | .unary => .ok ⟨op.mnemonic, [rd, rn]⟩
      | .authenticated zeroMnemonic =>
        if rn.isZero then .ok ⟨zeroMnemonic, [rd]⟩ else .ok ⟨op.mnemonic, [rd, rn]⟩
      | .strip => .ok ⟨op.mnemonic, [rd]⟩
    | _ => .error (i.notListedFault Family.dataProcessingOneSource.name)
  | _ => .error (i.shapeFault [register, register])

/-! ### Shifted, extended and carried operands -/

open Operand.Kind in
/-- A logical operation with a shifted register. -/
def Layout.logicalShiftedRegister (i : Instruction) : Except LayoutFault Layout :=
  match i.operands with
  | [.register rd, .register rn, .register rm, .shift s] =>
    match i.opcode? with
    | some (.logicalShiftedRegister .and) =>
      if i.setsFlags ∧ rd.isZero then .ok ⟨"tst", [rn, rm, s]⟩
      else .ok ⟨"and" ++ flagSuffix i.setsFlags, [rd, rn, rm, s]⟩
    | some (.logicalShiftedRegister .bic) =>
      .ok ⟨"bic" ++ flagSuffix i.setsFlags, [rd, rn, rm, s]⟩
    | some (.logicalShiftedRegister .orr) =>
      if rn.isZero ∧ s.isTrivial then .ok ⟨"mov", [rd, rm]⟩ else .ok ⟨"orr", [rd, rn, rm, s]⟩
    | some (.logicalShiftedRegister .orn) =>
      if rn.isZero then .ok ⟨"mvn", [rd, rm, s]⟩ else .ok ⟨"orn", [rd, rn, rm, s]⟩
    | some (.logicalShiftedRegister .eor) => .ok ⟨"eor", [rd, rn, rm, s]⟩
    | some (.logicalShiftedRegister .eon) => .ok ⟨"eon", [rd, rn, rm, s]⟩
    | _ => .error (i.unhandledFault Family.logicalShiftedRegister.name)
  | _ => .error (i.shapeFault [register, register, register, shift])

open Operand.Kind in
/-- Addition or subtraction of a shifted register. -/
def Layout.addSubtractShiftedRegister (i : Instruction) : Except LayoutFault Layout :=
  match i.operands with
  | [.register rd, .register rn, .register rm, .shift s] =>
    match i.opcode? with
    | some (.addSubtractShiftedRegister .sub) =>
      if i.setsFlags ∧ rd.isZero then .ok ⟨"cmp", [rn, rm, s]⟩
      else if rn.isZero then .ok ⟨"neg" ++ flagSuffix i.setsFlags, [rd, rm, s]⟩
      else .ok ⟨"sub" ++ flagSuffix i.setsFlags, [rd, rn, rm, s]⟩
    | some (.addSubtractShiftedRegister .add) =>
      if i.setsFlags ∧ rd.isZero then .ok ⟨"cmn", [rn, rm, s]⟩
      else .ok ⟨"add" ++ flagSuffix i.setsFlags, [rd, rn, rm, s]⟩
    | _ => .error (i.unhandledFault Family.addSubtractShiftedRegister.name)
  | _ => .error (i.shapeFault [register, register, register, shift])

open Operand.Kind in
/-- Addition or subtraction of an extended register. -/
def Layout.addSubtractExtendedRegister (i : Instruction) : Except LayoutFault Layout :=
  match i.operands with
  | [.register rd, .register rn, .register rm, .extend e] =>
    match i.opcode? with
    | some (.addSubtractExtendedRegister op) =>
      if i.setsFlags ∧ rd.isZero then
        .ok ⟨match op with | .sub => "cmp" | .add => "cmn", [rn, rm, e]⟩
      else
        .ok ⟨(match op with | .sub => "sub" | .add => "add") ++ flagSuffix i.setsFlags,
          [rd, rn, rm, e]⟩
    | _ => .error (i.unhandledFault Family.addSubtractExtendedRegister.name)
  | _ => .error (i.shapeFault [register, register, register, extend])

open Operand.Kind in
/-- Addition or subtraction with carry. -/
def Layout.addSubtractWithCarry (i : Instruction) : Except LayoutFault Layout :=
  match i.operands with
  | [.register rd, .register rn, .register rm] =>
    match i.opcode? with
    | some (.addSubtractWithCarry .sbc) =>
      if rn.isZero then .ok ⟨"ngc" ++ flagSuffix i.setsFlags, [rd, rm]⟩
      else .ok ⟨"sbc" ++ flagSuffix i.setsFlags, [rd, rn, rm]⟩
    | some (.addSubtractWithCarry .adc) =>
      .ok ⟨"adc" ++ flagSuffix i.setsFlags, [rd, rn, rm]⟩
    | _ => .error (i.unhandledFault Family.addSubtractWithCarry.name)
  | _ => .error (i.shapeFault [register, register, register])

/-! ### Conditions -/

/-- A comparison under a condition; only the first operand must be a register. -/
def Layout.conditionalCompare (i : Instruction) : Except LayoutFault Layout :=
  match i.operands with
  | [.register rn, second, third] =>
    let parts : List Part := [rn, second, third, i.conditionOf.part]
    match i.opcode? with
    | some (.conditionalCompare .ccmn) => .ok ⟨"ccmn", parts⟩
    | some (.conditionalCompare .ccmp) => .ok ⟨"ccmp", parts⟩
    | _ => .error (i.unhandledFault Family.conditionalCompare.name)
  | [first, _, _] => .error (i.misfitFault .register 0 first)
  | _ => .error (i.arityFault 3)

/-- The mnemonic of a conditional selection is its listed name in lower-case. -/
def ConditionalSelectOp.mnemonic (op : ConditionalSelectOp) : String := Text.lowerAscii op.name

/-- The mnemonic of a conditional selection from one register twice. -/
def ConditionalSelectOp.sameSource? : ConditionalSelectOp → Option String
  | .csel => none
  | .csinc => some "cinc"
  | .csinv => some "cinv"
  | .csneg => some "cneg"

/-- The mnemonic of a conditional selection between the zero register and itself. -/
def ConditionalSelectOp.zeroSource? : ConditionalSelectOp → Option String
  | .csinc => some "cset"
  | .csinv => some "csetm"
  | .csel | .csneg => none

open Operand.Kind in
/-- A choice between two registers by a condition. The form for zero sources is preferred to the
form for equal ones. -/
def Layout.conditionalSelect (i : Instruction) : Except LayoutFault Layout :=
  match i.operands with
  | [.register rd, .register rn, .register rm] =>
    let cc := i.conditionOf.part
    match i.opcode? with
    | some (.conditionalSelect op) =>
      match (if rn.isZero ∧ rm.isZero then op.zeroSource? else none) with
      | some mnemonic => .ok ⟨mnemonic, [rd, cc]⟩
      | none =>
        match (if rn.number = rm.number then op.sameSource? else none) with
        | some mnemonic => .ok ⟨mnemonic, [rd, rn, cc]⟩
        | none => .ok ⟨op.mnemonic, [rd, rn, rm, cc]⟩
    | _ => .error (i.notListedFault Family.conditionalSelect.name)
  | _ => .error (i.shapeFault [register, register, register])

/-! ### Three sources -/

/-- The mnemonic of a multiplication is its listed name in lower-case. -/
def ThreeSourceOp.mnemonic (op : ThreeSourceOp) : String := Text.lowerAscii op.name

/-- The mnemonic of a multiplication whose accumulator is the zero register. -/
def ThreeSourceOp.product? : ThreeSourceOp → Option String
  | .madd => some "mul"
  | .msub => some "mneg"
  | .smaddl => some "smull"
  | .smsubl => some "smnegl"
  | .umaddl => some "umull"
  | .umsubl => some "umnegl"
  | .smulh | .umulh => none

open Operand.Kind in
/-- A multiplication. The two high multiplications have no accumulator and never show one. -/
def Layout.dataProcessingThreeSource (i : Instruction) : Except LayoutFault Layout :=
  match i.operands with
  | [.register rd, .register rn, .register rm, .register ra] =>
    match i.opcode? with
    | some (.dataProcessingThreeSource op) =>
      match op.product? with
      | none => .ok ⟨op.mnemonic, [rd, rn, rm]⟩
      | some product =>
        if ra.isZero then .ok ⟨product, [rd, rn, rm]⟩
        else .ok ⟨op.mnemonic, [rd, rn, rm, ra]⟩
    | _ => .error (i.notListedFault Family.dataProcessingThreeSource.name)
  | _ => .error (i.shapeFault [register, register, register, register])

end A64Text
