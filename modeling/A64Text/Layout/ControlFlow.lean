import A64Text.Layout.Field

/-!
# Branches and exceptions

Layouts of the families that change the flow of control. A branch target prints as the signed offset
that the instruction carries; resolving it to an address is left to the reader.
-/

namespace A64Text

/-! ### Branches to an offset -/

open Operand.Kind in
/-- A branch under a condition; the condition is part of the mnemonic. -/
def Layout.conditionalBranch (i : Instruction) : Except LayoutFault Layout :=
  match i.operands with
  | [.immediate offset] =>
    match i.opcode? with
    | some .conditionalBranch => .ok ⟨"b." ++ i.conditionOf.text, [.signed offset]⟩
    | _ => .error (i.unhandledFault Family.conditionalBranch.name)
  | _ => .error (i.shapeFault [immediate])

open Operand.Kind in
/-- An unconditional branch. -/
def Layout.branchImmediate (i : Instruction) : Except LayoutFault Layout :=
  match i.operands with
  | [.immediate offset] =>
    match i.opcode? with
    | some (.branchImmediate .bl) => .ok ⟨"bl", [.signed offset]⟩
    | some (.branchImmediate .b) => .ok ⟨"b", [.signed offset]⟩
    | _ => .error (i.unhandledFault Family.branchImmediate.name)
  | _ => .error (i.shapeFault [immediate])

open Operand.Kind in
/-- A branch on a register that is zero or is not. -/
def Layout.compareAndBranch (i : Instruction) : Except LayoutFault Layout :=
  match i.operands with
  | [.register rt, .immediate offset] =>
    match i.opcode? with
    | some (.compareAndBranch .cbz) => .ok ⟨"cbz", [rt, .signed offset]⟩
    | some (.compareAndBranch .cbnz) => .ok ⟨"cbnz", [rt, .signed offset]⟩
    | _ => .error (i.unhandledFault Family.compareAndBranch.name)
  | _ => .error (i.shapeFault [register, immediate])

open Operand.Kind in
/-- A branch on one bit of a register. -/
def Layout.testAndBranch (i : Instruction) : Except LayoutFault Layout :=
  match i.operands with
  | [.register rt, .immediate bit, .immediate offset] =>
    match i.opcode? with
    | some (.testAndBranch .tbz) => .ok ⟨"tbz", [rt, .decimal bit.given, .signed offset]⟩
    | some (.testAndBranch .tbnz) => .ok ⟨"tbnz", [rt, .decimal bit.given, .signed offset]⟩
    | _ => .error (i.unhandledFault Family.testAndBranch.name)
  | _ => .error (i.shapeFault [register, immediate, immediate])

/-! ### Exceptions -/

/-- The mnemonic of an exception is its listed name in lower-case. -/
def ExceptionOp.mnemonic (op : ExceptionOp) : String := Text.lowerAscii op.name

/-- Whether an exception shows its number. -/
def ExceptionOp.showsNumber : ExceptionOp → Bool
  | .svc | .hvc | .smc | .brk | .hlt => true
  | .dcps1 | .dcps2 | .dcps3 => false

open Operand.Kind in
/-- An operation that raises an exception. -/
def Layout.exceptionGeneration (i : Instruction) : Except LayoutFault Layout :=
  match i.operands with
  | [.immediate imm] =>
    match i.opcode? with
    | some (.exceptionGeneration op) =>
      .ok ⟨op.mnemonic, if op.showsNumber then [.decimal imm.given] else []⟩
    | _ => .error (i.notListedFault Family.exceptionGeneration.name)
  | _ => .error (i.shapeFault [immediate])

/-! ### Branches to a register -/

/-- How a branch to a register shows its operands. -/
inductive BranchRegisterForm where
  /-- The target. -/
  | target
  /-- The target, which is left out if it is the link register. -/
  | return
  /-- The target and a second operand that authenticates it. -/
  | authenticated
  /-- No operands; whatever is handed over is ignored. -/
  | exceptionReturn
  deriving DecidableEq, Repr

/-- The mnemonic of a branch to a register is its listed name in lower-case. -/
def BranchRegisterOp.mnemonic (op : BranchRegisterOp) : String := Text.lowerAscii op.name

/-- The form of a branch to a register. -/
def BranchRegisterOp.form : BranchRegisterOp → BranchRegisterForm
  | .br | .braaz | .brabz | .blr | .blraaz | .blrabz => .target
  | .ret | .retaa | .retab => .return
  | .braa | .brab | .blraa | .blrab => .authenticated
  | .eret | .eretaa | .eretab | .drps => .exceptionReturn

/-- The first operand, which must be a register. -/
def Layout.firstRegister (i : Instruction) : Except LayoutFault Register :=
  match i.operands with
  | .register r :: _ => .ok r
  | o :: _ => .error (i.misfitFault .register 0 o)
  | [] => .error (i.absentFault .register 0)

/-- A branch to the address in a register. Returns from an exception are recognised first; for every
other opcode the first operand is checked, then the opcode, then the number of operands. -/
def Layout.branchRegister (i : Instruction) : Except LayoutFault Layout :=
  match i.opcode? with
  | some (.branchRegister op) =>
    match op.form with
    | .exceptionReturn => .ok ⟨op.mnemonic, []⟩
    | .target =>
      match firstRegister i, i.operands with
      | .ok rn, [_] => .ok ⟨op.mnemonic, [rn]⟩
      | .ok _, _ => .error (i.arityFault 1)
      | .error fault, _ => .error fault
    | .return =>
      match firstRegister i, i.operands with
      | .ok rn, [_] => .ok ⟨op.mnemonic, if rn.number = Register.linkNumber then [] else [rn]⟩
      | .ok _, _ => .error (i.arityFault 1)
      | .error fault, _ => .error fault
    | .authenticated =>
      match firstRegister i, i.operands with
      | .ok rn, [_, modifier] => .ok ⟨op.mnemonic, [rn, modifier]⟩
      | .ok _, _ => .error (i.arityFault 2)
      | .error fault, _ => .error fault
  -- A foreign opcode is reported only behind a first operand that is a register, unless it cannot
  -- even be looked up.
  | _ =>
    if i.operation.isKey then
      match firstRegister i with
      | .ok _ => .error (i.unhandledFault Family.branchRegister.name)
      | .error fault => .error fault
    else .error .noKey

end A64Text
