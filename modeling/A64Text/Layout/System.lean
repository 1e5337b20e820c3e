import A64Text.Layout.Field

/-!
# System instructions

Layouts of hints, barriers and accesses to system registers. Here the opcode is looked at first: the
hints ignore whatever operands they are given, and the moves to and from system registers show them
all unchecked.
-/

namespace A64Text

/-- How a system instruction shows its operands. -/
inductive SystemForm where
  /-- None of them. -/
  | hint
  /-- One operand of any kind. -/
  | numberedHint
  /-- A barrier option. -/
  | barrier
  /-- A barrier option that is left out when it is the full one. -/
  | instructionBarrier
  /-- Four fields and a register. -/
  | write
  /-- A register and four fields. -/
  | read
  /-- All operands. -/
  | move
  deriving DecidableEq, Repr

/-- The form of a system instruction. -/
def SystemOp.form : SystemOp → SystemForm
  | .hint => .numberedHint
  | .dsb | .dmb => .barrier
  | .isb => .instructionBarrier
  | .sys => .write
  | .sysl => .read
  | .msr | .mrs => .move
  | _ => .hint

/-- The mnemonic of a system instruction: its listed name in lower-case, except that the profiling
barrier is two words. -/
def SystemOp.mnemonic : SystemOp → String
  | .psbCsync => "psb csync"
  | op => Text.lowerAscii op.name

/-- The option of an instruction barrier that is left out. -/
def Layout.fullBarrierOption : Number := .int 15

/-- The four fields of a system instruction. -/
def Layout.systemFields (op1 crn crm op2 : Immediate) : List Part :=
  [.decimal op1.given, .field "C" (.ofNumber crn.given), .field "C" (.ofNumber crm.given),
    .decimal op2.given]

open Operand.Kind in
/-- A system instruction. The register of the writing form is left out if it is the zero
register. -/
def Layout.system (i : Instruction) : Except LayoutFault Layout :=
  match i.opcode? with
  | some (.system op) =>
    match op.form with
    | .hint => .ok ⟨op.mnemonic, []⟩
    | .numberedHint =>
      match i.operands with
      | [o] => .ok ⟨op.mnemonic, [o]⟩
      | _ => .error (i.arityFault 1)
    | .barrier =>
      match i.operands with
      | [.immediate option] => (Barrier.part option.given).map fun part ↦ ⟨op.mnemonic, [part]⟩
      | _ => .error (i.shapeFault [immediate])
    | .instructionBarrier =>
      match i.operands with
      | [.immediate option] =>
        .ok ⟨op.mnemonic,
          if option.given.equals fullBarrierOption then [] else [.decimal option.given]⟩
      | _ => .error (i.shapeFault [immediate])
    | .write =>
      match i.operands with
      | [.immediate op1, .immediate crn, .immediate crm, .immediate op2, .register rt] =>
        .ok ⟨op.mnemonic, systemFields op1 crn crm op2 ++ if rt.isZero then [] else [↑rt]⟩
      | _ => .error (i.shapeFault [immediate, immediate, immediate, immediate, register])
    | .read =>
      match i.operands with
      | [.register rt, .immediate op1, .immediate crn, .immediate crm, .immediate op2] =>
        .ok ⟨op.mnemonic, rt :: systemFields op1 crn crm op2⟩
      | _ => .error (i.shapeFault [register, immediate, immediate, immediate, immediate])
    | .move => .ok ⟨op.mnemonic, i.operands.map Part.operand⟩
  | _ => .error (i.notListedFault Family.system.name)

end A64Text
