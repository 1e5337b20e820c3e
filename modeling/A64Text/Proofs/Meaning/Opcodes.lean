import A64Text.Proofs.Meaning.Machine

/-!
# What opcodes do

The meaning of an instruction by its opcode and operands, as the architecture gives it and whatever
the instruction is called in text: sums of which one term may be complemented, logical operations,
extraction from a pair of registers, and products of integers. The result has the width of the
destination. Only some opcodes have a form that sets flags, and for the others the flag-setting bit
says nothing.
-/

namespace A64Text

open Meaning

/-! ### Operations -/

/-- The logical operation of an opcode. -/
@[simp] def LogicalShiftedOp.apply {n : Nat} (op : LogicalShiftedOp) (x y : BitVec n) : BitVec n :=
  match op with
  | .and => x &&& y
  | .bic => x &&& ~~~y
  | .orr => x ||| y
  | .orn => x ||| ~~~y
  | .eor => x ^^^ y
  | .eon => x ^^^ ~~~y

/-- Whether a logical operation has a form that sets flags. -/
@[simp] def LogicalShiftedOp.hasFlags : LogicalShiftedOp → Bool
  | .and | .bic => true
  | _ => false

/-- A logical operation with an immediate, among those with a register. -/
@[simp] def LogicalImmediateOp.logical : LogicalImmediateOp → LogicalShiftedOp
  | .and => .and
  | .orr => .orr
  | .eor => .eor

/-- The sum that an addition or subtraction is, with the carry that goes into it. -/
@[simp] def AddSubOp.apply {n : Nat} (op : AddSubOp) (x y : BitVec n) : Result n :=
  match op with
  | .add => sum x y false
  | .sub => sum x (~~~y) true

/-- The sum that an addition or subtraction with carry is. -/
@[simp] def CarryOp.apply {n : Nat} (op : CarryOp) (x y : BitVec n) (carry : Bool) : Result n :=
  match op with
  | .adc => sum x y carry
  | .sbc => sum x (~~~y) carry

/-- Whether a multiplication takes its factors as signed numbers. -/
@[simp] def ThreeSourceOp.isSigned : ThreeSourceOp → Bool
  | .smaddl | .smsubl | .smulh => true
  | _ => false

/-- Whether a multiplication has a result of twice the width of its factors. -/
def ThreeSourceOp.isLong : ThreeSourceOp → Bool
  | .smaddl | .smsubl | .umaddl | .umsubl => true
  | _ => false

/-- The integer that a multiplication computes; the high multiplications keep what a word of `bits`
bits has no room for. -/
@[simp] def ThreeSourceOp.apply (op : ThreeSourceOp) (bits : Nat) (n m a : Int) : Int :=
  match op with
  | .madd | .smaddl | .umaddl => a + n * m
  | .msub | .smsubl | .umsubl => a - n * m
  | .smulh | .umulh => n * m / 2 ^ bits

/-! ### Modifiers -/

/-- What a kind of shift does; the kind of no shift does nothing. -/
def ShiftKind.modification? : ShiftKind → Option Modification
  | lsl => some .lsl
  | lsr => some .lsr
  | asr => some .asr
  | ror => some .ror
  | _ => .none

/-- What a kind of extend does. -/
def ExtendKind.modification? : ExtendKind → Option Modification
  | uxtb => some (.extend false 8)
  | uxth => some (.extend false 16)
  | uxtw => some (.extend false 32)
  | uxtx => some (.extend false 64)
  | sxtb => some (.extend true 8)
  | sxth => some (.extend true 16)
  | sxtw => some (.extend true 32)
  | sxtx => some (.extend true 64)
  | lsl => some .lsl
  | _ => .none

/-- An operand with a modifier that may do nothing, in a word of `n` bits. -/
def modified (m? : Option Modification) (amount : Int) (n : Nat) (x : BitVec 64) : BitVec n :=
  match m? with
  | some m => m.apply amount n x
  | none => x.setWidth n

/-- A shifted operand. -/
def Shift.apply (s : Shift) : (n : Nat) → BitVec 64 → BitVec n :=
  modified s.kind.modification? s.amount

/-- An extended operand. -/
def Extend.apply (e : Extend) : (n : Nat) → BitVec 64 → BitVec n :=
  modified e.kind.modification? e.amount

/-! ### Forms -/

/-- The effect of a form in a state. -/
def Form.effect? (setsFlags : Bool) (σ : Machine) : Form → Option Effect
  | logicalImmediate op rd rn imm =>
    let n := rd.view.bits
    some (.ofResult rd.view
      (logical (op.logical.apply (σ.operand rn.view n) (BitVec.ofNat n imm.value)))
      (op.logical.hasFlags && setsFlags))
  | logicalShifted op rd rn rm s =>
    let n := rd.view.bits
    some (.ofResult rd.view
      (logical (op.apply (σ.operand rn.view n) (s.apply n (σ.value rm.view))))
      (op.hasFlags && setsFlags))
  | addSubtractShifted op rd rn rm s =>
    let n := rd.view.bits
    some (.ofResult rd.view
      (op.apply (σ.operand rn.view n) (s.apply n (σ.value rm.view))) setsFlags)
  | addSubtractExtended op rd rn rm e =>
    let n := rd.view.bits
    some (.ofResult rd.view
      (op.apply (σ.operand rn.view n) (e.apply n (σ.value rm.view))) setsFlags)
  | addSubtractCarry op rd rn rm =>
    let n := rd.view.bits
    some (.ofResult rd.view
      (op.apply (σ.operand rn.view n) (σ.operand rm.view n) σ.carry) setsFlags)
  | extract rd rn rm lsb =>
    let n := rd.view.bits
    some (.assign rd.view (extracted (σ.operand rn.view n) (σ.operand rm.view n) lsb.value) none)
  | threeSource op rd rn rm ra =>
    let integer := σ.integer op.isSigned
    some (.assign rd.view (BitVec.ofInt rd.view.bits
      (op.apply rd.view.bits (integer rn.view) (integer rm.view) (integer ra.view))) none)
  | bitfield .. | oneSource .. | conditionalSelect .. => none

/-- The effect of an instruction in a state, by its opcode and operands. -/
def Instruction.effect? (i : Instruction) (σ : Machine) : Option Effect :=
  i.form?.bind (Form.effect? i.setsFlags σ)

end A64Text
