import A64Text.Layout.Basic

/-!
# Data processing with immediates

Layouts of the families whose last source is an immediate. Each function first matches the operand
kinds and then the family's operation, so a breach of shape is reported before a foreign opcode. The
preferred alias is chosen by the architecture's alias conditions: on the zero register, the stack
pointer, equal registers and the values of bitfield bounds.
-/

namespace A64Text.Layout

/-- The size of a page in bytes. -/
def pageSize : Nat := 4096

/-- Why an immediate is no page offset: bits are taken from its value, and its width is real and not
large enough for the page offset to fill the word. -/
def pageFault? (imm : Immediate) : Option PrintFault :=
  if imm.given.integer?.isSome &&
      (imm.width.integer?.isSome || (Number.int 64).less (imm.width.add (.int 12))) then none
  else some .notANumber

open Operand.Kind in
/-- An address relative to the program counter. The page form counts in pages, so its offset has
twelve more bits than its field, up to 64. -/
def pcRelativeAddressing (i : Instruction) : Except LayoutFault Layout :=
  match i.operands with
  | [.register rd, .immediate imm, .shift _] =>
    match i.opcode? with
    | some (.pcRelativeAddressing .adr) => .ok ⟨"adr", [rd, .signed imm]⟩
    | some (.pcRelativeAddressing .adrp) =>
      match pageFault? imm with
      | some fault => .error (.operand fault)
      | none =>
        let page := Immediate.truncate (imm.value * pageSize) (min (imm.size + 12) 64) (by omega)
        .ok ⟨"adrp", [rd, .signed page]⟩
    | _ => .error (i.unhandledFault Family.pcRelativeAddressing.name)
  | _ => .error (i.shapeFault [register, immediate, shift])

/-! ### Arithmetic and logic -/

/-- The ending of a mnemonic that sets flags. -/
def flagSuffix (setsFlags : Bool) : String := if setsFlags then "s" else ""

open Operand.Kind in
/-- Addition or subtraction of an immediate. Adding zero from or to the stack pointer is a move, and
a result for the zero register is a comparison. -/
def addSubtractImmediate (i : Instruction) : Except LayoutFault Layout :=
  match i.operands with
  | [.register rd, .register rn, .immediate imm, .shift s] =>
    match i.opcode? with
    | some (.addSubtractImmediate op) =>
      -- A move from the stack pointer may set flags as far as the alias is concerned.
      if imm.given.isZero ∧ ((¬ i.setsFlags ∧ rd.isStack) ∨ rn.isStack) then .ok ⟨"mov", [rd, rn]⟩
      else if rd.isZero then
        .ok ⟨match op with | .sub => "cmp" | .add => "cmn", [rn, imm, s]⟩
      else
        .ok ⟨(match op with | .sub => "sub" | .add => "add") ++ flagSuffix i.setsFlags,
          [rd, rn, imm, s]⟩
    | _ => .error (i.unhandledFault Family.addSubtractImmediate.name)
  | _ => .error (i.shapeFault [register, register, immediate, shift])

open Operand.Kind in
/-- A logical operation with an immediate. -/
def logicalImmediate (i : Instruction) : Except LayoutFault Layout :=
  match i.operands with
  | [.register rd, .register rn, .immediate imm] =>
    match i.opcode? with
    | some (.logicalImmediate .and) =>
      if !i.setsFlags then .ok ⟨"and", [rd, rn, imm]⟩
      else if rd.isZero then .ok ⟨"tst", [rn, imm]⟩
      else .ok ⟨"ands", [rd, rn, imm]⟩
    | some (.logicalImmediate .orr) =>
      if rn.isZero then .ok ⟨"mov", [rd, imm]⟩ else .ok ⟨"orr", [rd, rn, imm]⟩
    | some (.logicalImmediate .eor) => .ok ⟨"eor", [rd, rn, imm]⟩
    | _ => .error (i.unhandledFault Family.logicalImmediate.name)
  | _ => .error (i.shapeFault [register, register, immediate])

/-! ### Wide moves -/

/-- A value shifted left inside a word of `bits` bits. -/
def shiftedWord (bits value count : Nat) : Nat :=
  -- A count past the word leaves nothing, and is never used as an exponent.
  if count < bits then value * fieldSpan count % fieldSpan bits else 0

theorem registerBits_bounds (size : Number) : 0 < registerBits size ∧ registerBits size ≤ 64 := by
  unfold registerBits
  split <;> decide

/-- The value of a wide immediate behind its shift, inside a word of `bits` bits. The value is
shifted as a whole before the word is taken from it, so all of it must find room. -/
def shiftedImmediate (bits : Nat) (imm : Immediate) (s : Shift) : Except LayoutFault Nat :=
  match imm.given.integer?, s.count.toInt? with
  | some _, some count =>
    if count < 0 then .error .negativeShift
    else if Room.holdsShift imm.value count.toNat then
      .ok (shiftedWord bits imm.value count.toNat)
    else .error .room
  | _, _ => .error (.operand .notANumber)

open Operand.Kind in
/-- A move of a wide immediate. The zeroing and the inverting form print the value that the register
receives; the keeping form prints the immediate with its shift. The width of the register is needed
for all of them, so it is looked at before the opcode. -/
def moveWideImmediate (i : Instruction) : Except LayoutFault Layout :=
  match i.operands with
  | [.register rd, .immediate imm, .shift s] =>
    match rd.size.toNumber? with
    | none => .error (.operand .notANumber)
    | some size =>
      let bits := registerBits size
      let mov (value : Nat) : Layout :=
        ⟨"mov", [rd, Immediate.truncate value bits (registerBits_bounds size)]⟩
      match i.opcode? with
      | some (.moveWideImmediate .movk) =>
        if imm.given.integer?.isSome then .ok ⟨"movk", [rd, imm.lowBits bits, s]⟩
        else .error (.operand .notANumber)
      | some (.moveWideImmediate .movz) => (shiftedImmediate bits imm s).map mov
      | some (.moveWideImmediate .movn) =>
        (shiftedImmediate bits imm s).map fun value ↦ mov (fieldSpan bits - 1 - value)
      | _ => .error (i.unhandledFault Family.moveWideImmediate.name)
  | _ => .error (i.shapeFault [register, immediate, shift])

/-! ### Bitfields -/

/-- The last bit of a field that ends where a narrower type does, with the ending of the mnemonic
that extends from that type. -/
def extensionSuffix? : Int → Option String
  | 7 => some "b"
  | 15 => some "h"
  | 31 => some "w"
  | _ => none

/-- The ending of the mnemonic of a field that starts at the lowest bit and ends where a narrower
type does. -/
def extension? (immr imms : Number) : Option String :=
  if immr.isZero then imms.whole?.bind extensionSuffix? else none

/-- The parts that show where a field is inserted and how wide it is. -/
def insertedField (bits : Nat) (immr imms : Number) : List Part :=
  [.decimal ((Number.int bits).sub immr), .decimal (imms.add (.int 1))]

/-- The parts that show where a field is taken from and how wide it is. -/
def extractedField (immr imms : Number) : List Part :=
  [.decimal immr, .decimal ((imms.sub immr).add (.int 1))]

open Operand.Kind in
/-- A bitfield move. Bounds in ascending order extract a field and bounds in descending order insert
one; a field that reaches the top of the register is a shift, and a field that ends where a
narrower type does is an extension. The width of the register is looked at before the opcode. -/
def bitfield (i : Instruction) : Except LayoutFault Layout :=
  match i.operands with
  | [.register rd, .register rn, .immediate rotation, .immediate top] =>
    match rd.size.toNumber? with
    | none => .error (.operand .notANumber)
    | some size =>
      let bits := registerBits size
      let immr := rotation.given
      let imms := top.given
      let fullWidth := imms.equals (.int (bits - 1))
      match i.opcode? with
      | some (.bitfield .bfm) =>
        -- A field of the zero register is a cleared field.
        if imms.less immr then
          if rn.isZero then .ok ⟨"bfc", rd :: insertedField bits immr imms⟩
          else .ok ⟨"bfi", rd :: rn :: insertedField bits immr imms⟩
        else .ok ⟨"bfxil", rd :: rn :: extractedField immr imms⟩
      | some (.bitfield .sbfm) =>
        if fullWidth then .ok ⟨"asr", [rd, rn, .decimal immr]⟩
        else if imms.less immr then .ok ⟨"sbfiz", rd :: rn :: insertedField bits immr imms⟩
        else
          match extension? immr imms with
          | some suffix => .ok ⟨"sxt" ++ suffix, [rd, rn]⟩
          | none => .ok ⟨"sbfx", rd :: rn :: extractedField immr imms⟩
      | some (.bitfield .ubfm) =>
        -- A left shift is an insertion that ends at the top, so it is recognised before `ubfiz`.
        if !fullWidth && (imms.add (.int 1)).equals immr then
          .ok ⟨"lsl", [rd, rn, .decimal ((Number.int bits).sub immr)]⟩
        else if fullWidth then .ok ⟨"lsr", [rd, rn, .decimal immr]⟩
        else if imms.less immr then .ok ⟨"ubfiz", rd :: rn :: insertedField bits immr imms⟩
        else
          match extension? immr imms with
          | some suffix => .ok ⟨"uxt" ++ suffix, [rd, rn]⟩
          | none => .ok ⟨"ubfx", rd :: rn :: extractedField immr imms⟩
      | _ => .error (i.unhandledFault Family.bitfield.name)
  | _ => .error (i.shapeFault [register, register, immediate, immediate])

open Operand.Kind in
/-- An extraction from a pair of registers; from one register twice it is a rotation. -/
def extract (i : Instruction) : Except LayoutFault Layout :=
  match i.operands with
  | [.register rd, .register rn, .register rm, .immediate imm] =>
    match i.opcode? with
    | some .extract =>
      if rn.number = rm.number then .ok ⟨"ror", [rd, rn, .decimal imm.given]⟩
      else .ok ⟨"extr", [rd, rn, rm, .decimal imm.given]⟩
    | _ => .error (i.unhandledFault Family.extract.name)
  | _ => .error (i.shapeFault [register, register, register, immediate])

end A64Text.Layout
