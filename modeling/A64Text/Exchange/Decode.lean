import A64Text.Instruction
import A64Text.Json.Reader

/-!
# Instructions from JSON

An instruction is an object with an opcode and, where they are not left out, operands, the
flag-setting bit and a condition. An operand is an object whose `type` says which kind it is. Names
may be in any case; an opcode and a register may also be given by number. Members that the schema
does not know are ignored. Widths, amounts, encoding fields and flags are taken as they are: only
the two numbers of an immediate are looked at.

Decoding stops at the first fault, and the order is fixed: the opcode, the operands from left to
right, the condition. Within an address the base comes first, then the offset, then the modifier if
there is one, and an immediate's value is looked at before its width.
-/

namespace A64Text.Exchange

/-- Why a value is no instruction. -/
inductive DecodeFault where
  /-- A member that must be there is not. -/
  | missing (key : String)
  /-- A name is in no list; the group says in which one it was looked up. -/
  | unknownName (group : String) (name : Json)
  /-- The type of an operand is none of the schema's. -/
  | unknownType (type : Json)
  /-- Two numbers make no immediate. -/
  | immediate (fault : Immediate.Fault)
  /-- A register is given by a real number that has no integral part. -/
  | noIntegralPart (x : Binary64)
  /-- A value of this shape cannot stand here. -/
  | wrongShape
  /-- A name must stand here, and this is no text. -/
  | notAName
  /-- The text is not JSON. -/
  | notJson
  deriving DecidableEq, Repr

/-- The wording of a fault. -/
def DecodeFault.message : DecodeFault → String
  | missing key => Text.quoted key
  | unknownName group name => "Unknown " ++ group ++ " " ++ name.shown
  | unknownType type => "Unknown operand kind " ++ type.display
  | immediate fault => fault.message
  | noIntegralPart x => Number.noIntegralPart x
  | wrongShape => "a value of this shape cannot stand here"
  | notAName => "a name must stand here"
  | notJson => "the text is not JSON"

/-! ### Members -/

/-- The members of an object. -/
def members : Json → Except DecodeFault (List (String × Json))
  | .obj ms => .ok ms
  | _ => .error .wrongShape

/-- A member that must be there. -/
def required (key : String) (ms : List (String × Json)) : Except DecodeFault Json :=
  match Json.lookup key ms with
  | some v => .ok v
  | none => .error (.missing key)

/-- A member that is taken as it is, with a default. -/
def optional (key : String) (default : Json) (ms : List (String × Json)) : Json :=
  (Json.lookup key ms).getD default

/-- A number. -/
def number (v : Json) : Except DecodeFault Number :=
  match v.toNumber? with
  | some n => .ok n
  | none => .error .wrongShape

/-- A name looked up in a list. -/
def listed {α : Type} (group : String) (ofName? : String → Option α) :
    Json → Except DecodeFault α
  | .str s =>
    match ofName? s with
    | some a => .ok a
    | none => .error (.unknownName group (.str s))
  -- No listed name has a unit without its partner in it.
  | .unpaired ps => .error (.unknownName group (.unpaired ps))
  | _ => .error .notAName

/-! ### Operands -/

/-- A register number, by name or as a number, whose fraction is cut off. -/
def registerNumber (v : Json) : Except DecodeFault Int :=
  match v with
  | .str _ | .unpaired _ => (listed "RegisterName" Register.numberOf? v).map Int.ofNat
  | .real x =>
    match x.truncated? with
    | some n => .ok n
    | none => .error (.noIntegralPart x)
  | _ =>
    match v.toInt? with
    | some n => .ok n
    | none => .error .wrongShape

/-- A register. -/
def register (v : Json) : Except DecodeFault Register := do
  let ms ← members v
  let number ← registerNumber (← required "name" ms)
  return ⟨number, optional "size" (.int 64) ms⟩

/-- An immediate. -/
def immediate (v : Json) : Except DecodeFault Immediate := do
  let ms ← members v
  let value ← number (← required "value" ms)
  -- The value is checked on its own first, before the width is even read.
  let _ ← (Immediate.ofNumbers value (.int 64)).mapError DecodeFault.immediate
  let size ← number (optional "size" (.int 64) ms)
  (Immediate.ofNumbers value size).mapError DecodeFault.immediate

/-- A shift. -/
def shift (v : Json) : Except DecodeFault Shift := do
  let ms ← members v
  let kind ← listed "ShiftType" ShiftKind.ofName? (← required "shift" ms)
  return ⟨kind, optional "count" (.int 0) ms⟩

/-- An extend. -/
def extend (v : Json) : Except DecodeFault Extend := do
  let ms ← members v
  let kind ← listed "ExtendType" ExtendKind.ofName? (← required "extend" ms)
  return ⟨kind, optional "count" (.int 0) ms⟩

/-- A system register. -/
def systemRegister (v : Json) : Except DecodeFault SystemRegister := do
  let ms ← members v
  let name ← listed "SystemRegisterName" SystemRegisterName.ofName? (← required "name" ms)
  let field (key : String) : Json := optional key (.int 0) ms
  return ⟨name, field "op0", field "op1", field "crn", field "crm", field "op2"⟩

/-- An address with an immediate offset. -/
def immediateOffset (v : Json) : Except DecodeFault ImmediateOffset := do
  let ms ← members v
  let base ← register (← required "base" ms)
  let offset ← immediate (← required "offset" ms)
  let modifier ←
    match Json.lookup "shift" ms with
    | some s => shift s
    | none => .ok {}
  return ⟨base, offset, modifier, optional "writeback" (.bool false) ms,
    optional "post_index" (.bool false) ms, optional "size" (.int 64) ms⟩

/-- An address with a register offset. -/
def registerOffset (v : Json) : Except DecodeFault RegisterOffset := do
  let ms ← members v
  let base ← register (← required "base" ms)
  let offset ← register (← required "offset" ms)
  let modifier ←
    match Json.lookup "extend" ms with
    | some e => extend e
    | none => .ok {}
  return ⟨base, offset, modifier, optional "writeback" (.bool false) ms,
    optional "post_index" (.bool false) ms, optional "size" (.int 64) ms⟩

/-- An operand of a type. -/
def operandOfType (type v : Json) : Except DecodeFault Operand :=
  match type with
  | .str "reg" => (register v).map .register
  | .str "imm" => (immediate v).map .immediate
  | .str "sysreg" => (systemRegister v).map .systemRegister
  | .str "shift" => (shift v).map .shift
  | .str "extend" => (extend v).map .extend
  | .str "imm_offset" => (immediateOffset v).map .immediateOffset
  | .str "reg_offset" => (registerOffset v).map .registerOffset
  | other => .error (.unknownType other)

/-- An operand. -/
def operand (v : Json) : Except DecodeFault Operand := do
  let type ← required "type" (← members v)
  operandOfType type v

/-- Operands, from left to right. -/
def operandList : List Json → Except DecodeFault (List Operand)
  | [] => .ok []
  | v :: rest => do
    let o ← operand v
    let os ← operandList rest
    return o :: os

/-- The operands of an instruction. An empty text or object holds no operands, as an empty list
does. -/
def operands : Json → Except DecodeFault (List Operand)
  | .arr items => operandList items
  | .str s => if s = "" then .ok [] else .error .wrongShape
  | .obj ms => if ms.isEmpty then .ok [] else .error .wrongShape
  | _ => .error .wrongShape

/-! ### Instructions -/

/-- An operation: a name is looked up, a number is taken as it is, and anything else is kept to be
shown in messages. -/
def operation (v : Json) : Except DecodeFault Operation :=
  match v with
  | .str _ | .unpaired _ => (listed "Opcode" Opcode.ofName? v).map .named
  | _ =>
    match v.toNumber? with
    | some n => .ok (.numbered n)
    | none => .ok (.unnumbered v)

/-- A condition code. -/
def condition (v : Json) : Except DecodeFault Int :=
  (listed "ConditionCode" Condition.ofName? v).map fun c ↦ (c.code : Int)

/-- An instruction. -/
def instruction (v : Json) : Except DecodeFault Instruction := do
  let ms ← members v
  let op ← operation (← required "opcode" ms)
  let os ←
    match Json.lookup "operands" ms with
    | some os => operands os
    | none => .ok []
  let cc ← condition ((Json.lookup "cc" ms).getD (.str "al"))
  return ⟨op, os, optional "set_flags" (.bool false) ms, cc⟩

/-- Instructions, from left to right. -/
def instructionList : List Json → Except DecodeFault (List Instruction)
  | [] => .ok []
  | v :: rest => do
    let i ← instruction v
    let is ← instructionList rest
    return i :: is

/-! ### Documents -/

/-- What a text holds: one instruction or a list of them. -/
inductive Document where
  | single (i : Instruction)
  | listing (is : List Instruction)
  deriving DecidableEq, Repr

/-- The instructions of a document. -/
def Document.instructions : Document → List Instruction
  | single i => [i]
  | listing is => is

/-- A document from a value. -/
def document : Json → Except DecodeFault Document
  | .arr items => (instructionList items).map .listing
  | v => (instruction v).map .single

/-- A document from a text. -/
def read (text : String) : Except DecodeFault Document :=
  match Json.read text with
  | some v => document v
  | none => .error .notJson

end A64Text.Exchange
