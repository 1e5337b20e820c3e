import A64Text.Exchange.Decode
import A64Text.Json.Printer

/-!
# Instructions to JSON

The written form of an instruction names everything that has a listed name and leaves out nothing.
Members are in ascending order of their keys, also inside what is written as it was given. An
operation or register number without a name stays a number; a modifier or system register by an
unlisted name, a bare operand, and a condition code outside four bits have no written form.
-/

namespace A64Text.Exchange

/-- Why an instruction has no written form. -/
inductive EncodeFault where
  /-- The condition code is none of the sixteen. -/
  | condition (code : Int)
  /-- A kind or name is outside its list. -/
  | unlisted
  /-- The operation is a real number that has no integral part. -/
  | noIntegralPart (x : Binary64)
  /-- The operand is bare, or the operation is neither an opcode nor a number. -/
  | formless
  deriving DecidableEq, Repr

/-- The wording of a fault. -/
def EncodeFault.message : EncodeFault → String
  | condition code => Numeral.decimal code ++ " is not a valid ConditionCode"
  | noIntegralPart x => Number.noIntegralPart x
  | unlisted => "a name outside its list has no written form"
  | formless => "this has no written form"

/-- A listed name in its written form. -/
def writtenName (name : String) : Json := .str (Text.lowerAscii name)

/-! ### Operands -/

/-- The written form of a register. -/
def ofRegister (r : Register) : Json :=
  .obj [
    ("name", match Register.nameOf? r.number with
      | some name => writtenName name
      | none => .int r.number),
    ("size", r.size.sorted),
    ("type", .str "reg")]

/-- The written form of an immediate. -/
def ofImmediate (imm : Immediate) : Json :=
  .obj [("size", .ofNumber imm.width), ("type", .str "imm"), ("value", .ofNumber imm.given)]

/-- The written form of a shift. -/
def ofShift (s : Shift) : Except EncodeFault Json :=
  if s.kind.isListed then
    .ok (.obj [("count", s.count.sorted), ("shift", writtenName s.kind.keyword),
      ("type", .str "shift")])
  else .error .unlisted

/-- The written form of an extend. -/
def ofExtend (e : Extend) : Except EncodeFault Json :=
  if e.kind.isListed then
    .ok (.obj [("count", e.count.sorted), ("extend", writtenName e.kind.keyword),
      ("type", .str "extend")])
  else .error .unlisted

/-- The written form of a system register. -/
def ofSystemRegister (r : SystemRegister) : Except EncodeFault Json :=
  if r.name.isListed then
    .ok (.obj [("crm", r.crm.sorted), ("crn", r.crn.sorted),
      ("name", writtenName r.name.spelling), ("op0", r.op0.sorted), ("op1", r.op1.sorted),
      ("op2", r.op2.sorted), ("type", .str "sysreg")])
  else .error .unlisted

/-- The written form of an address with an immediate offset. -/
def ofImmediateOffset (a : ImmediateOffset) : Except EncodeFault Json :=
  (ofShift a.shift).map fun shift ↦
    .obj [("base", ofRegister a.base), ("offset", ofImmediate a.offset),
      ("post_index", a.postIndex.sorted), ("shift", shift), ("size", a.size.sorted),
      ("type", .str "imm_offset"), ("writeback", a.writeback.sorted)]

/-- The written form of an address with a register offset. -/
def ofRegisterOffset (a : RegisterOffset) : Except EncodeFault Json :=
  (ofExtend a.extend).map fun extend ↦
    .obj [("base", ofRegister a.base), ("extend", extend), ("offset", ofRegister a.offset),
      ("post_index", a.postIndex.sorted), ("size", a.size.sorted), ("type", .str "reg_offset"),
      ("writeback", a.writeback.sorted)]

/-- The written form of an operand. -/
def ofOperand : Operand → Except EncodeFault Json
  | .register r => .ok (ofRegister r)
  | .immediate imm => .ok (ofImmediate imm)
  | .systemRegister r => ofSystemRegister r
  | .shift s => ofShift s
  | .extend e => ofExtend e
  | .immediateOffset a => ofImmediateOffset a
  | .registerOffset a => ofRegisterOffset a
  | .bare => .error .formless

/-- The written forms of operands, from left to right. -/
def ofOperandList : List Operand → Except EncodeFault (List Json)
  | [] => .ok []
  | o :: rest => do
    let v ← ofOperand o
    let vs ← ofOperandList rest
    return v :: vs

/-! ### Instructions -/

/-- The written form of an operation: the name of its opcode, or else the integral part of its
number. -/
def ofOperation (o : Operation) : Except EncodeFault Json :=
  match o.opcode?, o.number? with
  | some op, _ => .ok (writtenName op.name)
  | none, some (.real x) =>
    match x.truncated? with
    | some n => .ok (.int n)
    | none => .error (.noIntegralPart x)
  | none, some n => .ok (.int (n.integer?.getD 0))
  | none, none => .error .formless

/-- The written form of a condition code. -/
def ofCondition (code : Int) : Except EncodeFault Json :=
  match Condition.ofCode? code with
  | some c => .ok (writtenName c.name)
  | none => .error (.condition code)

/-- The written form of an instruction. -/
def ofInstruction (i : Instruction) : Except EncodeFault Json := do
  let opcode ← ofOperation i.operation
  let operands ← ofOperandList i.operands
  let cc ← ofCondition i.condition
  return .obj [("cc", cc), ("opcode", opcode), ("operands", .arr operands),
    ("set_flags", i.setFlags.sorted)]

/-- The written forms of instructions, from left to right. -/
def ofInstructionList : List Instruction → Except EncodeFault (List Json)
  | [] => .ok []
  | i :: rest => do
    let v ← ofInstruction i
    let vs ← ofInstructionList rest
    return v :: vs

/-! ### Documents -/

/-- The written form of a document. -/
def ofDocument : Document → Except EncodeFault Json
  | .single i => ofInstruction i
  | .listing is => (ofInstructionList is).map .arr

/-- The text of a document. -/
def write (style : Json.Style) (d : Document) : Except EncodeFault String :=
  (ofDocument d).map (Json.write style)

end A64Text.Exchange
