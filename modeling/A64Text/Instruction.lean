import A64Text.Condition
import A64Text.Opcode.Family
import A64Text.Operand.Basic

/-!
# Instructions

A decoded instruction: an operation, its operands, the flag-setting bit and a condition code. The
operation is an opcode or a bare number. A number behaves like the opcode whose number it is equal
to, but the instruction is then called by the number in messages. A decoder may also hand over
something that is no number at all; such an instruction can be held and named, and nothing else.
-/

namespace A64Text

/-- How an instruction gives its operation. -/
inductive Operation where
  | named (op : Opcode)
  | numbered (n : Number)
  /-- Neither an opcode nor a number. -/
  | unnumbered (v : Json)
  deriving DecidableEq, Repr

namespace Operation

/-- The number that an operation is given by, or that its opcode has. -/
def number? : Operation → Option Number
  | named op => some (.int op.number)
  | numbered n => some n
  | unnumbered _ => none

/-- The opcode of an operation. -/
def opcode? : Operation → Option Opcode
  | named op => some op
  | numbered n => n.whole?.bind Opcode.ofNumber?
  | unnumbered _ => none

/-- The family of an operation, by its number. -/
def family? (o : Operation) : Option Family := o.number?.bind Family.of?

/-- What an instruction with this operation is called. -/
def name : Operation → String
  | named op => op.name
  | numbered n => "opcode " ++ n.display
  | unnumbered v => "opcode " ++ v.display

/-- Whether two operations are the same one, however they are given. -/
def same : Operation → Operation → Bool
  | unnumbered v, unnumbered w => v.same w
  | a, b =>
    match a.number?, b.number? with
    | some m, some n => m.equals n
    | _, _ => false

/-- Whether an operation can be looked up in a table. -/
def isKey : Operation → Bool
  | unnumbered v => v.isKey
  | _ => true

end Operation

/-- A decoded instruction. -/
structure Instruction where
  operation : Operation
  operands : List Operand := []
  /-- The flag-setting bit, as it was given. -/
  setFlags : Json := .bool false
  /-- The condition code; fourteen is "always". -/
  condition : Int := 14
  deriving DecidableEq, Repr

namespace Instruction

/-- What the instruction is called in messages. -/
def name (i : Instruction) : String := i.operation.name

/-- The opcode of the instruction. -/
def opcode? (i : Instruction) : Option Opcode := i.operation.opcode?

/-- Whether the instruction sets flags. -/
def setsFlags (i : Instruction) : Bool := i.setFlags.isTruthy

/-- The condition that the instruction's code selects. -/
def conditionOf (i : Instruction) : Condition := .ofLowBits i.condition

/-- Whether two lists of operands are equal, one by one. -/
def sameOperands : List Operand → List Operand → Bool
  | [], [] => true
  | a :: as, b :: bs => a.same b && sameOperands as bs
  | _, _ => false

/-- Whether two instructions are equal; an opcode and its number are the same operation. -/
def same (i j : Instruction) : Bool :=
  i.operation.same j.operation && sameOperands i.operands j.operands &&
    i.setFlags.same j.setFlags && i.condition = j.condition

end Instruction

end A64Text
