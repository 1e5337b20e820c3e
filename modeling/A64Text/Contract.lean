import A64Text.Instruction

/-!
# The contract with the decoder

The operands of an instruction must have the number and the kinds that its opcode calls for. A
decoder that keeps this contract never sees the faults of this module; one that breaks it is told
which instruction, which position and which kind. The number of operands is checked before their
kinds, and kinds are checked from the left.
-/

namespace A64Text

/-- Why an instruction cannot be laid out. -/
inductive LayoutFault where
  /-- The number of operands is wrong. -/
  | arity (name : String) (given : Nat) (expected : Json)
  /-- There is no operand at a position. -/
  | absent (name : String) (given : Nat) (expected : Operand.Kind) (index : Number)
  /-- The operand at a position is of another kind. -/
  | misfit (name : String) (given : Nat) (expected : Operand.Kind) (index : Number)
      (actual : Operand.Kind)
  /-- The second operand of a load or store is no address. -/
  | noAddress (name : String) (actual : Operand.Kind)
  /-- The opcode is none of the family's. -/
  | unhandled (name : String) (family : String)
  /-- A wide immediate is shifted by a negative amount. -/
  | negativeShift
  /-- A number that the line is computed from finds no room. -/
  | room
  /-- The operation has no number, so it belongs to no family and is not outside all of them. -/
  | noNumber
  /-- The operation is an array or object, which no table of opcodes can be asked for. -/
  | noKey
  /-- An operand does not print, or lacks a number that the line is computed from. -/
  | operand (fault : PrintFault)
  /-- A table or operand list has no entry at an index. -/
  | noEntry (index : Int)
  deriving DecidableEq, Repr

namespace LayoutFault

/-- Whether a fault is a breach of the contract with the decoder. -/
def isBreach : LayoutFault → Bool
  | arity .. | absent .. | misfit .. | noAddress .. | unhandled .. => true
  | _ => false

/-- The instruction and its operand count, as messages start. -/
def subject (name : String) (given : Nat) : String :=
  name ++ " with " ++ Numeral.decimal given ++ " operand(s): expected "

/-- The wording of a fault. An index that no machine word holds gets a wording of its own. -/
def message : LayoutFault → String
  | arity name given expected =>
    subject name given ++ expected.display ++ " operand(s)"
  | absent name given expected index =>
    subject name given ++ expected.name ++ " at operand " ++ index.display
  | misfit name given expected index actual =>
    subject name given ++ expected.name ++ " at operand " ++ index.display ++ ", got " ++
      actual.name
  | noAddress name actual =>
    name ++ ": expected ImmediateOffset or RegisterOffset at operand 1, got " ++ actual.name
  | unhandled name family => name ++ " is not handled by the " ++ family ++ " renderer"
  | negativeShift => "negative shift count"
  | room => "too many digits in integer"
  | noNumber => "the operation has no number"
  | noKey => "the operation cannot be looked up"
  | operand fault => fault.message
  | noEntry index =>
    if -0x8000000000000000 ≤ index ∧ index < 0x8000000000000000 then "tuple index out of range"
    else "cannot fit 'int' into an index-sized integer"

end LayoutFault

/-- The entry of a list at an index, where negative indices count from the end. -/
def entryAt? {α : Type} (xs : List α) (index : Int) : Option α :=
  if 0 ≤ index then xs[index.toNat]?
  else if 0 ≤ index + xs.length then xs[(index + xs.length).toNat]?
  else none

namespace Instruction

/-! ### Faults of an instruction -/

/-- The fault of an instruction with the wrong number of operands. -/
def arityFault (i : Instruction) (expected : Nat) : LayoutFault :=
  .arity i.name i.operands.length (.int expected)

/-- The fault of an instruction without an operand at a position. -/
def absentFault (i : Instruction) (expected : Operand.Kind) (index : Nat) : LayoutFault :=
  .absent i.name i.operands.length expected (.int index)

/-- The fault of an instruction with operand `o` at a position that calls for another kind. -/
def misfitFault (i : Instruction) (expected : Operand.Kind) (index : Nat) (o : Operand) :
    LayoutFault :=
  .misfit i.name i.operands.length expected (.int index) o.kind

/-- The fault of an instruction whose opcode is none of the family's. -/
def unhandledFault (i : Instruction) (family : String) : LayoutFault :=
  .unhandled i.name family

/-- The fault of an instruction whose opcode is not in the table of the family's opcodes. -/
def notListedFault (i : Instruction) (family : String) : LayoutFault :=
  if i.operation.isKey then i.unhandledFault family else .noKey

/-- The first position at which operands are not of the kinds called for. -/
def firstMisfit? : List Operand.Kind → List Operand → Option (Nat × Operand.Kind × Operand)
  | k :: ks, o :: os =>
    if o.isKind k then (firstMisfit? ks os).map fun m ↦ (m.1 + 1, m.2) else some (0, k, o)
  | _, _ => none

/-- The fault of an instruction whose operands are not of the kinds called for. -/
def shapeFault (i : Instruction) (kinds : List Operand.Kind) : LayoutFault :=
  if i.operands.length = kinds.length then
    match firstMisfit? kinds i.operands with
    | some (index, k, o) => i.misfitFault k index o
    -- Operands that fit have no fault, and nobody asks for it.
    | none => i.arityFault kinds.length
  else i.arityFault kinds.length

/-! ### Checked access -/

/-- The operand at an index, if it is of the kind called for. An index past the end is a breach of
contract; one before the beginning is no index at all. -/
def operandAt (i : Instruction) (index : Number) (kind : Operand.Kind) :
    Except LayoutFault Operand :=
  if (Number.int i.operands.length).atMost index then
    .error (.absent i.name i.operands.length kind index)
  else
    match index.integer? with
    | none => .error (.operand .notANumber)
    | some n =>
      match entryAt? i.operands n with
      | none => .error (.noEntry n)
      | some o =>
        if o.isKind kind then .ok o
        else .error (.misfit i.name i.operands.length kind index o.kind)

/-- Whether operands have the kinds called for, one by one. -/
def fits : List Operand.Kind → List Operand → Bool
  | [], [] => true
  | k :: ks, o :: os => o.isKind k && fits ks os
  | _, _ => false

/-- The operands, if they have exactly the kinds called for. -/
def unpack (i : Instruction) (kinds : List Operand.Kind) : Except LayoutFault (List Operand) :=
  if fits kinds i.operands then .ok i.operands else .error (i.shapeFault kinds)

/-- Checks the number of operands against a count, as it was given. -/
def requireArity (i : Instruction) (count : Json) : Except LayoutFault Unit :=
  if count.whole? = some (i.operands.length : Int) then .ok ()
  else .error (.arity i.name i.operands.length count)

end Instruction

end A64Text
