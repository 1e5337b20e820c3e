import A64Text.Operand.Address
import A64Text.Operand.SystemRegister

/-!
# Operands

The operands of an instruction: the seven kinds that have a written form, and the bare operand,
which carries nothing and prints as a placeholder.
-/

namespace A64Text

/-- An operand of an instruction. -/
inductive Operand where
  | register (r : Register)
  | immediate (imm : Immediate)
  | systemRegister (r : SystemRegister)
  | shift (s : Shift)
  | extend (e : Extend)
  | immediateOffset (a : ImmediateOffset)
  | registerOffset (a : RegisterOffset)
  | bare
  deriving DecidableEq, Repr

namespace Operand

/-! ### Kinds -/

/-- The kinds of operands. Every operand is of the common kind `operand`, and the bare operand is of
no other. -/
inductive Kind where
  | register
  | immediate
  | systemRegister
  | shift
  | extend
  | immediateOffset
  | registerOffset
  | operand
  deriving DecidableEq, Repr

namespace Kind

/-- All kinds. -/
def all : List Kind :=
  [register, immediate, systemRegister, shift, extend, immediateOffset, registerOffset, operand]

/-- The name of a kind in messages. -/
def name : Kind → String
  | register => "Register"
  | immediate => "Immediate"
  | systemRegister => "SystemRegister"
  | shift => "Shift"
  | extend => "Extend"
  | immediateOffset => "ImmediateOffset"
  | registerOffset => "RegisterOffset"
  | operand => "Operand"

/-- The kind with a name. -/
def ofName? (s : String) : Option Kind := all.find? fun k ↦ k.name = s

/-- Whether an operand of kind `actual` will do where `expected` is asked for. -/
def accepts (expected actual : Kind) : Bool := expected = operand || expected = actual

end Kind

/-- The most special kind of an operand. -/
def kind : Operand → Kind
  | register _ => .register
  | immediate _ => .immediate
  | systemRegister _ => .systemRegister
  | shift _ => .shift
  | extend _ => .extend
  | immediateOffset _ => .immediateOffset
  | registerOffset _ => .registerOffset
  | bare => .operand

/-- Whether an operand is of a kind. -/
def isKind (o : Operand) (k : Kind) : Bool := k.accepts o.kind

/-- Whether an operand modifies the one before it, and so brings its own comma. -/
def isModifier : Operand → Bool
  | shift _ | extend _ => true
  | _ => false

/-! ### Printing -/

/-- The tokens of an operand. -/
def tokens : Operand → List Token
  | register r => r.tokens
  | immediate imm => imm.tokens
  | systemRegister r => r.tokens
  | shift s => s.tokens
  | extend e => e.tokens
  | immediateOffset a => a.tokens
  | registerOffset a => a.tokens
  | bare => [.unsupportedOperand]

/-- The text of an operand. -/
def text (o : Operand) : String := Token.concat o.tokens

/-- Why an operand does not print. -/
def fault? : Operand → Option PrintFault
  | register r => r.fault?
  | immediate imm => imm.fault?
  | shift s => s.fault?
  | immediateOffset a => a.fault?
  | registerOffset a => a.fault?
  | systemRegister _ | extend _ | bare => none

/-- The width of an operand in bits, as it was given, for the kinds that have one. -/
def width? : Operand → Option Json
  | register r => some r.size
  | immediate imm => some (.ofNumber imm.width)
  | immediateOffset a => some a.size
  | registerOffset a => some a.size
  | _ => none

/-! ### Comparison -/

/-- Whether two operands are equal. A bare operand has no content to compare, so it is equal to no
operand handed over separately. -/
def same : Operand → Operand → Bool
  | register a, register b => a.same b
  | immediate a, immediate b => a.same b
  | systemRegister a, systemRegister b => a.same b
  | shift a, shift b => a.same b
  | extend a, extend b => a.same b
  | immediateOffset a, immediateOffset b => a.same b
  | registerOffset a, registerOffset b => a.same b
  | _, _ => false

/-- Whether an operand can be looked up. -/
def isKey : Operand → Bool
  | register r => r.isKey
  | systemRegister r => r.isKey
  | shift s => s.isKey
  | extend e => e.isKey
  | immediateOffset a => a.isKey
  | registerOffset a => a.isKey
  | immediate _ | bare => true

/-- How many different operands two operands are, if both can be looked up. -/
def countDistinct? (a b : Operand) : Option Nat :=
  if a.isKey && b.isKey then some (if a.same b then 1 else 2) else none

end Operand

end A64Text
