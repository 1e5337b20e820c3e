import A64Text.Token
import A64Text.Text.Case

/-!
# General registers

A register operand is a register number and an operand width. Numbers 0 to 30 are the general
registers, 31 the zero register, 32 the stack pointer and 33 the program counter; a decoder may hand
over any other number, which prints as a placeholder. A width up to 32 bits selects the `w` view of
a register, a larger one the `x` view; the program counter and the placeholder have no views, so
their width is not looked at.
-/

namespace A64Text

/-- The register width that an operand width selects. -/
def registerBits (size : Number) : Nat := if size.atMost (.int 32) then 32 else 64

/-- A register operand. -/
structure Register where
  /-- The register's number. -/
  number : Int
  /-- The operand width in bits, as it was given. -/
  size : Json := .int 64
  deriving DecidableEq, Repr

namespace Register

/-! ### Numbers with a meaning -/

/-- The link register, which a plain return uses. -/
def linkNumber : Int := 30

/-- The zero register. -/
def zeroNumber : Int := 31

/-- The stack pointer. -/
def stackNumber : Int := 32

/-- The program counter. -/
def programNumber : Int := 33

/-- Whether the register reads as zero. -/
def isZero (r : Register) : Bool := r.number = zeroNumber

/-- Whether the register is the stack pointer. -/
def isStack (r : Register) : Bool := r.number = stackNumber

/-! ### Listed names -/

/-- The names under which registers are listed; the place of a name is the register's number. -/
def names : List String :=
  ["X0", "X1", "X2", "X3", "X4", "X5", "X6", "X7", "X8", "X9", "X10", "X11", "X12", "X13", "X14",
    "X15", "X16", "X17", "X18", "X19", "X20", "X21", "X22", "X23", "X24", "X25", "X26", "X27",
    "X28", "X29", "X30", "XZR", "SP", "PC"]

/-- The number of a listed name, in any case. -/
def numberOf? (name : String) : Option Nat := names.idxOf? (Text.upperName name)

/-- The listed name of a number. -/
def nameOf? (number : Int) : Option String :=
  if 0 ≤ number then names[number.toNat]? else none

/-! ### Printing -/

/-- Stands for a register number without a name. -/
def unsupported : String := "<unsupported_reg>"

/-- Whether an operand width selects the `w` view. -/
def isNarrow (size : Json) : Bool :=
  match size.toNumber? with
  | some n => n.atMost (.int 32)
  | none => false

/-- The text of a register operand. -/
def text (r : Register) : String :=
  let view := if isNarrow r.size then "w" else "x"
  if 0 ≤ r.number ∧ r.number < zeroNumber then view ++ Numeral.decimal r.number
  else if r.number = zeroNumber then view ++ "zr"
  else if r.number = stackNumber then (if isNarrow r.size then "wsp" else "sp")
  else if r.number = programNumber then "pc"
  else unsupported

/-- The tokens of a register operand. -/
def tokens (r : Register) : List Token := [.register r.text]

/-- Whether the register has a `w` and an `x` view. -/
def hasViews (r : Register) : Bool := 0 ≤ r.number && r.number ≤ stackNumber

/-- Why the register does not print: it has two views, and its width selects none. -/
def fault? (r : Register) : Option PrintFault :=
  if r.hasViews then PrintFault.ofCompared? r.size else none

/-! ### Comparison -/

/-- Whether two registers are equal. -/
def same (r q : Register) : Bool := r.number = q.number && r.size.same q.size

/-- Whether the register can be looked up. -/
def isKey (r : Register) : Bool := r.size.isKey

end Register

end A64Text
