import A64Text.Operand.Immediate
import A64Text.Text.Case

/-!
# Shifts and extends

A modifier changes the operand before it. It prints its own leading comma, so that a modifier that
does nothing can print nothing at all.

The listed kinds are the architecture's. A decoder that knows more may hand over a kind by a name
outside the list; such a kind is never equal to a listed one, whatever its name, and prints as a
placeholder.
-/

namespace A64Text

/-! ### Shifts -/

/-- How an operand is shifted. -/
inductive ShiftKind where
  | none
  | lsl
  | lsr
  | asr
  | ror
  /-- A kind outside the list. -/
  | unlisted (name : String)
  deriving DecidableEq, Repr

namespace ShiftKind

/-- The listed kinds. -/
def listed : List ShiftKind := [none, lsl, lsr, asr, ror]

/-- The keyword of a kind. -/
def keyword : ShiftKind → String
  | none => "none"
  | lsl => "lsl"
  | lsr => "lsr"
  | asr => "asr"
  | ror => "ror"
  | unlisted name => name

/-- Whether a kind is one of the architecture's. -/
def isListed : ShiftKind → Bool
  | unlisted _ => false
  | _ => true

/-- The listed kind of a name, in any case. -/
def ofName? (name : String) : Option ShiftKind :=
  listed.find? fun k ↦ Text.upperAscii k.keyword = Text.upperName name

end ShiftKind

/-- A shift by a number of bits. -/
structure Shift where
  kind : ShiftKind := .none
  /-- The amount, as it was given. -/
  count : Json := .int 0
  deriving DecidableEq, Repr

namespace Shift

/-- Whether a shift changes nothing. -/
def isTrivial (s : Shift) : Bool :=
  s.kind = .none || (s.kind = .lsl && s.count.whole? = some 0)

/-- The tokens of a shift. -/
def tokens (s : Shift) : List Token :=
  match s.kind with
  | .none => []
  | .unlisted _ => [.comma, .unsupportedOperand]
  | kind => [.comma, .text kind.keyword, .blank, Immediate.hexToken (s.count.toInt?.getD 0)]

/-- Why a shift does not print: its amount is shown, and is no integer. -/
def fault? (s : Shift) : Option PrintFault :=
  match s.kind with
  | .none | .unlisted _ => none
  | _ => PrintFault.ofBaseSixteen? s.count

/-- Whether two shifts are equal. -/
def same (s t : Shift) : Bool := s.kind = t.kind && s.count.same t.count

/-- Whether the shift can be looked up. -/
def isKey (s : Shift) : Bool := s.count.isKey

end Shift

/-! ### Extends -/

/-- How a register operand is extended. -/
inductive ExtendKind where
  | none
  | uxtb
  | uxth
  | uxtw
  | uxtx
  | sxtb
  | sxth
  | sxtw
  | sxtx
  | lsl
  /-- A kind outside the list. -/
  | unlisted (name : String)
  deriving DecidableEq, Repr

namespace ExtendKind

/-- The listed kinds. -/
def listed : List ExtendKind := [none, uxtb, uxth, uxtw, uxtx, sxtb, sxth, sxtw, sxtx, lsl]

/-- The keyword of a kind. -/
def keyword : ExtendKind → String
  | none => "none"
  | uxtb => "uxtb"
  | uxth => "uxth"
  | uxtw => "uxtw"
  | uxtx => "uxtx"
  | sxtb => "sxtb"
  | sxth => "sxth"
  | sxtw => "sxtw"
  | sxtx => "sxtx"
  | lsl => "lsl"
  | unlisted name => name

/-- Whether a kind is one of the architecture's. -/
def isListed : ExtendKind → Bool
  | unlisted _ => false
  | _ => true

/-- The listed kind of a name, in any case. -/
def ofName? (name : String) : Option ExtendKind :=
  listed.find? fun k ↦ Text.upperAscii k.keyword = Text.upperName name

end ExtendKind

/-- An extension followed by a left shift. -/
structure Extend where
  kind : ExtendKind := .none
  /-- The amount of the shift, as it was given. -/
  count : Json := .int 0
  deriving DecidableEq, Repr

namespace Extend

/-- The token of an amount, which is shown whatever it is. -/
def amountToken (count : Json) : Token := .integer ("#" ++ count.display)

/-- The tokens of an extend. A left shift by nothing is how a plain register offset is written, so
it prints nothing; the other kinds only leave out the amount if it is nothing. -/
def tokens (e : Extend) : List Token :=
  match e.kind with
  | .none => []
  | .unlisted _ => [.comma, .unsupportedOperand]
  | .lsl => if e.count.isTruthy then [.comma, .text "lsl", .comma, amountToken e.count] else []
  | kind => [.comma, .text kind.keyword] ++
      if e.count.isTruthy then [.comma, amountToken e.count] else []

/-- Whether two extends are equal. -/
def same (e f : Extend) : Bool := e.kind = f.kind && e.count.same f.count

/-- Whether the extend can be looked up. -/
def isKey (e : Extend) : Bool := e.count.isKey

end Extend

end A64Text
