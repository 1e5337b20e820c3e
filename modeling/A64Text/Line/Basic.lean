import A64Text.Text.Numeral

/-!
# Lines

A line of assembly as it is compared: a mnemonic and operands, without the details that do not
matter. An operand is a term or a memory operand; a term is a name, a number, or a keyword with an
amount. The text of a line puts numbers in base ten behind their mark.
-/

namespace A64Text

namespace Line

/-- A name, a number, or a keyword with its amount. -/
structure Term where
  name? : Option String := none
  value? : Option Int := none
  deriving DecidableEq, Repr

/-- The text of a term. A term with neither name nor value says so. -/
def Term.text (t : Term) : String :=
  match t.name?, t.value? with
  | none, none => "#None"
  | none, some n => "#" ++ Numeral.decimal n
  | some name, none => name
  | some name, some n => name ++ " #" ++ Numeral.decimal n

/-- An operand of a line. -/
inductive Item where
  | term (t : Term)
  | memory (parts : List Term) (writeback : Bool)
  deriving DecidableEq, Repr

/-- The text of an operand. -/
def Item.text : Item → String
  | term t => t.text
  | memory parts writeback =>
    "[" ++ ", ".intercalate (parts.map Term.text) ++ "]" ++ if writeback then "!" else ""

end Line

/-- A line of assembly. -/
structure Line where
  mnemonic : String
  operands : List Line.Item := []
  deriving DecidableEq, Repr

/-- The text of a line. -/
def Line.text (l : Line) : String :=
  if l.operands.isEmpty then l.mnemonic
  else l.mnemonic ++ " " ++ ", ".intercalate (l.operands.map Item.text)

end A64Text
