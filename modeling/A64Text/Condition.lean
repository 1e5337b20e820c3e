import A64Text.Text.Case

/-!
# Conditions

The sixteen condition codes. An instruction carries its code as a number; only its low four bits
select a condition. The last two codes both mean "always" and print alike.
-/

namespace A64Text

/-- A condition. -/
inductive Condition where
  | eq | ne | cs | cc | mi | pl | vs | vc | hi | ls | ge | lt | gt | le | al | nv
  deriving DecidableEq, Repr

namespace Condition

/-- All conditions; the place of a condition is its code. -/
def all : List Condition := [eq, ne, cs, cc, mi, pl, vs, vc, hi, ls, ge, lt, gt, le, al, nv]

/-- The code of a condition. -/
def code (c : Condition) : Nat := all.idxOf c

/-- The condition that the low four bits of a number select. -/
def ofLowBits (n : Int) : Condition := all.getD (n % 16).toNat al

/-- The condition with a code. -/
def ofCode? (n : Int) : Option Condition := if 0 ≤ n then all[n.toNat]? else none

/-- The listed name of a condition. -/
def name : Condition → String
  | eq => "EQ"
  | ne => "NE"
  | cs => "CS"
  | cc => "CC"
  | mi => "MI"
  | pl => "PL"
  | vs => "VS"
  | vc => "VC"
  | hi => "HI"
  | ls => "LS"
  | ge => "GE"
  | lt => "LT"
  | gt => "GT"
  | le => "LE"
  | al => "AL"
  | nv => "NV"

/-- The architecture's second names for two conditions. -/
def synonyms : List (String × Condition) := [("HS", cs), ("LO", cc)]

/-- The condition with a listed name or a synonym, in any case. -/
def ofName? (s : String) : Option Condition :=
  (all.find? fun c ↦ c.name = Text.upperName s).or (synonyms.lookup (Text.upperName s))

/-- The text of a condition in a line; the reserved code executes, and prints, as "always". -/
def text : Condition → String
  | nv => "al"
  | c => Text.lowerAscii c.name

end Condition

end A64Text
