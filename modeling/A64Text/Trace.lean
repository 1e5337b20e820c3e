import A64Text.Text.Case
import A64Text.Text.NameSet
import A64Text.Text.Units

/-!
# Trace settings

Routing can be traced, for all families or for some. The settings come from two variables of the
environment: a switch, which is on unless it is unset, blank or one of a few words, and a list of
family names separated by commas. Both are read without regard to case and to blanks.
-/

namespace A64Text

/-- The two variables of the environment; a variable may be unset. -/
structure Environment where
  trace? : Option String := none
  families? : Option String := none
  deriving DecidableEq, Repr

/-- Why a text cannot be the value of a variable. -/
inductive Environment.Fault where
  /-- It holds the character that ends a value. -/
  | terminator
  /-- It holds a UTF-16 unit without its partner, which has no bytes. -/
  | unpaired
  deriving DecidableEq, Repr

/-- The wording of a fault. -/
def Environment.Fault.message : Environment.Fault → String
  | terminator => "embedded null byte"
  | unpaired => "a unit without its partner cannot be encoded"

/-- Whether a code point has bytes in a variable. The last 128 units that close a pair stand for
single bytes there, and so they do. -/
def Environment.isEncodable (point : Nat) : Bool :=
  Text.isScalar point || (0xDC80 ≤ point && point ≤ 0xDCFF)

/-- The text with the given code points as the value of a variable. -/
def Environment.value (ps : List Nat) : Except Environment.Fault String :=
  if !ps.all isEncodable then .error .unpaired
  else if ps.contains 0 then .error .terminator
  else .ok (Text.ofPoints ps)

/-- What is traced. -/
structure TraceSettings where
  trace : Bool := false
  /-- The families that are traced; none named means all of them. -/
  families : NameSet := .empty
  deriving DecidableEq

namespace TraceSettings

/-- Whether routing to a family is traced. -/
def traces (s : TraceSettings) (family : String) : Bool :=
  s.trace && (s.families.isEmpty || s.families.contains (Text.caseFold family))

/-! ### Reading the environment -/

/-- The settings of a switch that turn it off. -/
def offWords : List String := ["0", "false", "off", ""]

/-- Whether a switch is on. -/
def isOn : Option String → Bool
  | none => false
  | some s => !offWords.contains (Text.caseFold (Text.trim s))

/-- The pieces of a text between commas. -/
def splitCommas : List Char → List (List Char)
  | [] => [[]]
  | c :: rest =>
    if c = ',' then [] :: splitCommas rest
    else
      match splitCommas rest with
      | [] => [[c]]
      | piece :: pieces => (c :: piece) :: pieces

/-- The names in a list separated by commas; blank pieces name nothing. -/
def namesIn (s : String) : List String :=
  (((splitCommas s.toList).map Text.trimChars).filter fun cs ↦ !cs.isEmpty).map fun cs ↦
    Text.caseFold (String.ofList cs)

/-- The settings that an environment gives. -/
def ofEnvironment (e : Environment) : TraceSettings where
  trace := isOn e.trace?
  families :=
    match e.families? with
    | none => .empty
    | some s => NameSet.ofList (namesIn s)

end TraceSettings

end A64Text
