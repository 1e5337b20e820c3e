import A64Text.Json.Equality
import A64Text.Text.Case
import A64Text.Token

/-!
# System registers

A system register is addressed by five encoding fields. A few have an architectural name, which
prints as it is; every other one prints as its fields in the generic form, where a field is shown
whatever it holds.
-/

namespace A64Text

/-- The name of a system register, as far as it is known. -/
inductive SystemRegisterName where
  | unknown
  | spsel
  | daifset
  | daifclr
  | uao
  | pan
  /-- A name outside the list. -/
  | unlisted (name : String)
  deriving DecidableEq, Repr

namespace SystemRegisterName

/-- The listed names. -/
def listed : List SystemRegisterName := [unknown, spsel, daifset, daifclr, uao, pan]

/-- A name as the architecture spells it. -/
def spelling : SystemRegisterName → String
  | unknown => "unknown"
  | spsel => "SPSel"
  | daifset => "DAIFSet"
  | daifclr => "DAIFClr"
  | uao => "UAO"
  | pan => "PAN"
  | unlisted name => name

/-- Whether a name is one of the list. -/
def isListed : SystemRegisterName → Bool
  | unlisted _ => false
  | _ => true

/-- The listed name spelled in any case. -/
def ofName? (name : String) : Option SystemRegisterName :=
  listed.find? fun n ↦ Text.upperAscii n.spelling = Text.upperName name

end SystemRegisterName

/-- A system register operand. -/
structure SystemRegister where
  name : SystemRegisterName
  op0 : Json := .int 0
  op1 : Json := .int 0
  crn : Json := .int 0
  crm : Json := .int 0
  op2 : Json := .int 0
  deriving DecidableEq, Repr

namespace SystemRegister

/-- The generic form: the five fields. -/
def genericName (r : SystemRegister) : String :=
  "S" ++ r.op0.display ++ "_" ++ r.op1.display ++ "_C" ++ r.crn.display ++ "_C" ++ r.crm.display ++
    "_" ++ r.op2.display

/-- The text of a system register. -/
def text (r : SystemRegister) : String :=
  match r.name with
  | .unknown | .unlisted _ => r.genericName
  | name => name.spelling

/-- The tokens of a system register. -/
def tokens (r : SystemRegister) : List Token := [.register r.text]

/-- Whether two system registers are equal. -/
def same (r q : SystemRegister) : Bool :=
  r.name = q.name && r.op0.same q.op0 && r.op1.same q.op1 && r.crn.same q.crn &&
    r.crm.same q.crm && r.op2.same q.op2

/-- Whether the system register can be looked up. -/
def isKey (r : SystemRegister) : Bool :=
  r.op0.isKey && r.op1.isKey && r.crn.isKey && r.crm.isKey && r.op2.isKey

end SystemRegister

end A64Text
