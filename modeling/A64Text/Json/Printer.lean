import A64Text.Json.Basic

/-!
# Writing JSON

Two styles. On one line, items are separated by a comma and a blank. In a block, every item stands
on a line of its own, behind a fixed indent for each level; an empty array or object stays on its
line in either style. A key is separated from its value by a colon and a blank, and the text is
pure ASCII: other characters are written by their UTF-16 units.
-/

namespace A64Text.Json

/-- How a value is spread over lines. -/
inductive Style where
  | line
  /-- A level is indented by a text, so many times. -/
  | block (indent : String) (times : Nat)
  deriving DecidableEq, Repr

/-- The block style that indents by a number of blanks; a negative number is none. -/
def Style.blanks (width : Int) : Style := .block " " width.toNat

/-- Why a value selects no style. -/
inductive IndentFault where
  /-- It is neither null nor a text nor an integer. -/
  | noIndent
  /-- It asks for more blanks than find room. -/
  | room
  deriving DecidableEq, Repr

/-- The style that an indent selects: null is one line, an integer is so many blanks, and a text is
the indent itself. -/
def Style.ofIndent (v : Json) : Except IndentFault Style :=
  match v with
  | .null => .ok line
  | .str s => .ok (block s 1)
  | .unpaired ps => .ok (block (Text.ofPoints ps) 1)
  | _ =>
    match v.toInt? with
    | none => .error .noIndent
    | some width =>
      if Room.holdsBlanks width then .ok (blanks width) else .error .room

@[simp] theorem Style.ofIndent_null : ofIndent .null = .ok line := rfl

@[simp] theorem Style.ofIndent_int (width : Int) :
    ofIndent (.int width) =
      if Room.holdsBlanks width then .ok (blanks width) else .error .room := rfl

/-! ### Strings -/

/-- The escape of one UTF-16 unit. -/
def unitEscape (n : Nat) : String := "\\u" ++ Numeral.hexPadded 4 n

/-- A code point inside a JSON string. -/
def writePoint (point : Nat) : String :=
  if point = '"'.toNat then "\\\""
  else if point = '\\'.toNat then "\\\\"
  else if point = '\n'.toNat then "\\n"
  else if point = '\r'.toNat then "\\r"
  else if point = '\t'.toNat then "\\t"
  else if point = 0x08 then "\\b"
  else if point = 0x0C then "\\f"
  else if 0x20 ≤ point && point ≤ 0x7E then String.singleton (Char.ofNat point)
  else String.join ((Text.unitsOf point).map unitEscape)

/-- A JSON string of code points between its quotes. -/
def writePoints (ps : List Nat) : String := "\"" ++ String.join (ps.map writePoint) ++ "\""

/-- A JSON text from its code points. A unit without its partner, which no `Char` holds, is written
by its escape and so is read back inside a string. -/
def textOfPoints (ps : List Nat) : String :=
  String.join (ps.map fun p ↦
    if Text.isScalar p then String.singleton (Char.ofNat p) else unitEscape p)

/-- A JSON string between its quotes. -/
def writeString (s : String) : String := writePoints (Text.points s)

/-! ### Layout of arrays and objects -/

/-- The start of a line at a depth. -/
def Style.newline : Style → Nat → String
  | .line, _ => ""
  | .block indent times, depth => "\n" ++ String.join (List.replicate (depth * times) indent)

/-- What stands between two items at a depth. -/
def Style.separator : Style → Nat → String
  | .line, _ => ", "
  | .block indent times, depth => "," ++ Style.newline (.block indent times) depth

/-- Brackets around written items; `depth` is the depth of the brackets. -/
def Style.enclose (style : Style) (depth : Nat) (opening closing : String) :
    List String → String
  | [] => opening ++ closing
  | items => opening ++ style.newline (depth + 1) ++
      (style.separator (depth + 1)).intercalate items ++ style.newline depth ++ closing

/-- A real number; what is not finite is written as a word. -/
def writeReal : Binary64 → String
  | .nan => "NaN"
  | .infinite negative => if negative then "-Infinity" else "Infinity"
  | x => x.display

mutual

/-- Writes a value at a depth. -/
def writeAt (style : Style) (depth : Nat) : Json → String
  | null => "null"
  | bool true => "true"
  | bool false => "false"
  | int n => Numeral.decimal n
  | real x => writeReal x
  | str s => writeString s
  | unpaired ps => writePoints ps
  | arr items => style.enclose depth "[" "]" (writeItems style (depth + 1) items)
  | obj members => style.enclose depth "\x7b" "\x7d" (writeMembers style (depth + 1) members)

/-- Writes the items of an array, each at the depth given. -/
def writeItems (style : Style) (depth : Nat) : List Json → List String
  | [] => []
  | v :: rest => writeAt style depth v :: writeItems style depth rest

/-- Writes the members of an object, each at the depth given. -/
def writeMembers (style : Style) (depth : Nat) : List (String × Json) → List String
  | [] => []
  | (k, v) :: rest =>
    (writeString k ++ ": " ++ writeAt style depth v) :: writeMembers style depth rest

end

/-- Writes a value. -/
def write (style : Style) (v : Json) : String := writeAt style 0 v

end A64Text.Json
