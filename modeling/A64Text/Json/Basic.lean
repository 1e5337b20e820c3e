import A64Text.Number
import A64Text.Text.Quoted

/-!
# JSON values

The values that are exchanged with decoders and tests. A number without a fraction and an exponent
is an integer of any size, any other one is of double precision. A text that no `String` holds,
because a UTF-16 unit in it has no partner, is kept as its code points. An object is the list of its
members in the order of the text. A key may occur more than once, and the last member with a key is
the one that counts: that is `lookup`.

Values are also what the fields of an instruction hold that decoding does not look into, such as
widths and flags. Such a field is read where it is used: as a number by `toNumber?`, as an integer
by `toInt?`, as a flag by `isTruthy`, as a text by `display`.
-/

namespace A64Text

/-- A JSON value. -/
inductive Json where
  | null
  | bool (b : Bool)
  | int (n : Int)
  | real (x : Binary64)
  | str (s : String)
  /-- A text that no `String` holds, by its code points. -/
  | unpaired (points : List Nat)
  | arr (items : List Json)
  | obj (members : List (String × Json))
  deriving Inhabited

namespace Json

/-- The text with the given code points. -/
def ofPoints (ps : List Nat) : Json :=
  if ps.all Text.isScalar then str (Text.ofPoints ps) else unpaired ps

/-- The value of a number. -/
def ofNumber : Number → Json
  | .int n => int n
  | .truth b => bool b
  | .real x => real x

/-! ### Access -/

/-- The value of a key among members; the last one with that key counts. -/
def lookup (key : String) : List (String × Json) → Option Json
  | [] => none
  | (k, v) :: rest => (lookup key rest).or (if k = key then some v else none)

/-- The number that a value is, if it is one. -/
def toNumber? : Json → Option Number
  | int n => some (.int n)
  | bool b => some (.truth b)
  | real x => some (.real x)
  | _ => none

/-- The integer that a value is; truth values are one and zero. -/
def toInt? (v : Json) : Option Int := v.toNumber?.bind Number.integer?

/-- The integer that a value is equal to. -/
def whole? (v : Json) : Option Int := v.toNumber?.bind Number.whole?

/-- A number is read back from its value. -/
@[simp] theorem toNumber?_ofNumber (n : Number) : (ofNumber n).toNumber? = some n := by
  cases n <;> rfl

@[simp] theorem toNumber?_int (n : Int) : (int n).toNumber? = some (.int n) := rfl

@[simp] theorem toInt?_int (n : Int) : (int n).toInt? = some n := rfl

@[simp] theorem whole?_int (n : Int) : (int n).whole? = some n := rfl

/-- Whether a value counts as true: everything does except null, false, zero and what is empty. -/
def isTruthy : Json → Bool
  | null => false
  | bool b => b
  | int n => n ≠ 0
  | real x => !x.isZero
  | str s => s ≠ ""
  | unpaired _ => true
  | arr items => !items.isEmpty
  | obj members => !members.isEmpty

@[simp] theorem isTruthy_bool (b : Bool) : (bool b).isTruthy = b := rfl

/-! ### Showing a value in a message -/

/-- Replaces the text shown for a key, or adds the key at the end. -/
def putShown (key shown : String) : List (String × String) → List (String × String)
  | [] => [(key, shown)]
  | (k, s) :: rest => if k = key then (k, shown) :: rest else (k, s) :: putShown key shown rest

/-- Members as shown: each key once, at its first place and with its last value. -/
def distinctShown (members : List (String × String)) : List (String × String) :=
  members.foldl (fun acc m ↦ putShown m.1 m.2 acc) []

mutual

/-- A value inside another one, where a text stands between quotes. -/
def shown : Json → String
  | null => "None"
  | bool true => "True"
  | bool false => "False"
  | int n => Numeral.decimal n
  | real x => x.display
  | str s => Text.quoted s
  | unpaired ps => Text.quotedPoints ps
  | arr items => "[" ++ ", ".intercalate (shownItems items) ++ "]"
  | obj members =>
    "\x7b" ++ ", ".intercalate ((distinctShown (shownMembers members)).map fun m ↦
      Text.quoted m.1 ++ ": " ++ m.2) ++ "\x7d"

/-- The items of an array as shown. -/
def shownItems : List Json → List String
  | [] => []
  | v :: rest => shown v :: shownItems rest

/-- The members of an object, with their values as shown. -/
def shownMembers : List (String × Json) → List (String × String)
  | [] => []
  | (k, v) :: rest => (k, shown v) :: shownMembers rest

end

instance : Repr Json where
  reprPrec v _ := v.shown

/-- A value in a message: a text stands for itself, anything else is shown as inside another. -/
def display : Json → String
  | str s => s
  | unpaired ps => Text.ofPoints ps
  | v => shown v

/-- A number is shown alike as a value. -/
@[simp] theorem display_ofNumber (n : Number) : (ofNumber n).display = n.display := by
  rcases n with n | (_ | _) | x <;> simp [ofNumber, display, shown, Number.display]

@[simp] theorem display_int (n : Int) : (int n).display = Numeral.decimal n := by
  simp [display, shown]

end Json

end A64Text
