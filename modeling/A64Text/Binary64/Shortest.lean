import A64Text.Binary64.Basic
import A64Text.Text.Numeral

/-!
# The shortest decimal of a number

A number is shown by the fewest digits that read back as it. Of the decimals with so many digits the
nearest one is taken, a tie going to the even digit: on the grid of so many digits, only the two
neighbours of the number need to be tried.

A decimal is laid out with a point if its leading digit stands between the fourth place behind the
point and the sixteenth place before it, and then always has a digit behind the point. Otherwise it
is laid out with an exponent, which has a sign and at least two digits.
-/

namespace A64Text.Binary64

/-! ### Which digits -/

/-- The place of the leading digit of a positive magnitude: zero for the units place. Scaled by 400
places, even the least number has an integral part, whose digits are counted. -/
def leadingPlace (magnitude : Nat) : Int :=
  (Nat.toDigits 10 (magnitude * Nat.pow 10 400 / one)).length - 401

/-- A magnitude as a multiple of ten to the power of `place`, as a quotient. -/
def ratioAt (magnitude : Nat) (place : Int) : Nat × Nat :=
  if 0 ≤ place then (magnitude, one * Nat.pow 10 place.toNat)
  else (magnitude * Nat.pow 10 (-place).toNat, one)

/-- Whether a decimal reads back as a magnitude. -/
def readsBack (magnitude digits : Nat) (place : Int) : Bool :=
  ofDecimal false digits place = finite magnitude

/-- The digits of a magnitude down to a place, if they read back: the nearest ones, or else their
neighbour on the other side of the magnitude. -/
def digitsTo? (magnitude : Nat) (place : Int) : Option Nat :=
  let (num, den) := ratioAt magnitude place
  let nearest := roundDiv num den
  let other := if nearest = num / den then nearest + 1 else num / den
  if readsBack magnitude nearest place then some nearest
  else if readsBack magnitude other place then some other
  else none

/-- What is shown for digits down to a place reads back. -/
theorem readsBack_of_digitsTo? {magnitude digits : Nat} {place : Int}
    (h : digitsTo? magnitude place = some digits) : readsBack magnitude digits place = true := by
  unfold digitsTo? at h
  dsimp only at h
  grind

/-- The shortest digits of a magnitude, and the place of the last one. Seventeen digits are always
enough. -/
def shortest (magnitude : Nat) : Nat × Int :=
  let lead := leadingPlace magnitude
  let last := lead - 16
  ((List.range 17).findSome? fun (n : Nat) ↦
    (digitsTo? magnitude (lead - n)).map fun digits ↦ (digits, lead - n)).getD
    (roundDiv (ratioAt magnitude last).1 (ratioAt magnitude last).2, last)

/-! ### How they are laid out -/

/-- Digits without the zeros at their end. -/
def dropZeros (digits : List Char) : List Char := (digits.reverse.dropWhile (· = '0')).reverse

/-- So many zeros. -/
def zeros (n : Int) : List Char := List.replicate n.toNat '0'

/-- An exponent with its sign and at least two digits. -/
def exponentText (n : Int) : List Char :=
  let digits := Nat.toDigits 10 n.natAbs
  (if n < 0 then '-' else '+') :: List.replicate (2 - digits.length) '0' ++ digits

/-- Digits whose first one stands at a place, with a point. -/
def positional (digits : List Char) (lead : Int) : List Char :=
  if lead < 0 then ['0', '.'] ++ zeros (-lead - 1) ++ digits
  else
    let integral := digits.take (lead + 1).toNat
    let fraction := digits.drop (lead + 1).toNat
    integral ++ zeros (lead + 1 - digits.length) ++ ['.'] ++
      if fraction.isEmpty then ['0'] else fraction

/-- Digits whose first one stands at a place, with an exponent. -/
def scientific (digits : List Char) (lead : Int) : List Char :=
  let fraction := digits.drop 1
  digits.take 1 ++ (if fraction.isEmpty then [] else '.' :: fraction) ++ ['e'] ++ exponentText lead

/-- The text of a positive magnitude. -/
def magnitudeText (magnitude : Nat) : String :=
  let (digits, last) := shortest magnitude
  let all := Nat.toDigits 10 digits
  let lead := last + all.length - 1
  let layout := if -4 ≤ lead ∧ lead < 16 then positional else scientific
  String.ofList (layout (dropZeros all) lead)

/-- The text of a number. -/
def display : Binary64 → String
  | finite u =>
    if u = 0 then "0.0" else (if u < 0 then "-" else "") ++ magnitudeText u.natAbs
  | negativeZero => "-0.0"
  | infinite negative => if negative then "-inf" else "inf"
  | nan => "nan"

end A64Text.Binary64
