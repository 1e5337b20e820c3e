/-!
# Double-precision numbers

A finite number of double precision is a multiple of the least positive one, two to the power of
-1074, and is held as that multiple: its *units*. Comparing, adding and cutting off a fraction are
then exact on integers. What makes the precision double is `roundMagnitude`, which keeps 53
significant bits and goes to the nearest such number, a tie to the even one; numbers below the
normal range need no case of their own, because units are whole. The negative zero, the infinities
and the value that is no number stand beside the finite numbers.

A decimal is read by rounding its exact value once (`ofDecimal`).
-/

namespace A64Text

/-- A number of double precision. -/
inductive Binary64 where
  /-- A multiple of the least positive number. -/
  | finite (units : Int)
  | negativeZero
  | infinite (negative : Bool)
  | nan
  deriving DecidableEq, Repr, Inhabited

namespace Binary64

/-- How many units make one. -/
def one : Nat := Nat.pow 2 1074

/-- The units of a number; what is not finite has none. -/
def units : Binary64 → Int
  | finite u => u
  | negativeZero | infinite _ | nan => 0

/-! ### Rounding -/

/-- A quotient rounded to the nearest integer, a tie to the even one. -/
def roundDiv (num den : Nat) : Nat :=
  if den < 2 * (num % den) ∨ (2 * (num % den) = den ∧ num / den % 2 = 1) then num / den + 1
  else num / den

/-- A rounded quotient is within half of the true one. -/
theorem roundDiv_near {num den : Nat} (h : 0 < den) :
    2 * num ≤ 2 * (roundDiv num den * den) + den ∧
      2 * (roundDiv num den * den) ≤ 2 * num + den := by
  have hdiv := Nat.div_add_mod num den
  have hmod := Nat.mod_lt num h
  rw [Nat.mul_comm] at hdiv
  unfold roundDiv
  split
  · rw [Nat.add_mul]
    omega
  · omega

/-- How many low bits of a number a significand of 53 bits has no room for. -/
def excessBits (n : Nat) : Nat := n.log2 + 1 - 53

/-- A quotient of units rounded to 53 significant bits. -/
def roundMagnitude (num den : Nat) : Nat :=
  let step := Nat.pow 2 (excessBits (num / den))
  roundDiv num (den * step) * step

/-- The least magnitude that is too large for a finite number, in units. -/
def overflow : Nat := Nat.pow 2 1024 * one

/-- The number with a sign and a magnitude in units. -/
def ofMagnitude (negative : Bool) (magnitude : Nat) : Binary64 :=
  if overflow ≤ magnitude then infinite negative
  else if !negative then finite magnitude
  else if magnitude = 0 then negativeZero
  else finite (-magnitude)

/-- Units rounded to a number. -/
def rounded (u : Int) : Binary64 := ofMagnitude (u < 0) (roundMagnitude u.natAbs 1)

/-! ### Decimals and integers -/

/-- The number nearest to `digits` times ten to the power of `exponent`. Far outside the range of
finite numbers the power is not computed. -/
def ofDecimal (negative : Bool) (digits : Nat) (exponent : Int) : Binary64 :=
  let scale := exponent + (Nat.toDigits 10 digits).length
  if digits = 0 ∨ scale < -330 then ofMagnitude negative 0
  else if 310 < scale then infinite negative
  else if 0 ≤ exponent then
    ofMagnitude negative (roundMagnitude (digits * Nat.pow 10 exponent.toNat * one) 1)
  else ofMagnitude negative (roundMagnitude (digits * one) (Nat.pow 10 (-exponent).toNat))

/-- The number nearest to an integer. -/
def ofInt (n : Int) : Binary64 := rounded (n * one)

/-- The integer that a number is equal to. -/
def whole? : Binary64 → Option Int
  | finite u => if u % one = 0 then some (u / one) else none
  | negativeZero => some 0
  | infinite _ | nan => none

/-- The integral part of a number, which is cut off toward zero. -/
def truncated? : Binary64 → Option Int
  | finite u => some (u.tdiv one)
  | negativeZero => some 0
  | infinite _ | nan => none

/-! ### Order and sums -/

/-- Whether a number is zero. -/
def isZero : Binary64 → Bool
  | finite u => u = 0
  | negativeZero => true
  | infinite _ | nan => false

/-- Whether one number is less than another. -/
def less : Binary64 → Binary64 → Bool
  | nan, _ | _, nan => false
  | infinite a, infinite b => a && !b
  | infinite a, _ => a
  | _, infinite b => !b
  | x, y => x.units < y.units

/-- Whether one number is at most another. -/
def atMost (x y : Binary64) : Bool := x ≠ nan && y ≠ nan && !y.less x

/-- A number with the other sign. -/
def neg : Binary64 → Binary64
  | finite u => if u = 0 then negativeZero else finite (-u)
  | negativeZero => finite 0
  | infinite negative => infinite !negative
  | nan => nan

/-- The rounded sum of two numbers. -/
def add : Binary64 → Binary64 → Binary64
  | nan, _ | _, nan => nan
  | infinite a, infinite b => if a = b then infinite a else nan
  | infinite a, _ => infinite a
  | _, infinite b => infinite b
  | negativeZero, negativeZero => negativeZero
  | x, y => rounded (x.units + y.units)

end Binary64

end A64Text
