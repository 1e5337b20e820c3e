/-!
# Numerals

Integers as text, in base ten and in base sixteen. Writing is `decimal` and `hex`: no leading
zeros, lower-case hexadecimal letters, the radix mark `0x`, and a minus sign in front of everything
else. Reading is `value`, which gives digits of either case their place value and leaves it to the
caller to say which characters are digits and where the numeral ends.

The two directions meet in `value`: the digits that `Nat.toDigits` writes are worth the number they
were written for, in both bases.

Numerals may have any number of digits. An interpreter can be set to refuse integers of more than
some thousands of decimal digits when it writes or reads them; no such limit is modelled here, nor
in what is built on this module.
-/

namespace A64Text.Numeral

/-! ### Digits -/

/-- A decimal digit. -/
def isDecimalDigit (c : Char) : Bool := '0' ≤ c && c ≤ '9'

/-- A hexadecimal digit in either case. -/
def isHexDigit (c : Char) : Bool :=
  isDecimalDigit c || ('a' ≤ c && c ≤ 'f') || ('A' ≤ c && c ≤ 'F')

/-- The value of a hexadecimal digit in either case; a character that is no digit counts zero. -/
def digitValue (c : Char) : Nat :=
  if '0' ≤ c && c ≤ '9' then c.toNat - '0'.toNat
  else if 'a' ≤ c && c ≤ 'f' then c.toNat - 'a'.toNat + 10
  else if 'A' ≤ c && c ≤ 'F' then c.toNat - 'A'.toNat + 10
  else 0

/-- The number that digits stand for, most significant digit first. -/
def value (base : Nat) (digits : List Char) : Nat :=
  digits.foldl (fun n c ↦ base * n + digitValue c) 0

@[simp] theorem value_nil (base : Nat) : value base [] = 0 := rfl

/-- One more digit on the right is one more place. -/
theorem value_append_singleton (base : Nat) (digits : List Char) (c : Char) :
    value base (digits ++ [c]) = base * value base digits + digitValue c := by
  simp [value]

/-! ### Writing -/

/-- A natural number in base ten. -/
def decimalNat (n : Nat) : String := String.ofList (Nat.toDigits 10 n)

/-- A natural number in base sixteen, behind its radix mark. -/
def hexNat (n : Nat) : String := "0x" ++ String.ofList (Nat.toDigits 16 n)

/-- An integer in base ten. -/
def decimal : Int → String
  | .ofNat n => decimalNat n
  | .negSucc n => "-" ++ decimalNat (n + 1)

/-- An integer in base sixteen; the sign stands in front of the radix mark. -/
def hex : Int → String
  | .ofNat n => hexNat n
  | .negSucc n => "-" ++ hexNat (n + 1)

/-- The digit written for a value below sixteen has that value. -/
theorem digitValue_digitChar : ∀ {d : Nat}, d < 16 → digitValue d.digitChar = d := by
  have h : ∀ d : Fin 16, digitValue (Nat.digitChar d) = d := by decide
  exact fun {d} hd ↦ h ⟨d, hd⟩

/-- What is written in a base up to sixteen is worth the number it was written for. -/
theorem value_toDigits {base : Nat} (hb : 1 < base) (hb' : base ≤ 16) (n : Nat) :
    value base (Nat.toDigits base n) = n := by
  induction n using Nat.strongRecOn with
  | _ n ih =>
    by_cases h : n < base
    · rw [Nat.toDigits_of_lt_base h]
      simp [value, digitValue_digitChar (Nat.lt_of_lt_of_le h hb')]
    · have hn : base ≤ n := Nat.le_of_not_lt h
      have hmod : n % base < 16 := Nat.lt_of_lt_of_le (Nat.mod_lt _ (by omega)) hb'
      rw [Nat.toDigits_of_base_le hb hn, value_append_singleton,
        ih _ (Nat.div_lt_self (by omega) hb), digitValue_digitChar hmod, Nat.div_add_mod]

/-- A natural number in base sixteen without radix mark, filled up with zeros to `width`. -/
def hexPadded (width n : Nat) : String :=
  let digits := Nat.toDigits 16 n
  String.ofList (List.replicate (width - digits.length) '0' ++ digits)

end A64Text.Numeral
