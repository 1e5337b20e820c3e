/-!
# Code points and UTF-16 units

A text is a list of code points. A code point above the first 65536 is written in UTF-16 as a pair
of units, a high one and a low one, and the units of pairs are no characters themselves: a unit
without its partner is a code point that no `Char` holds. `joinPairs` puts pairs together and leaves
every other unit as it is; `unitsOf` takes a code point apart again, and `joinPairs_unitsOf_append`
says that the two fit together.
-/

namespace A64Text.Text

/-- A unit that opens a pair. -/
def isHighUnit (n : Nat) : Bool := 0xD800 ≤ n && n < 0xDC00

/-- A unit that closes a pair. -/
def isLowUnit (n : Nat) : Bool := 0xDC00 ≤ n && n < 0xE000

/-- A code point that is no unit of a pair. -/
def isScalar (point : Nat) : Bool := !isHighUnit point && !isLowUnit point

/-- The code points that units stand for. -/
def joinPairs : List Nat → List Nat
  | [] => []
  | [n] => [n]
  | high :: low :: rest =>
    if isHighUnit high && isLowUnit low then
      (0x10000 + (high - 0xD800) * 0x400 + (low - 0xDC00)) :: joinPairs rest
    else high :: joinPairs (low :: rest)

/-- The units of a code point. -/
def unitsOf (point : Nat) : List Nat :=
  if point < 0x10000 then [point]
  else [0xD800 + (point - 0x10000) / 0x400, 0xDC00 + (point - 0x10000) % 0x400]

/-- A code point comes back from its units, whatever follows. -/
theorem joinPairs_unitsOf_append {point : Nat} (h : isScalar point = true)
    (hlt : point < 0x110000) (rest : List Nat) :
    joinPairs (unitsOf point ++ rest) = point :: joinPairs rest := by
  unfold unitsOf
  split
  · cases rest with
    | nil => rfl
    | cons low rest =>
      have : isHighUnit point = false := by simp_all [isScalar]
      simp [joinPairs, this]
  · generalize hq : (point - 0x10000) / 0x400 = q
    generalize hr : (point - 0x10000) % 0x400 = r
    have hhigh : isHighUnit (0xD800 + q) = true := by
      simp only [isHighUnit, Bool.and_eq_true, decide_eq_true_eq]
      omega
    have hlow : isLowUnit (0xDC00 + r) = true := by
      simp only [isLowUnit, Bool.and_eq_true, decide_eq_true_eq]
      omega
    rw [List.cons_append, List.cons_append, List.nil_append, joinPairs, hhigh, hlow,
      Bool.and_self, if_pos rfl]
    have : 0x10000 + (0xD800 + q - 0xD800) * 0x400 + (0xDC00 + r - 0xDC00) = point := by omega
    rw [this]

/-- The character of a code point; a unit without its partner gives the replacement character. -/
def charOfPoint (point : Nat) : Char :=
  if isScalar point then Char.ofNat point else Char.ofNat 0xFFFD

/-- The code points of a text. -/
def points (s : String) : List Nat := s.toList.map Char.toNat

/-- The text of code points. -/
def ofPoints (ps : List Nat) : String := String.ofList (ps.map charOfPoint)

end A64Text.Text
