import A64Text.Json.Basic

/-!
# Lexemes of JSON

The first half of reading JSON: from characters to brackets, separators, strings and scalars. Blanks
(space, tab, line feed, carriage return) separate lexemes and are dropped. Besides the scalars of
the standard, the three words for numbers that are not finite are read.

A `\u` escape gives one UTF-16 unit. Two units that form a pair are one character. A unit without
its partner is taken too, so the lexeme of a string holds code points.

Every lexeme takes at least one character (`length_of_next`), and that is what lets `scan` recurse
on the length of what is left.
-/

namespace A64Text.Json

/-- A lexeme of JSON. -/
inductive Lexeme where
  | beginArray
  | endArray
  | beginObject
  | endObject
  | comma
  | colon
  | str (points : List Nat)
  | scalar (v : Json)

namespace Lexeme

/-! ### Strings -/

/-- The character behind a backslash that stands for one code point. -/
def escape? : Char → Option Nat
  | '"' => some 0x22
  | '\\' => some 0x5C
  | '/' => some 0x2F
  | 'b' => some 0x08
  | 'f' => some 0x0C
  | 'n' => some 0x0A
  | 'r' => some 0x0D
  | 't' => some 0x09
  | _ => none

/-- Reads a string up to its closing quote, as code points and UTF-16 units. A control character
must be escaped. -/
def scanString : List Char → Option (List Nat × List Char)
  | [] => none
  | '"' :: rest => some ([], rest)
  | '\\' :: 'u' :: a :: b :: c :: d :: rest =>
    if [a, b, c, d].all Numeral.isHexDigit then
      (scanString rest).map fun r ↦ (Numeral.value 16 [a, b, c, d] :: r.1, r.2)
    else none
  -- A `\u` with fewer than four characters behind it also ends up here, and is refused.
  | '\\' :: c :: rest =>
    match escape? c with
    | some n => (scanString rest).map fun r ↦ (n :: r.1, r.2)
    | none => none
  | c :: rest =>
    if c.toNat < 0x20 then none
    else (scanString rest).map fun r ↦ (c.toNat :: r.1, r.2)

/-! ### Scalars -/

/-- The integral part of a number: a zero, or digits that do not start with one. -/
def integral? : List Char → Option (List Char × List Char)
  | [] => none
  | c :: rest =>
    if c = '0' then some (['0'], rest)
    else if Numeral.isDecimalDigit c then
      some (c :: rest.takeWhile Numeral.isDecimalDigit, rest.dropWhile Numeral.isDecimalDigit)
    else none

/-- Digits behind a mark, if there is at least one. -/
def digitsAfter (mark : List Char) (whole digits : List Char) : List Char × List Char :=
  match digits with
  | [] => ([], whole)
  | d :: rest =>
    if Numeral.isDecimalDigit d then
      (mark ++ d :: rest.takeWhile Numeral.isDecimalDigit,
        rest.dropWhile Numeral.isDecimalDigit)
    else ([], whole)

/-- The fraction of a number, if it has one. -/
def fraction : List Char → List Char × List Char
  | '.' :: rest => digitsAfter ['.'] ('.' :: rest) rest
  | cs => ([], cs)

/-- The exponent of a number, if it has one. -/
def exponent : List Char → List Char × List Char
  | [] => ([], [])
  | e :: rest =>
    if e = 'e' || e = 'E' then
      match rest with
      | '+' :: rest' => digitsAfter [e, '+'] (e :: '+' :: rest') rest'
      | '-' :: rest' => digitsAfter [e, '-'] (e :: '-' :: rest') rest'
      | _ => digitsAfter [e] (e :: rest) rest
    else ([], e :: rest)

/-- The value of an exponent from its spelling; no spelling is zero. -/
def exponentValue : List Char → Int
  | _ :: '-' :: digits => -Numeral.value 10 digits
  | _ :: '+' :: digits => Numeral.value 10 digits
  | _ :: digits => Numeral.value 10 digits
  | [] => 0

/-- The value of a number from the spellings of its parts. Without fraction and exponent it is an
integer, otherwise it is of double precision. -/
def numberValue (negative : Bool) (digits frac expo : List Char) : Json :=
  if frac.isEmpty && expo.isEmpty then
    .int (if negative then -Numeral.value 10 digits else Numeral.value 10 digits)
  else
    -- The fraction is spelled with its point.
    let places := frac.drop 1
    .real (.ofDecimal negative (Numeral.value 10 (digits ++ places))
      (exponentValue expo - places.length))

/-- A number without its sign. -/
def unsigned? (negative : Bool) (cs : List Char) : Option (Json × List Char) :=
  (integral? cs).map fun (digits, rest) ↦
    let (frac, rest) := fraction rest
    let (expo, rest) := exponent rest
    (numberValue negative digits frac expo, rest)

/-- A number. -/
def number? : List Char → Option (Json × List Char)
  | '-' :: rest => unsigned? true rest
  | cs => unsigned? false cs

/-- A word with a value of its own. -/
def literal? : List Char → Option (Json × List Char)
  | 'n' :: 'u' :: 'l' :: 'l' :: rest => some (.null, rest)
  | 't' :: 'r' :: 'u' :: 'e' :: rest => some (.bool true, rest)
  | 'f' :: 'a' :: 'l' :: 's' :: 'e' :: rest => some (.bool false, rest)
  | 'N' :: 'a' :: 'N' :: rest => some (.real .nan, rest)
  | 'I' :: 'n' :: 'f' :: 'i' :: 'n' :: 'i' :: 't' :: 'y' :: rest =>
    some (.real (.infinite false), rest)
  | '-' :: 'I' :: 'n' :: 'f' :: 'i' :: 'n' :: 'i' :: 't' :: 'y' :: rest =>
    some (.real (.infinite true), rest)
  | _ => none

/-! ### The lexeme at the front -/

/-- The lexeme at the front of a text that does not start with a blank, and what follows it. -/
def next : List Char → Option (Lexeme × List Char)
  | '[' :: rest => some (.beginArray, rest)
  | ']' :: rest => some (.endArray, rest)
  | '\x7b' :: rest => some (.beginObject, rest)
  | '\x7d' :: rest => some (.endObject, rest)
  | ',' :: rest => some (.comma, rest)
  | ':' :: rest => some (.colon, rest)
  | '"' :: rest => (scanString rest).map fun r ↦ (.str (Text.joinPairs r.1), r.2)
  | cs => ((literal? cs).or (number? cs)).map fun r ↦ (.scalar r.1, r.2)

theorem length_of_scanString {cs : List Char} {units : List Nat} {rest : List Char}
    (h : scanString cs = some (units, rest)) : rest.length < cs.length := by
  fun_induction scanString cs generalizing units rest <;>
    simp_all only [reduceCtorEq, Option.map_eq_some_iff, Option.some.injEq, Prod.mk.injEq,
      Prod.exists, List.length_cons] <;> grind

theorem length_dropWhile_le (p : Char → Bool) (cs : List Char) :
    (cs.dropWhile p).length ≤ cs.length :=
  (List.dropWhile_sublist p).length_le

theorem length_integral? {cs digits rest : List Char} (h : integral? cs = some (digits, rest)) :
    rest.length < cs.length := by
  cases cs with
  | nil => simp [integral?] at h
  | cons c cs =>
    have := length_dropWhile_le Numeral.isDecimalDigit cs
    simp only [integral?] at h
    grind

theorem length_digitsAfter (mark whole digits : List Char) (h : digits.length ≤ whole.length) :
    (digitsAfter mark whole digits).2.length ≤ whole.length := by
  cases digits with
  | nil => simp [digitsAfter]
  | cons d rest =>
    have := length_dropWhile_le Numeral.isDecimalDigit rest
    simp only [digitsAfter]
    grind

theorem length_fraction (cs : List Char) : (fraction cs).2.length ≤ cs.length := by
  unfold fraction
  split
  · exact length_digitsAfter _ _ _ (by simp)
  · simp

theorem length_exponent (cs : List Char) : (exponent cs).2.length ≤ cs.length := by
  unfold exponent
  split
  · simp
  · split
    · split <;> exact length_digitsAfter _ _ _ (by simp; try omega)
    · simp

theorem length_unsigned? {negative : Bool} {cs rest : List Char} {v : Json}
    (h : unsigned? negative cs = some (v, rest)) : rest.length < cs.length := by
  simp only [unsigned?, Option.map_eq_some_iff, Prod.exists] at h
  obtain ⟨digits, r, hi, h⟩ := h
  have h₁ := length_integral? hi
  have h₂ := length_fraction r
  have h₃ := length_exponent (fraction r).2
  grind

theorem length_number? {cs rest : List Char} {v : Json} (h : number? cs = some (v, rest)) :
    rest.length < cs.length := by
  unfold number? at h
  split at h
  · have := length_unsigned? h
    simp only [List.length_cons]
    omega
  · exact length_unsigned? h

theorem length_literal? {cs rest : List Char} {v : Json} (h : literal? cs = some (v, rest)) :
    rest.length < cs.length := by
  unfold literal? at h
  split at h <;> simp_all <;> omega

/-- A lexeme takes at least one character. -/
theorem length_of_next {cs rest : List Char} {t : Lexeme} (h : next cs = some (t, rest)) :
    rest.length < cs.length := by
  unfold next at h
  split at h
  case h_7 rest' =>
    obtain ⟨⟨units, r⟩, hs, heq⟩ := Option.map_eq_some_iff.1 h
    have := length_of_scanString hs
    grind
  case h_8 =>
    obtain ⟨⟨v, r⟩, hs, heq⟩ := Option.map_eq_some_iff.1 h
    rcases Option.or_eq_some_iff.1 hs with hs | ⟨-, hs⟩
    · have := length_literal? hs
      grind
    · have := length_number? hs
      grind
  all_goals grind

/-! ### All lexemes -/

/-- A character that separates lexemes. -/
def isSpace (c : Char) : Bool := c = ' ' || c = '\t' || c = '\n' || c = '\r'

/-- The lexemes of a text, if it consists of lexemes and blanks. -/
def scan (cs : List Char) : Option (List Lexeme) :=
  match cs with
  | [] => some []
  | c :: rest =>
    if isSpace c then scan rest
    else
      match _h : next (c :: rest) with
      | none => none
      | some (t, rest') => (scan rest').map (t :: ·)
termination_by cs.length
decreasing_by
  · simp
  · exact length_of_next ‹_›

end Lexeme

end A64Text.Json
