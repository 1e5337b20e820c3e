import A64Text.Text.Numeral

/-!
# Lexemes of a line

The first half of reading a line: from characters to words, numbers and punctuation. A word is a
mnemonic, a name or a keyword, and may stand in angle brackets, as placeholders do. A number may
carry a sign and is hexadecimal behind `0x`. Words and numbers are as long as they can be; spaces,
tabs, form feeds and line ends between lexemes are dropped.

A lexeme keeps its spelling, and `append_of_next` says that the spelling and the rest make up the
text that was scanned: nothing is lost, and every lexeme takes at least one character.
-/

namespace A64Text.Line

/-- A lexeme of a line. -/
inductive Lexeme where
  | word (spelling : List Char)
  | number (spelling : List Char)
  | beginMemory
  | endMemory
  | comma
  | hash
  | bang
  deriving DecidableEq, Repr

namespace Lexeme

/-- The characters of a lexeme. -/
def spelling : Lexeme → List Char
  | word cs | number cs => cs
  | beginMemory => ['[']
  | endMemory => [']']
  | comma => [',']
  | hash => ['#']
  | bang => ['!']

/-! ### Words -/

/-- A character that starts a word. -/
def isWordStart (c : Char) : Bool := c.isAlpha || c = '_'

/-- A character inside a word. -/
def isWordPart (c : Char) : Bool := c.isAlphanum || c = '_' || c = '.'

/-- The end of a word: what can continue it, and a closing angle bracket. -/
def wordTail (cs : List Char) : List Char × List Char :=
  match cs.dropWhile isWordPart with
  | '>' :: rest => (cs.takeWhile isWordPart ++ ['>'], rest)
  | rest => (cs.takeWhile isWordPart, rest)

/-- The word at the front of a text. -/
def word? : List Char → Option (List Char × List Char)
  | '<' :: c :: rest =>
    if isWordStart c then some ('<' :: c :: (wordTail rest).1, (wordTail rest).2) else none
  | c :: rest => if isWordStart c then some (c :: (wordTail rest).1, (wordTail rest).2) else none
  | [] => none

/-! ### Numbers -/

/-- Decimal digits at the front of a text. -/
def decimal? : List Char → Option (List Char × List Char)
  | d :: rest =>
    if Numeral.isDecimalDigit d then
      some (d :: rest.takeWhile Numeral.isDecimalDigit, rest.dropWhile Numeral.isDecimalDigit)
    else none
  | [] => none

/-- The radix mark and hexadecimal digits at the front of a text. -/
def hexadecimal? : List Char → Option (List Char × List Char)
  | '0' :: x :: d :: rest =>
    if (x = 'x' || x = 'X') && Numeral.isHexDigit d then
      some ('0' :: x :: d :: rest.takeWhile Numeral.isHexDigit,
        rest.dropWhile Numeral.isHexDigit)
    else none
  | _ => none

/-- A number without its sign. A radix mark without a digit behind it is no mark. -/
def unsigned? (cs : List Char) : Option (List Char × List Char) :=
  (hexadecimal? cs).or (decimal? cs)

/-- The number at the front of a text. -/
def number? : List Char → Option (List Char × List Char)
  | '+' :: rest => (unsigned? rest).map fun r ↦ ('+' :: r.1, r.2)
  | '-' :: rest => (unsigned? rest).map fun r ↦ ('-' :: r.1, r.2)
  | cs => unsigned? cs

/-- The value of the spelling of a number without its sign. -/
def unsignedValue : List Char → Nat
  | '0' :: x :: digits =>
    if x = 'x' || x = 'X' then Numeral.value 16 digits else Numeral.value 10 ('0' :: x :: digits)
  | digits => Numeral.value 10 digits

/-- The value of the spelling of a number. -/
def numberValue : List Char → Int
  | '+' :: cs => unsignedValue cs
  | '-' :: cs => -unsignedValue cs
  | cs => unsignedValue cs

/-! ### The lexeme at the front -/

/-- The lexeme at the front of a text that does not start with a blank, and what follows it. -/
def next : List Char → Option (Lexeme × List Char)
  | '[' :: rest => some (beginMemory, rest)
  | ']' :: rest => some (endMemory, rest)
  | ',' :: rest => some (comma, rest)
  | '#' :: rest => some (hash, rest)
  | '!' :: rest => some (bang, rest)
  | cs =>
    ((word? cs).map fun r ↦ (word r.1, r.2)).or ((number? cs).map fun r ↦ (number r.1, r.2))

theorem append_wordTail (cs : List Char) : (wordTail cs).1 ++ (wordTail cs).2 = cs := by
  have h := List.takeWhile_append_dropWhile (p := isWordPart) (l := cs)
  unfold wordTail
  split <;> simp_all

theorem append_of_word? {cs w rest : List Char} (h : word? cs = some (w, rest)) :
    w ++ rest = cs ∧ w ≠ [] := by
  unfold word? at h
  split at h <;> simp_all
  all_goals
    obtain ⟨-, rfl, rfl⟩ := h
    simp [append_wordTail]

theorem append_of_decimal? {cs w rest : List Char} (h : decimal? cs = some (w, rest)) :
    w ++ rest = cs ∧ w ≠ [] := by
  unfold decimal? at h
  split at h <;> simp_all
  obtain ⟨-, rfl, rfl⟩ := h
  simp

theorem append_of_hexadecimal? {cs w rest : List Char} (h : hexadecimal? cs = some (w, rest)) :
    w ++ rest = cs ∧ w ≠ [] := by
  unfold hexadecimal? at h
  split at h <;> simp_all
  obtain ⟨-, rfl, rfl⟩ := h
  simp

theorem append_of_unsigned? {cs w rest : List Char} (h : unsigned? cs = some (w, rest)) :
    w ++ rest = cs ∧ w ≠ [] := by
  rcases Option.or_eq_some_iff.1 h with h | ⟨-, h⟩
  · exact append_of_hexadecimal? h
  · exact append_of_decimal? h

theorem append_of_number? {cs w rest : List Char} (h : number? cs = some (w, rest)) :
    w ++ rest = cs ∧ w ≠ [] := by
  unfold number? at h
  split at h
  · obtain ⟨r, hr, heq⟩ := Option.map_eq_some_iff.1 h
    have := append_of_unsigned? hr
    grind
  · obtain ⟨r, hr, heq⟩ := Option.map_eq_some_iff.1 h
    have := append_of_unsigned? hr
    grind
  · exact append_of_unsigned? h

/-- A lexeme and the rest make up the text, and the lexeme takes at least one character. -/
theorem append_of_next {cs rest : List Char} {t : Lexeme} (h : next cs = some (t, rest)) :
    t.spelling ++ rest = cs ∧ t.spelling ≠ [] := by
  unfold next at h
  split at h
  case h_6 =>
    rcases Option.or_eq_some_iff.1 h with h | ⟨-, h⟩
    · obtain ⟨r, hr, heq⟩ := Option.map_eq_some_iff.1 h
      have := append_of_word? hr
      grind [spelling]
    · obtain ⟨r, hr, heq⟩ := Option.map_eq_some_iff.1 h
      have := append_of_number? hr
      grind [spelling]
  all_goals grind [spelling]

theorem length_of_next {cs rest : List Char} {t : Lexeme} (h : next cs = some (t, rest)) :
    rest.length < cs.length := by
  obtain ⟨happ, hne⟩ := append_of_next h
  have := List.length_pos_iff.2 hne
  rw [← happ, List.length_append]
  omega

/-! ### All lexemes -/

/-- A character that separates lexemes. -/
def isSpace (c : Char) : Bool :=
  c = ' ' || c = '\t' || c = '\r' || c = '\n' || c.toNat = 0x0C

/-- The column behind a character: one after a line feed, else the next one. -/
def columnAfter (column : Nat) (c : Char) : Nat := if c = '\n' then 1 else column + 1

/-- What scanning finds: lexemes with the columns they start at, and the column of the first
character at which no lexeme starts, if there is one. -/
structure Scan where
  lexemes : List (Nat × Lexeme)
  stop? : Option Nat
  deriving DecidableEq, Repr

/-- Scans a text that starts at a column. -/
def scan (column : Nat) (cs : List Char) : Scan :=
  match cs with
  | [] => ⟨[], none⟩
  | c :: rest =>
    if isSpace c then scan (columnAfter column c) rest
    else
      match _h : next (c :: rest) with
      | none => ⟨[], some column⟩
      | some (t, rest') =>
        let found := scan (column + t.spelling.length) rest'
        ⟨(column, t) :: found.lexemes, found.stop?⟩
termination_by cs.length
decreasing_by
  · simp
  · exact length_of_next ‹_›

end Lexeme

end A64Text.Line
