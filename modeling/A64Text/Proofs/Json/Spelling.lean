import A64Text.Json.Printer
import A64Text.Json.Lexeme
import A64Text.Proofs.Numeral

/-!
# What characters of a JSON text spell

`Spells cs ts` says that the characters `cs` are scanned as the lexemes `ts`, in front of everything
that cannot continue a number: only a number has no end of its own. The statements are about what
the writer writes: brackets and separators, truth values, integers, and strings without a character
that is escaped.
-/

namespace A64Text

/-! ### Code points of texts -/

namespace Text

/-- The code point of a character is no unit of a pair. -/
theorem isScalar_toNat (c : Char) : isScalar c.toNat = true := by
  have hvalid := c.valid
  simp only [UInt32.isValidChar, Nat.isValidChar] at hvalid
  simp only [isScalar, isHighUnit, isLowUnit, Char.toNat, Bool.and_eq_true, Bool.not_eq_true',
    Bool.and_eq_false_iff, decide_eq_false_iff_not]
  omega

theorem isScalar_of_mem_points {s : String} {n : Nat} (h : n ∈ points s) : isScalar n = true := by
  obtain ⟨c, -, rfl⟩ := List.mem_map.1 h
  exact isScalar_toNat c

/-- Code points without units of pairs stay apart. -/
theorem joinPairs_eq_self {ps : List Nat} (h : ∀ n ∈ ps, isScalar n = true) : joinPairs ps = ps := by
  induction ps with
  | nil => rfl
  | cons n ps ih =>
    obtain ⟨hn, hps⟩ := List.forall_mem_cons.1 h
    cases ps with
    | nil => rfl
    | cons low rest =>
      have hhigh : isHighUnit n = false := by simp_all [isScalar]
      rw [joinPairs, hhigh, Bool.false_and, if_neg Bool.false_ne_true, ih hps]

/-- A text comes back from its code points. -/
theorem ofPoints_points (s : String) : ofPoints (points s) = s := by
  have hchar : ∀ c : Char, charOfPoint c.toNat = c := by
    intro c
    rw [charOfPoint, if_pos (isScalar_toNat c), Char.ofNat_toNat]
  rw [ofPoints, points, List.map_map]
  have hmap : s.toList.map (charOfPoint ∘ Char.toNat) = s.toList.map id :=
    List.map_congr_left fun c _ ↦ hchar c
  rw [hmap, List.map_id, String.ofList_toList]

end Text

namespace Json

theorem ofPoints_points (s : String) : ofPoints (Text.points s) = str s := by
  have hscalar : (Text.points s).all Text.isScalar = true :=
    List.all_eq_true.2 fun n hn ↦ Text.isScalar_of_mem_points hn
  rw [ofPoints, if_pos hscalar, Text.ofPoints_points]

/-! ### Texts that are written as they are -/

/-- A character that stands for itself inside a JSON string. -/
def isPlainChar (c : Char) : Bool := 0x20 ≤ c.toNat && c.toNat ≤ 0x7E && c ≠ '"' && c ≠ '\\'

/-- A text that stands for itself inside a JSON string. -/
def isPlainText (s : String) : Bool := s.toList.all isPlainChar

theorem isPlainChar_iff {c : Char} :
    isPlainChar c = true ↔ 0x20 ≤ c.toNat ∧ c.toNat ≤ 0x7E ∧ c ≠ '"' ∧ c ≠ '\\' := by
  simp [isPlainChar, and_assoc]

theorem writePoint_of_isPlainChar {c : Char} (h : isPlainChar c = true) :
    writePoint c.toNat = String.singleton c := by
  obtain ⟨hlow, hhigh, hquote, hslash⟩ := isPlainChar_iff.1 h
  have hne : ∀ d : Char, c ≠ d → c.toNat ≠ d.toNat := fun d hd heq ↦ hd (Char.toNat_inj.1 heq)
  have hcontrol : ∀ d : Char, d.toNat < 0x20 → c.toNat ≠ d.toNat := fun d hd ↦ by omega
  have hrange : (0x20 ≤ c.toNat && c.toNat ≤ 0x7E) = true := by simp [hlow, hhigh]
  rw [writePoint, if_neg (hne _ hquote), if_neg (hne _ hslash), if_neg (hcontrol '\n' (by decide)),
    if_neg (hcontrol '\r' (by decide)), if_neg (hcontrol '\t' (by decide)), if_neg (by omega),
    if_neg (by omega), if_pos hrange, Char.ofNat_toNat]

/-- A plain text is written between quotes, and otherwise as it is. -/
theorem toList_writeString {s : String} (h : isPlainText s = true) :
    (writeString s).toList = '"' :: (s.toList ++ ['"']) := by
  have hchars : ∀ cs : List Char, (∀ c ∈ cs, isPlainChar c = true) →
      (cs.map (writePoint ∘ Char.toNat)).flatMap String.toList = cs := by
    intro cs hcs
    induction cs with
    | nil => rfl
    | cons c cs ih =>
      obtain ⟨hc, hcs⟩ := List.forall_mem_cons.1 hcs
      rw [List.map_cons, List.flatMap_cons, ih hcs, Function.comp_apply,
        writePoint_of_isPlainChar hc]
      simp
  simp [writeString, writePoints, Text.points, hchars s.toList (List.all_eq_true.1 h)]

namespace Lexeme

/-! ### Scanning in front of a rest -/

/-- Characters that cannot continue a number. -/
def Closed (rest : List Char) : Prop :=
  ∀ c, rest.head? = some c → Numeral.isDecimalDigit c = false ∧ c ≠ '.' ∧ c ≠ 'e' ∧ c ≠ 'E'

/-- Characters that are scanned as these lexemes in front of what cannot continue them. -/
def Spells (cs : List Char) (ts : List Lexeme) : Prop :=
  ∀ rest, Closed rest → scan (cs ++ rest) = (scan rest).map (ts ++ ·)

variable {c : Char} {cs ds rest : List Char} {t : Lexeme} {ts us : List Lexeme}

theorem closed_nil : Closed [] := by simp [Closed]

theorem closed_cons (h : Numeral.isDecimalDigit c = false ∧ c ≠ '.' ∧ c ≠ 'e' ∧ c ≠ 'E') :
    Closed (c :: rest) := by
  intro d hd
  obtain rfl : c = d := by simpa using hd
  exact h

theorem Closed.append (h : Closed cs) (hrest : Closed rest) : Closed (cs ++ rest) := by
  cases cs with
  | nil => exact hrest
  | cons c cs => exact closed_cons (h c rfl)

theorem closed_of_isSpace (h : ∀ c ∈ cs, isSpace c = true) : Closed cs := by
  intro c hc
  have hspace := h c (List.mem_of_mem_head? hc)
  simp only [isSpace, Bool.or_eq_true, decide_eq_true_eq] at hspace
  rcases hspace with ((rfl | rfl) | rfl) | rfl <;> decide

theorem spells_nil : Spells [] [] := by
  intro rest _
  simp

/-- Lexemes are put together where the second text cannot continue the first. -/
theorem Spells.append (hcs : Spells cs ts) (hds : Spells ds us) (hclosed : Closed ds) :
    Spells (cs ++ ds) (ts ++ us) := by
  intro rest hrest
  rw [List.append_assoc, hcs _ (hclosed.append hrest), hds _ hrest, Option.map_map]
  congr 1
  funext vs
  simp

theorem scan_cons (hspace : isSpace c = false) (hnext : next (c :: cs) = some (t, rest)) :
    scan (c :: cs) = (scan rest).map (t :: ·) := by
  rw [scan, if_neg (Bool.eq_false_iff.1 hspace)]
  split
  · rename_i heq
    rw [heq] at hnext
    cases hnext
  · rename_i heq
    rw [heq] at hnext
    obtain ⟨rfl, rfl⟩ := Prod.mk.inj (Option.some.inj hnext)
    rfl

/-- Characters at whose front a lexeme is found that takes all of them. -/
theorem spells_of_next (hspace : isSpace c = false)
    (hnext : ∀ rest, Closed rest → next (c :: cs ++ rest) = some (t, rest)) :
    Spells (c :: cs) [t] := by
  intro rest hrest
  have hscan := scan_cons hspace (hnext rest hrest)
  exact hscan

/-- In front of everything stands a character that is a lexeme by itself. -/
theorem Spells.cons (hspace : isSpace c = false) (hnext : ∀ rest, next (c :: rest) = some (t, rest))
    (h : Spells cs ts) : Spells (c :: cs) (t :: ts) := by
  intro rest hrest
  rw [List.cons_append, scan_cons hspace (hnext _), h rest hrest, Option.map_map]
  rfl

/-- Blanks in front are dropped. -/
theorem Spells.spaces (hds : ∀ c ∈ ds, isSpace c = true) (h : Spells cs ts) :
    Spells (ds ++ cs) ts := by
  intro rest hrest
  induction ds with
  | nil => exact h rest hrest
  | cons d ds ih =>
    obtain ⟨hd, hds⟩ := List.forall_mem_cons.1 hds
    rw [List.cons_append, List.cons_append, scan, if_pos hd]
    exact ih hds

/-! ### Scalars and strings -/

theorem spells_true : Spells "true".toList [.scalar (.bool true)] :=
  spells_of_next (by decide) fun _ _ ↦ rfl

theorem spells_false : Spells "false".toList [.scalar (.bool false)] :=
  spells_of_next (by decide) fun _ _ ↦ rfl

theorem scanString_cons (h : isPlainChar c = true) (cs : List Char) :
    scanString (c :: cs) = (scanString cs).map fun r ↦ (c.toNat :: r.1, r.2) := by
  obtain ⟨hlow, -, hquote, hslash⟩ := isPlainChar_iff.1 h
  rw [scanString.eq_def]
  split
  · rename_i heq
    cases heq
  · rename_i heq
    exact absurd (List.cons.inj heq).1 hquote
  · rename_i heq
    exact absurd (List.cons.inj heq).1 hslash
  · rename_i heq
    exact absurd (List.cons.inj heq).1 hslash
  · rename_i heq
    obtain ⟨rfl, rfl⟩ := List.cons.inj heq
    rw [if_neg (by omega)]

/-- A plain text is read up to its closing quote. -/
theorem scanString_append (h : ∀ c ∈ cs, isPlainChar c = true) (rest : List Char) :
    scanString (cs ++ '"' :: rest) = some (cs.map Char.toNat, rest) := by
  induction cs with
  | nil => simp [scanString]
  | cons c cs ih =>
    obtain ⟨hc, hcs⟩ := List.forall_mem_cons.1 h
    rw [List.cons_append, scanString_cons hc, ih hcs]
    rfl

/-- A plain text that is written is scanned as its code points. -/
theorem spells_writeString {s : String} (h : isPlainText s = true) :
    Spells (writeString s).toList [.str (Text.points s)] := by
  rw [toList_writeString h]
  refine spells_of_next (by decide) ?_
  intro rest _
  have hscan := scanString_append (List.all_eq_true.1 h) rest
  have hjoin : Text.joinPairs (Text.points s) = Text.points s :=
    Text.joinPairs_eq_self fun n hn ↦ Text.isScalar_of_mem_points hn
  show (scanString (s.toList ++ ['"'] ++ rest)).map _ = _
  rw [List.append_assoc, List.singleton_append, hscan, Option.map_some]
  exact congrArg (fun ps ↦ some (Lexeme.str ps, rest)) hjoin

/-! ### Integers -/

theorem Closed.fraction_eq (h : Closed rest) : fraction rest = ([], rest) := by
  unfold fraction
  split
  · exact absurd rfl (h _ rfl).2.1
  · rfl

theorem Closed.exponent_eq (h : Closed rest) : exponent rest = ([], rest) := by
  cases rest with
  | nil => rfl
  | cons c rest =>
    obtain ⟨-, -, he, hE⟩ := h c rfl
    simp [exponent, he, hE]

/-- The digits of a number are its integral part. -/
theorem integral?_toDigits (n : Nat) (h : Closed rest) :
    integral? (Nat.toDigits 10 n ++ rest) = some (Nat.toDigits 10 n, rest) := by
  rcases Nat.eq_zero_or_pos n with rfl | hn
  · rfl
  · obtain ⟨c, digits, heq, hc⟩ := Numeral.toDigits_eq_cons hn
    have hdigits : ∀ d ∈ c :: digits, Numeral.isDecimalDigit d = true :=
      fun d hd ↦ Numeral.isDecimalDigit_of_mem (n := n) (by rwa [heq])
    obtain ⟨hfirst, hothers⟩ := List.forall_mem_cons.1 hdigits
    obtain ⟨htake, hdrop⟩ := Text.span_append hothers fun d hd ↦ (h d hd).1
    rw [heq, List.cons_append, integral?, if_neg hc, if_pos hfirst, htake, hdrop]

/-- The digits of a number are a number without fraction and exponent. -/
theorem unsigned?_toDigits (negative : Bool) (n : Nat) (h : Closed rest) :
    unsigned? negative (Nat.toDigits 10 n ++ rest) =
      some (.int (if negative then -n else n), rest) := by
  have hvalue : Numeral.value 10 (Nat.toDigits 10 n) = n :=
    Numeral.value_toDigits (by decide) (by decide) n
  simp [unsigned?, integral?_toDigits n h, h.fraction_eq, h.exponent_eq, numberValue, hvalue]

/-- A digit starts a number, and nothing else. -/
theorem next_of_isDecimalDigit (h : Numeral.isDecimalDigit c = true) (cs : List Char) :
    isSpace c = false ∧
      next (c :: cs) = (unsigned? false (c :: cs)).map fun r ↦ (.scalar r.1, r.2) := by
  have hne : ∀ d : Char, Numeral.isDecimalDigit d = false → c ≠ d := by
    rintro d hd rfl
    rw [h] at hd
    cases hd
  refine ⟨by simp [isSpace, hne ' ' rfl, hne '\t' rfl, hne '\n' rfl, hne '\r' rfl], ?_⟩
  have hliteral : literal? (c :: cs) = none := by
    unfold literal?
    split
    case h_7 => rfl
    all_goals
      rename_i heq
      exact absurd (List.cons.inj heq).1 (hne _ rfl)
  have hnumber : number? (c :: cs) = unsigned? false (c :: cs) := by
    unfold number?
    split
    · rename_i heq
      exact absurd (List.cons.inj heq).1 (hne _ rfl)
    · rfl
  unfold next
  split
  case h_8 =>
    rw [hliteral, hnumber]
    rfl
  all_goals
    rename_i heq
    exact absurd (List.cons.inj heq).1 (hne _ rfl)

/-- An integer that is written is scanned as that integer. -/
theorem spells_decimal (n : Int) : Spells (Numeral.decimal n).toList [.scalar (.int n)] := by
  have hdigit : ∀ m, ∀ c ∈ Nat.toDigits 10 m, Numeral.isDecimalDigit c = true :=
    fun m c hc ↦ Numeral.isDecimalDigit_of_mem hc
  cases n with
  | ofNat m =>
    rw [Int.ofNat_eq_natCast, Numeral.toList_decimal_ofNat]
    obtain ⟨c, cs, heq⟩ := List.exists_cons_of_ne_nil (Nat.toDigits_ne_nil (n := m) (b := 10))
    have hc := hdigit m c (by simp [heq])
    rw [heq]
    refine spells_of_next (next_of_isDecimalDigit hc []).1 ?_
    intro rest hrest
    rw [List.cons_append, (next_of_isDecimalDigit hc _).2, ← List.cons_append, ← heq,
      unsigned?_toDigits false m hrest]
    rfl
  | negSucc m =>
    rw [Numeral.toList_decimal_neg]
    obtain ⟨c, cs, heq⟩ :=
      List.exists_cons_of_ne_nil (Nat.toDigits_ne_nil (n := m + 1) (b := 10))
    have hc := hdigit (m + 1) c (by simp [heq])
    refine spells_of_next (by decide) ?_
    intro rest hrest
    -- A minus sign is also where the word for negative infinity starts.
    have hword : literal? ('-' :: (c :: cs ++ rest)) = none := by
      unfold literal?
      split
      case h_6 heq' =>
        obtain rfl := (List.cons.inj (List.cons.inj heq').2).1
        exact absurd hc (by decide)
      case h_7 => rfl
      all_goals
        rename_i heq'
        exact absurd (List.cons.inj heq').1 (by decide)
    have hunsigned := unsigned?_toDigits true (m + 1) hrest
    rw [heq] at hunsigned ⊢
    show ((literal? ('-' :: (c :: cs ++ rest))).or (unsigned? true (c :: cs ++ rest))).map _ = _
    rw [hword, hunsigned]
    rfl

end Lexeme

end Json

end A64Text
