import A64Text.Line.Reader
import A64Text.Proofs.Line.Ends
import A64Text.Proofs.Numeral

/-!
# Words and numbers that are written

A text is a mnemonic or a name if it is one word and reading keeps it, but for the case of its
letters. Every text that starts with a letter and goes on with letters, digits, underscores and dots
is a word (`isWord_cons`). A numeral in base ten or sixteen is one number, and what is read is the
number that it was written for (`spellsNumber_hex`, `spellsNumber_decimal`).
-/

namespace A64Text

open Line Lexeme

/-! ### Words -/

/-- A text that is one word in lower-case. -/
def IsMnemonic (s : String) : Prop := IsWord s.toList ∧ normalMnemonic s.toList = s

instance (s : String) : Decidable (IsMnemonic s) := inferInstanceAs (Decidable (_ ∧ _))

/-- A text that is one word, and no second name of a register. -/
def IsName (s : String) : Prop := IsWord s.toList ∧ normalName s.toList = Text.lowerAscii s

instance (s : String) : Decidable (IsName s) := inferInstanceAs (Decidable (_ ∧ _))

namespace Line

theorem Lexeme.isWord_cons {c : Char} {cs : List Char} (hc : isWordStart c = true)
    (hcs : ∀ d ∈ cs, isWordPart d = true) : IsWord (c :: cs) := by
  have htail : wordTail cs = (cs, []) := by
    rw [wordTail, List.dropWhile_eq_nil_iff.2 hcs, List.takeWhile_eq_self_iff.2 hcs]
  have hlt : c ≠ '<' := by
    rintro rfl
    exact absurd hc (by decide)
  simp [IsWord, word?, hlt, hc, htail]

/-- Second names of registers start with one of two letters, so other words keep their name. -/
theorem normalName_cons {c : Char} (hc : c.toLower ≠ 'f' ∧ c.toLower ≠ 'l') (cs : List Char) :
    normalName (c :: cs) = normalMnemonic (c :: cs) := by
  have hname : (normalMnemonic (c :: cs)).toList = c.toLower :: cs.map Char.toLower :=
    String.toList_ofList
  have hfp : normalMnemonic (c :: cs) ≠ "fp" := by
    intro h
    rw [h] at hname
    exact hc.1 (List.cons.inj hname).1.symm
  have hlr : normalMnemonic (c :: cs) ≠ "lr" := by
    intro h
    rw [h] at hname
    exact hc.2 (List.cons.inj hname).1.symm
  simp [normalName, registerAliases, List.lookup_cons, beq_false_of_ne hfp, beq_false_of_ne hlr]

end Line

theorem isName_of_toList {s : String} {c : Char} {cs : List Char} (hs : s.toList = c :: cs)
    (hc : isWordStart c = true) (hc' : c.toLower ≠ 'f' ∧ c.toLower ≠ 'l')
    (hcs : ∀ d ∈ cs, isWordPart d = true) : IsName s := by
  constructor
  · rw [hs]
    exact isWord_cons hc hcs
  · rw [hs, normalName_cons hc', normalMnemonic, Text.lowerAscii, hs]

/-- The digits of a numeral can stand inside a word. -/
theorem isWordPart_of_mem_decimal {n : Nat} {c : Char} (h : c ∈ (Numeral.decimal n).toList) :
    isWordPart c = true := by
  rw [Numeral.toList_decimal_ofNat] at h
  exact isWordPart_of_isDecimalDigit (Numeral.isDecimalDigit_of_mem h)

/-! ### Numbers -/

namespace Line.Lexeme

/-- A decimal digit is no radix mark. -/
theorem radixMark_eq_false {x : Char} (hx : Numeral.isDecimalDigit x = true) :
    (x = 'x' || x = 'X') = false := by
  simp only [Bool.or_eq_false_iff, decide_eq_false_iff_not]
  constructor <;> rintro rfl <;> exact absurd hx (by decide)

theorem unsigned?_digits {cs : List Char} (hne : cs ≠ [])
    (h : ∀ c ∈ cs, Numeral.isDecimalDigit c = true) : unsigned? cs = some (cs, []) := by
  cases cs with
  | nil => exact absurd rfl hne
  | cons d digits =>
    have hhex : hexadecimal? (d :: digits) = none := by
      unfold hexadecimal?
      split
      · rename_i x e rest heq
        obtain ⟨rfl, rfl⟩ := List.cons.inj heq
        rw [radixMark_eq_false (h x (by simp)), Bool.false_and]
        rfl
      · rfl
    have hdigits : ∀ c ∈ digits, Numeral.isDecimalDigit c = true := fun c hc ↦ h c (by simp [hc])
    rw [unsigned?, hhex, Option.none_or, decimal?, if_pos (h d (by simp)),
      List.takeWhile_eq_self_iff.2 hdigits, List.dropWhile_eq_nil_iff.2 hdigits]

theorem unsignedValue_digits {cs : List Char} (h : ∀ c ∈ cs, Numeral.isDecimalDigit c = true) :
    unsignedValue cs = Numeral.value 10 cs := by
  unfold unsignedValue
  split
  · rename_i x digits
    rw [radixMark_eq_false (h x (by simp))]
    rfl
  · rfl

theorem unsigned?_hexDigits {cs : List Char} (hne : cs ≠ [])
    (h : ∀ c ∈ cs, Numeral.isHexDigit c = true) :
    unsigned? ('0' :: 'x' :: cs) = some ('0' :: 'x' :: cs, []) := by
  cases cs with
  | nil => exact absurd rfl hne
  | cons d digits =>
    have hdigits : ∀ c ∈ digits, Numeral.isHexDigit c = true := fun c hc ↦ h c (by simp [hc])
    have hmark : (('x' = 'x' || 'x' = 'X') && Numeral.isHexDigit d) = true := by
      simp [h d (by simp)]
    rw [unsigned?, hexadecimal?, if_pos hmark, List.takeWhile_eq_self_iff.2 hdigits,
      List.dropWhile_eq_nil_iff.2 hdigits, Option.some_or]

/-- A number without a sign is a number. -/
theorem isNumber_of_unsigned? {c : Char} {cs : List Char} (hc : Numeral.isDecimalDigit c = true)
    (h : unsigned? (c :: cs) = some (c :: cs, [])) :
    IsNumber (c :: cs) ∧ numberValue (c :: cs) = unsignedValue (c :: cs) := by
  have hplus : c ≠ '+' := by
    rintro rfl
    exact absurd hc (by decide)
  have hminus : c ≠ '-' := by
    rintro rfl
    exact absurd hc (by decide)
  refine ⟨?_, ?_⟩
  · unfold IsNumber number?
    split
    · rename_i heq
      exact absurd (List.cons.inj heq).1 hplus
    · rename_i heq
      exact absurd (List.cons.inj heq).1 hminus
    · exact h
  · unfold numberValue
    split
    · rename_i heq
      exact absurd (List.cons.inj heq).1 hplus
    · rename_i heq
      exact absurd (List.cons.inj heq).1 hminus
    · rfl

/-- A number behind a minus sign is a number. -/
theorem isNumber_neg {cs : List Char} (h : unsigned? cs = some (cs, [])) :
    IsNumber ('-' :: cs) ∧ numberValue ('-' :: cs) = -unsignedValue cs := by
  refine ⟨?_, rfl⟩
  simp [IsNumber, number?, h]

/-- Characters that are one number, with its value and without a blank at their end. -/
def SpellsNumber (cs : List Char) (n : Int) : Prop :=
  IsNumber cs ∧ numberValue cs = n ∧ EndsSolid cs

theorem endsSolid_toDigits {base m : Nat}
    (h : ∀ c ∈ Nat.toDigits base m, isWordPart c = true) : EndsSolid (Nat.toDigits base m) :=
  endsSolid_of_forall Nat.toDigits_ne_nil fun c hc ↦ isBlank_of_isWordPart (h c hc)

/-- A numeral in base ten is one number, with the value that it was written for. -/
theorem spellsNumber_decimal (n : Int) : SpellsNumber (Numeral.decimal n).toList n := by
  have hdigits : ∀ m, ∀ c ∈ Nat.toDigits 10 m, Numeral.isDecimalDigit c = true :=
    fun m c hc ↦ Numeral.isDecimalDigit_of_mem hc
  have hvalue : ∀ m, unsignedValue (Nat.toDigits 10 m) = m := by
    intro m
    rw [unsignedValue_digits (hdigits m), Numeral.value_toDigits (by decide) (by decide)]
  have hsolid : ∀ m, EndsSolid (Nat.toDigits 10 m) :=
    fun m ↦ endsSolid_toDigits fun c hc ↦ isWordPart_of_isDecimalDigit (hdigits m c hc)
  cases n with
  | ofNat m =>
    rw [Int.ofNat_eq_natCast, Numeral.toList_decimal_ofNat]
    have hunsigned := unsigned?_digits Nat.toDigits_ne_nil (hdigits m)
    obtain ⟨c, cs, heq⟩ := List.exists_cons_of_ne_nil (Nat.toDigits_ne_nil (n := m) (b := 10))
    have hc := hdigits m c (by simp [heq])
    have hm := hvalue m
    have hend := hsolid m
    rw [heq] at hunsigned hm hend ⊢
    obtain ⟨hnumber, hval⟩ := isNumber_of_unsigned? hc hunsigned
    exact ⟨hnumber, by rw [hval, hm], hend⟩
  | negSucc m =>
    rw [Numeral.toList_decimal_neg]
    obtain ⟨hnumber, hval⟩ := isNumber_neg (unsigned?_digits Nat.toDigits_ne_nil (hdigits (m + 1)))
    refine ⟨hnumber, ?_, (hsolid (m + 1)).cons _⟩
    rw [hval, hvalue, Int.negSucc_eq, Int.natCast_add, Int.natCast_one]

/-- A numeral in base sixteen is one number, with the value that it was written for. -/
theorem spellsNumber_hex (n : Int) : SpellsNumber (Numeral.hex n).toList n := by
  have hunsigned : ∀ m, unsigned? ('0' :: 'x' :: Nat.toDigits 16 m) =
      some ('0' :: 'x' :: Nat.toDigits 16 m, []) :=
    fun m ↦ unsigned?_hexDigits Nat.toDigits_ne_nil fun c hc ↦ Numeral.isHexDigit_of_mem hc
  have hvalue : ∀ m, unsignedValue ('0' :: 'x' :: Nat.toDigits 16 m) = m :=
    fun m ↦ Numeral.value_toDigits (by decide) (by decide) m
  have hsolid : ∀ m, EndsSolid ('0' :: 'x' :: Nat.toDigits 16 m) := by
    intro m
    refine EndsSolid.cons (EndsSolid.cons (endsSolid_toDigits fun c hc ↦ ?_) _) _
    exact isWordPart_of_isHexDigit (Numeral.isHexDigit_of_mem hc)
  cases n with
  | ofNat m =>
    rw [Int.ofNat_eq_natCast, Numeral.toList_hex_ofNat]
    obtain ⟨hnumber, hval⟩ := isNumber_of_unsigned? (by decide) (hunsigned m)
    exact ⟨hnumber, by rw [hval, hvalue], hsolid m⟩
  | negSucc m =>
    rw [Numeral.toList_hex_neg]
    obtain ⟨hnumber, hval⟩ := isNumber_neg (hunsigned (m + 1))
    refine ⟨hnumber, ?_, (hsolid (m + 1)).cons _⟩
    rw [hval, hvalue, Int.negSucc_eq, Int.natCast_add, Int.natCast_one]

end Line.Lexeme

end A64Text
