import A64Text.Line.Lexeme
import A64Text.Proofs.Numeral

/-!
# What characters spell

`Spells cs ts` says that scanning the characters `cs` finds the lexemes `ts` and stops nowhere,
whatever the column it starts at. A word or a number that is scanned alone is scanned in front of
other characters too, if those cannot continue it: that is a `Boundary`, and blanks, commas,
brackets and the end of the text are boundaries. The statements are therefore about a lexeme in
front of an arbitrary rest, and the spelling of a line is put together from the right.
-/

namespace A64Text.Line.Lexeme

/-! ### Boundaries -/

/-- Characters that cannot continue a word or a number. -/
def Boundary (rest : List Char) : Prop :=
  ∀ c, rest.head? = some c → isWordPart c = false ∧ c ≠ '>'

theorem boundary_nil : Boundary [] := by simp [Boundary]

theorem boundary_cons {c : Char} {rest : List Char} (hc : isWordPart c = false) (hc' : c ≠ '>') :
    Boundary (c :: rest) := by
  rintro d hd
  obtain rfl : c = d := by simpa using hd
  exact ⟨hc, hc'⟩

theorem boundary_comma (rest : List Char) : Boundary (',' :: rest) :=
  boundary_cons (by decide) (by decide)

theorem boundary_space (rest : List Char) : Boundary (' ' :: rest) :=
  boundary_cons (by decide) (by decide)

theorem boundary_endMemory (rest : List Char) : Boundary (']' :: rest) :=
  boundary_cons (by decide) (by decide)

/-! ### Parts of words -/

theorem isUpper_iff {c : Char} : c.isUpper = true ↔ 0x41 ≤ c.toNat ∧ c.toNat ≤ 0x5A := by
  show decide ('A'.val ≤ c.val ∧ c.val ≤ 'Z'.val) = true ↔ _
  rw [decide_eq_true_iff, UInt32.le_iff_toNat_le, UInt32.le_iff_toNat_le]
  rfl

theorem isLower_iff {c : Char} : c.isLower = true ↔ 0x61 ≤ c.toNat ∧ c.toNat ≤ 0x7A := by
  show (decide ('a'.val ≤ c.val) && decide (c.val ≤ 'z'.val)) = true ↔ _
  rw [Bool.and_eq_true, decide_eq_true_iff, decide_eq_true_iff, UInt32.le_iff_toNat_le,
    UInt32.le_iff_toNat_le]
  rfl

theorem isAlpha_iff {c : Char} :
    c.isAlpha = true ↔
      (0x41 ≤ c.toNat ∧ c.toNat ≤ 0x5A) ∨ (0x61 ≤ c.toNat ∧ c.toNat ≤ 0x7A) := by
  show (c.isUpper || c.isLower) = true ↔ _
  rw [Bool.or_eq_true, isUpper_iff, isLower_iff]

theorem isWordPart_iff {c : Char} :
    isWordPart c = true ↔
      ((c.isAlpha = true ∨ 0x30 ≤ c.toNat ∧ c.toNat ≤ 0x39) ∨ c = '_') ∨ c = '.' := by
  simp only [isWordPart, Char.isAlphanum, Bool.or_eq_true, decide_eq_true_eq,
    Char.isDigit_iff_toNat]
  rfl

theorem isDecimalDigit_iff {c : Char} :
    Numeral.isDecimalDigit c = true ↔ 0x30 ≤ c.toNat ∧ c.toNat ≤ 0x39 := by
  rw [Numeral.isDecimalDigit, Bool.and_eq_true, decide_eq_true_iff, decide_eq_true_iff]
  rfl

theorem isWordPart_of_isDecimalDigit {c : Char} (h : Numeral.isDecimalDigit c = true) :
    isWordPart c = true :=
  isWordPart_iff.2 (.inl (.inl (.inr (isDecimalDigit_iff.1 h))))

theorem isWordPart_of_isHexDigit {c : Char} (h : Numeral.isHexDigit c = true) :
    isWordPart c = true := by
  simp only [Numeral.isHexDigit, Bool.or_eq_true, Bool.and_eq_true, decide_eq_true_eq] at h
  rcases h with (h | h) | h
  · exact isWordPart_of_isDecimalDigit h
  · have hletter : c.isAlpha = true := isAlpha_iff.2 (.inr ⟨h.1, Nat.le_trans h.2 (by decide)⟩)
    exact isWordPart_iff.2 (.inl (.inl (.inl hletter)))
  · have hletter : c.isAlpha = true := isAlpha_iff.2 (.inl ⟨h.1, Nat.le_trans h.2 (by decide)⟩)
    exact isWordPart_iff.2 (.inl (.inl (.inl hletter)))

/-! ### Words and numbers in front of a boundary -/

/-- Characters that are one word. -/
def IsWord (cs : List Char) : Prop := word? cs = some (cs, [])

instance (cs : List Char) : Decidable (IsWord cs) :=
  inferInstanceAs (Decidable (word? cs = some (cs, [])))

/-- Characters that are one number. -/
def IsNumber (cs : List Char) : Prop := number? cs = some (cs, [])

instance (cs : List Char) : Decidable (IsNumber cs) :=
  inferInstanceAs (Decidable (number? cs = some (cs, [])))

/-- The end of a word ends where a boundary follows. -/
theorem wordTail_append {cs rest : List Char} (h : wordTail cs = (cs, [])) (hb : Boundary rest) :
    wordTail (cs ++ rest) = (cs, rest) := by
  have happ := List.takeWhile_append_dropWhile (p := isWordPart) (l := cs)
  rw [wordTail] at h
  split at h
  · -- The word closes with a bracket, and nothing behind that is looked at.
    rename_i tail hdrop
    obtain ⟨hcs, rfl⟩ := Prod.mk.inj h
    have hpart : ∀ c ∈ cs.takeWhile isWordPart, isWordPart c = true := by
      intro c hc
      exact List.mem_takeWhile_imp hc
    rw [wordTail, ← hcs, List.append_assoc, List.dropWhile_append_of_pos hpart,
      List.takeWhile_append_of_pos hpart]
    have hgt : isWordPart '>' = false := by decide
    simp [hgt]
  · obtain ⟨-, hdrop⟩ := Prod.mk.inj h
    have hpart : ∀ c ∈ cs, isWordPart c = true := List.dropWhile_eq_nil_iff.1 hdrop
    obtain ⟨htake, hdrop'⟩ := Text.span_append hpart fun c hc ↦ (hb c hc).1
    rw [wordTail, htake, hdrop']
    split
    · exact absurd rfl (hb '>' rfl).2
    · rfl

/-- A word is scanned in front of a boundary. -/
theorem word?_append {cs rest : List Char} (h : IsWord cs) (hb : Boundary rest) :
    word? (cs ++ rest) = some (cs, rest) := by
  unfold IsWord word? at h
  split at h
  · rename_i c tail
    obtain ⟨hstart, h⟩ := Option.ite_none_right_eq_some.1 h
    have htail : wordTail tail = (tail, []) := by
      simp only [Option.some.injEq, Prod.mk.injEq, List.cons.injEq, true_and] at h
      exact Prod.ext h.1 h.2
    simp [word?, hstart, wordTail_append htail hb]
  · rename_i c tail hne
    obtain ⟨hstart, h⟩ := Option.ite_none_right_eq_some.1 h
    have htail : wordTail tail = (tail, []) := by
      simp only [Option.some.injEq, Prod.mk.injEq, List.cons.injEq, true_and] at h
      exact Prod.ext h.1 h.2
    have hlt : c ≠ '<' := by
      rintro rfl
      exact absurd hstart (by decide)
    simp [word?, hlt, hstart, wordTail_append htail hb]
  · exact absurd h (by simp)

theorem Boundary.not_isDecimalDigit {rest : List Char} (hb : Boundary rest) {c : Char}
    (hc : rest.head? = some c) : Numeral.isDecimalDigit c = false := by
  by_contra h
  have := isWordPart_of_isDecimalDigit (Bool.not_eq_false _ ▸ h)
  simp [(hb c hc).1] at this

theorem Boundary.not_isHexDigit {rest : List Char} (hb : Boundary rest) {c : Char}
    (hc : rest.head? = some c) : Numeral.isHexDigit c = false := by
  by_contra h
  have := isWordPart_of_isHexDigit (Bool.not_eq_false _ ▸ h)
  simp [(hb c hc).1] at this

/-- Decimal digits are scanned in front of a boundary. -/
theorem decimal?_append {cs rest : List Char} (h : decimal? cs = some (cs, []))
    (hb : Boundary rest) : decimal? (cs ++ rest) = some (cs, rest) := by
  cases cs with
  | nil => simp [decimal?] at h
  | cons d digits =>
    simp only [decimal?, Option.ite_none_right_eq_some, Option.some.injEq, Prod.mk.injEq] at h
    obtain ⟨hd, -, hdrop⟩ := h
    obtain ⟨htake, hdrop'⟩ :=
      Text.span_append (List.dropWhile_eq_nil_iff.1 hdrop) fun c hc ↦ hb.not_isDecimalDigit hc
    simp [decimal?, hd, htake, hdrop']

/-- Hexadecimal digits behind their radix mark are scanned in front of a boundary. -/
theorem hexadecimal?_append {cs rest : List Char} (h : hexadecimal? cs = some (cs, []))
    (hb : Boundary rest) : hexadecimal? (cs ++ rest) = some (cs, rest) := by
  unfold hexadecimal? at h
  split at h
  · rename_i x d digits
    simp only [Option.ite_none_right_eq_some, Option.some.injEq, Prod.mk.injEq] at h
    obtain ⟨hmark, -, hdrop⟩ := h
    obtain ⟨htake, hdrop'⟩ :=
      Text.span_append (List.dropWhile_eq_nil_iff.1 hdrop) fun c hc ↦ hb.not_isHexDigit hc
    simp only [List.cons_append, hexadecimal?, hmark, if_true, htake, hdrop']
  · simp at h

/-- Without a radix mark of its own, a text gets none from a boundary. -/
theorem hexadecimal?_append_eq_none {cs rest : List Char} (h : hexadecimal? cs = none)
    (hdec : decimal? cs = some (cs, [])) (hb : Boundary rest) :
    hexadecimal? (cs ++ rest) = none := by
  have hmark : ∀ c, rest.head? = some c → c ≠ 'x' ∧ c ≠ 'X' := by
    intro c hc
    have hpart := (hb c hc).1
    constructor <;> rintro rfl <;> exact absurd hpart (by decide)
  match cs with
  | [] => simp [decimal?] at hdec
  | [d] =>
    match rest with
    | [] => simp [hexadecimal?]
    | [_] => simp [hexadecimal?]
    | x :: _ :: _ =>
      obtain ⟨hx, hx'⟩ := hmark x rfl
      unfold hexadecimal?
      split <;> simp_all
  | [d, x] =>
    have hx : Numeral.isDecimalDigit x = true := by
      have hall := hdec
      simp only [decimal?, Option.ite_none_right_eq_some, Option.some.injEq, Prod.mk.injEq] at hall
      exact List.dropWhile_eq_nil_iff.1 hall.2.2 x (by simp)
    have hne : x ≠ 'x' ∧ x ≠ 'X' := by
      constructor <;> rintro rfl <;> exact absurd hx (by decide)
    unfold hexadecimal?
    split <;> simp_all
  | d :: x :: e :: tail =>
    unfold hexadecimal? at h ⊢
    split <;> simp_all

/-- A number without its sign is scanned in front of a boundary. -/
theorem unsigned?_append {cs rest : List Char} (h : unsigned? cs = some (cs, []))
    (hb : Boundary rest) : unsigned? (cs ++ rest) = some (cs, rest) := by
  rcases Option.or_eq_some_iff.1 h with hhex | ⟨hhex, hdec⟩
  · rw [unsigned?, hexadecimal?_append hhex hb, Option.some_or]
  · rw [unsigned?, hexadecimal?_append_eq_none hhex hdec hb, Option.none_or,
      decimal?_append hdec hb]

/-- A number is scanned in front of a boundary. -/
theorem number?_append {cs rest : List Char} (h : IsNumber cs) (hb : Boundary rest) :
    number? (cs ++ rest) = some (cs, rest) := by
  have hsigned : ∀ {sign : Char} {tail : List Char},
      (unsigned? tail).map (fun r ↦ (sign :: r.1, r.2)) = some (sign :: tail, []) →
        unsigned? tail = some (tail, []) := by
    intro sign tail hmap
    obtain ⟨r, hr, heq⟩ := Option.map_eq_some_iff.1 hmap
    simp only [Prod.mk.injEq, List.cons.injEq, true_and] at heq
    rw [hr, ← heq.1, ← heq.2]
  unfold IsNumber number? at h
  split at h
  · simp [number?, unsigned?_append (hsigned h) hb]
  · simp [number?, unsigned?_append (hsigned h) hb]
  · rename_i hplus hminus
    unfold number?
    split
    · rename_i tail heq
      cases cs with
      | nil => simp [unsigned?, hexadecimal?, decimal?] at h
      | cons c cs => exact absurd (List.cons.inj heq).1 (fun e ↦ hplus cs (by rw [e]))
    · rename_i tail heq
      cases cs with
      | nil => simp [unsigned?, hexadecimal?, decimal?] at h
      | cons c cs => exact absurd (List.cons.inj heq).1 (fun e ↦ hminus cs (by rw [e]))
    · exact unsigned?_append h hb

/-! ### The first lexeme -/

/-- The characters that are punctuation or blanks between lexemes. -/
def separators : List Char := ['[', ']', ',', '#', '!', ' ', '\t', '\r', '\n', Char.ofNat 0x0C]

theorem isSpace_eq_false {c : Char} (hc : c ∉ separators) : isSpace c = false := by
  by_contra h
  simp only [isSpace, Bool.not_eq_false, Bool.or_eq_true, decide_eq_true_eq] at h
  have hmem : c ∈ separators := by
    rcases h with (((rfl | rfl) | rfl) | rfl) | h
    · decide
    · decide
    · decide
    · decide
    · rw [← Char.ofNat_toNat c, h]
      decide
  exact hc hmem

/-- Where no separator stands, a word is tried, and then a number. -/
theorem next_eq {c : Char} {rest : List Char} (hc : c ∉ separators) :
    next (c :: rest) =
      ((word? (c :: rest)).map fun r ↦ (word r.1, r.2)).or
        ((number? (c :: rest)).map fun r ↦ (number r.1, r.2)) := by
  unfold next
  split
  case h_6 => rfl
  all_goals
    rename_i heq
    obtain ⟨rfl, -⟩ := List.cons.inj heq
    exact absurd (by decide) hc

/-- A class of characters without separators has none. -/
theorem not_mem_separators {p : Char → Bool} (hp : separators.any p = false) {c : Char}
    (hc : p c = true) : c ∉ separators := by
  intro hmem
  exact List.any_eq_false.1 hp c hmem hc

/-- A word starts with a letter, an underscore or an opening angle bracket. -/
theorem IsWord.exists_cons {cs : List Char} (h : IsWord cs) :
    ∃ c tail, cs = c :: tail ∧ c ∉ separators := by
  unfold IsWord word? at h
  split at h
  · exact ⟨'<', _, rfl, by decide⟩
  · rename_i c tail _
    have hc : isWordStart c = true := (Option.ite_none_right_eq_some.1 h).1
    exact ⟨c, tail, rfl, not_mem_separators rfl hc⟩
  · exact absurd h (by simp)

/-- A number starts with a sign or a digit. -/
theorem IsNumber.exists_cons {cs : List Char} (h : IsNumber cs) :
    ∃ c tail, cs = c :: tail ∧ (c = '+' ∨ c = '-' ∨ Numeral.isDecimalDigit c = true) := by
  have hunsigned : ∀ {cs : List Char}, unsigned? cs = some (cs, []) →
      ∃ c tail, cs = c :: tail ∧ Numeral.isDecimalDigit c = true := by
    intro cs hcs
    rcases Option.or_eq_some_iff.1 hcs with hhex | ⟨-, hdec⟩
    · unfold hexadecimal? at hhex
      split at hhex
      · exact ⟨'0', _, rfl, by decide⟩
      · simp at hhex
    · cases cs with
      | nil => simp [decimal?] at hdec
      | cons c tail => exact ⟨c, tail, rfl, (Option.ite_none_right_eq_some.1 hdec).1⟩
  unfold IsNumber number? at h
  split at h
  · exact ⟨'+', _, rfl, .inl rfl⟩
  · exact ⟨'-', _, rfl, .inr (.inl rfl)⟩
  · obtain ⟨c, tail, rfl, hc⟩ := hunsigned h
    exact ⟨c, tail, rfl, .inr (.inr hc)⟩

theorem isWordStart_of_isDecimalDigit {c : Char} (h : Numeral.isDecimalDigit c = true) :
    isWordStart c = false := by
  have hrange := isDecimalDigit_iff.1 h
  refine Bool.eq_false_iff.2 ?_
  intro hstart
  simp only [isWordStart, Bool.or_eq_true, decide_eq_true_eq, isAlpha_iff] at hstart
  rcases hstart with hletter | rfl
  · omega
  · exact absurd h (by decide)

/-- A word in front of a boundary is the first lexeme. -/
theorem next_word {cs rest : List Char} (h : IsWord cs) (hb : Boundary rest) :
    next (cs ++ rest) = some (word cs, rest) := by
  have happ := word?_append h hb
  obtain ⟨c, tail, rfl, hc⟩ := h.exists_cons
  rw [List.cons_append] at happ ⊢
  rw [next_eq hc, happ]
  rfl

/-- A number in front of a boundary is the first lexeme. -/
theorem next_number {cs rest : List Char} (h : IsNumber cs) (hb : Boundary rest) :
    next (cs ++ rest) = some (number cs, rest) := by
  have happ := number?_append h hb
  obtain ⟨c, tail, rfl, hc⟩ := h.exists_cons
  rw [List.cons_append] at happ ⊢
  have hnot : c ∉ separators ∧ isWordStart c = false ∧ c ≠ '<' := by
    rcases hc with rfl | rfl | hc
    · decide
    · decide
    · refine ⟨not_mem_separators rfl hc, isWordStart_of_isDecimalDigit hc, ?_⟩
      rintro rfl
      exact absurd hc (by decide)
  have hword : word? (c :: (tail ++ rest)) = none := by
    unfold word?
    split
    · rename_i heq
      exact absurd (List.cons.inj heq).1 hnot.2.2
    · rename_i heq
      obtain ⟨rfl, -⟩ := List.cons.inj heq
      simp [hnot.2.1]
    · rfl
  rw [next_eq hnot.1, hword, happ]
  rfl

/-! ### Spelling -/

/-- Scanning characters finds lexemes and stops nowhere, from whatever column it starts. -/
def Spells (cs : List Char) (ts : List Lexeme) : Prop :=
  ∀ column, (scan column cs).lexemes.map (·.2) = ts ∧ (scan column cs).stop? = none

theorem spells_nil : Spells [] [] := by
  intro column
  rw [scan]
  exact ⟨rfl, rfl⟩

/-- A space in front spells nothing. -/
theorem Spells.space {cs : List Char} {ts : List Lexeme} (h : Spells cs ts) :
    Spells (' ' :: cs) ts := by
  intro column
  rw [scan, if_pos (by decide)]
  exact h _

/-- The first lexeme, and what the rest spells. -/
theorem Spells.cons {cs rest : List Char} {t : Lexeme} {ts : List Lexeme} (h : Spells rest ts)
    (hnext : next cs = some (t, rest)) (hspace : ∀ c, cs.head? = some c → isSpace c = false) :
    Spells cs (t :: ts) := by
  intro column
  cases cs with
  | nil => simp [next, word?, number?, unsigned?, hexadecimal?, decimal?] at hnext
  | cons c tail =>
    rw [scan, if_neg (by simp [hspace c rfl])]
    split
    · rename_i hnone
      rw [hnone] at hnext
      cases hnext
    · rename_i t' rest' hsome
      rw [hsome] at hnext
      obtain ⟨rfl, rfl⟩ := Prod.mk.inj (Option.some.inj hnext)
      exact ⟨by simp [h _], (h _).2⟩

/-- A word in front of a boundary. -/
theorem Spells.word {cs rest : List Char} {ts : List Lexeme} (h : Spells rest ts)
    (hw : IsWord cs) (hb : Boundary rest) : Spells (cs ++ rest) (.word cs :: ts) := by
  refine h.cons (next_word hw hb) ?_
  intro d hd
  obtain ⟨c, tail, rfl, hc⟩ := hw.exists_cons
  obtain rfl : c = d := by simpa using hd
  exact isSpace_eq_false hc

/-- A number in front of a boundary. -/
theorem Spells.number {cs rest : List Char} {ts : List Lexeme} (h : Spells rest ts)
    (hn : IsNumber cs) (hb : Boundary rest) : Spells (cs ++ rest) (.number cs :: ts) := by
  refine h.cons (next_number hn hb) ?_
  intro d hd
  obtain ⟨c, tail, rfl, hc⟩ := hn.exists_cons
  obtain rfl : c = d := by simpa using hd
  rcases hc with rfl | rfl | hc
  · decide
  · decide
  · exact isSpace_eq_false (not_mem_separators rfl hc)

theorem Spells.hash {rest : List Char} {ts : List Lexeme} (h : Spells rest ts) :
    Spells ('#' :: rest) (.hash :: ts) :=
  h.cons rfl (by simp; decide)

theorem Spells.comma {rest : List Char} {ts : List Lexeme} (h : Spells rest ts) :
    Spells (',' :: rest) (.comma :: ts) :=
  h.cons rfl (by simp; decide)

theorem Spells.bang {rest : List Char} {ts : List Lexeme} (h : Spells rest ts) :
    Spells ('!' :: rest) (.bang :: ts) :=
  h.cons rfl (by simp; decide)

theorem Spells.beginMemory {rest : List Char} {ts : List Lexeme} (h : Spells rest ts) :
    Spells ('[' :: rest) (.beginMemory :: ts) :=
  h.cons rfl (by simp; decide)

theorem Spells.endMemory {rest : List Char} {ts : List Lexeme} (h : Spells rest ts) :
    Spells (']' :: rest) (.endMemory :: ts) :=
  h.cons rfl (by simp; decide)

end A64Text.Line.Lexeme
