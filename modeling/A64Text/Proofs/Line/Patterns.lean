import A64Text.Proofs.Line.Spelling
import Mathlib.Computability.Language

/-!
# The patterns of lexemes

A kind of lexeme is given by a regular pattern, as a language of characters. The lexeme at the front
of a text is the longest match of its pattern there (`LongestMatch`), blanks between lexemes are
skipped, and that is all there is to a text being a sequence of lexemes (`Lexed`).

The scanner does not look at all matches: it takes characters while it can. That this is the longest
match is shown once for each of its functions (`TakesLongest`), and from there on the scanner and
the patterns say the same (`next_eq_some_iff`, `Lexed.spells`, `lexed_of_scan`).
-/

namespace A64Text.Line.Lexeme

open Computability

/-! ### Patterns -/

/-- One character of a class. -/
def oneOf (p : Char → Bool) : Language Char := {w | ∃ c, p c = true ∧ w = [c]}

/-- A word: a letter or underscore, then letters, digits, underscores and dots, between angle
brackets that may each be left out. -/
def wordPattern : Language Char :=
  (1 + {['<']}) * (oneOf isWordStart * (oneOf isWordPart)∗) * (1 + {['>']})

/-- Decimal digits, at least one. -/
def decimalPattern : Language Char :=
  oneOf Numeral.isDecimalDigit * (oneOf Numeral.isDecimalDigit)∗

/-- The radix mark in either case and hexadecimal digits, at least one. -/
def hexadecimalPattern : Language Char :=
  {['0']} * oneOf (fun c ↦ c = 'x' || c = 'X') *
    (oneOf Numeral.isHexDigit * (oneOf Numeral.isHexDigit)∗)

/-- A number: a sign that may be left out, then a numeral of either base. -/
def numberPattern : Language Char :=
  (1 + oneOf fun c ↦ c = '+' || c = '-') * (hexadecimalPattern + decimalPattern)

/-- The pattern of the kind that a lexeme is of. -/
def pattern : Lexeme → Language Char
  | word _ => wordPattern
  | number _ => numberPattern
  | t => {t.spelling}

/-- A match of a pattern at the front of a text, such that no other match there is longer. -/
structure LongestMatch (l : Language Char) (cs w rest : List Char) : Prop where
  mem : w ∈ l
  append : w ++ rest = cs
  longest : ∀ v ∈ l, v <+: cs → v.length ≤ w.length

/-- A text is a sequence of lexemes: each is the longest match of its pattern where it stands, and
what separates them is skipped. -/
inductive Lexed : List Char → List Lexeme → Prop
  | nil : Lexed [] []
  | space {c : Char} {cs : List Char} {ts : List Lexeme} (hc : isSpace c = true)
      (h : Lexed cs ts) : Lexed (c :: cs) ts
  | cons {cs rest : List Char} {t : Lexeme} {ts : List Lexeme}
      (hmatch : LongestMatch t.pattern cs t.spelling rest) (h : Lexed rest ts) :
      Lexed cs (t :: ts)

/-! ### Members of patterns -/

theorem mem_star_oneOf {p : Char → Bool} {w : List Char} :
    w ∈ (oneOf p)∗ ↔ ∀ c ∈ w, p c = true := by
  constructor
  · rintro ⟨L, rfl, hL⟩ c hc
    obtain ⟨v, hv, hcv⟩ := List.mem_flatten.1 hc
    obtain ⟨d, hd, rfl⟩ := hL v hv
    rwa [List.mem_singleton.1 hcv]
  · intro h
    refine ⟨w.map fun c ↦ [c], ?_, ?_⟩
    · induction w with
      | nil => rfl
      | cons c w ih => simpa using ih fun d hd ↦ h d (List.mem_cons_of_mem c hd)
    · intro v hv
      obtain ⟨c, hc, rfl⟩ := List.mem_map.1 hv
      exact ⟨c, h c hc, rfl⟩

/-- A run of characters of a class that starts with one of another class. -/
theorem mem_run_iff {p q : Char → Bool} {w : List Char} :
    w ∈ oneOf p * (oneOf q)∗ ↔ ∃ c cs, w = c :: cs ∧ p c = true ∧ ∀ d ∈ cs, q d = true := by
  constructor
  · intro h
    obtain ⟨_, ⟨c, hc, rfl⟩, cs, hcs, rfl⟩ := Language.mem_mul.1 h
    exact ⟨c, cs, rfl, hc, mem_star_oneOf.1 hcs⟩
  · rintro ⟨c, cs, rfl, hc, hcs⟩
    exact Language.append_mem_mul (a := [c]) ⟨c, hc, rfl⟩ (mem_star_oneOf.2 hcs)

/-- A character that may be left out. -/
theorem mem_optional_iff {c : Char} {w : List Char} :
    w ∈ (1 + {[c]} : Language Char) ↔ w = [] ∨ w = [c] :=
  Iff.rfl

theorem mem_wordPattern_iff {w : List Char} :
    w ∈ wordPattern ↔
      ∃ opening c body closing, w = opening ++ c :: (body ++ closing) ∧
        (opening = [] ∨ opening = ['<']) ∧ isWordStart c = true ∧
        (∀ d ∈ body, isWordPart d = true) ∧ (closing = [] ∨ closing = ['>']) := by
  constructor
  · intro h
    obtain ⟨_, hopened, closing, hclosing, rfl⟩ := Language.mem_mul.1 h
    obtain ⟨opening, hopening, _, hrun, rfl⟩ := Language.mem_mul.1 hopened
    obtain ⟨c, body, rfl, hc, hbody⟩ := mem_run_iff.1 hrun
    exact ⟨opening, c, body, closing, by simp, hopening, hc, hbody, hclosing⟩
  · rintro ⟨opening, c, body, closing, rfl, hopening, hc, hbody, hclosing⟩
    have hrun := mem_run_iff.2 ⟨c, body, rfl, hc, hbody⟩
    have hopened := Language.append_mem_mul (mem_optional_iff.2 hopening) hrun
    rw [← List.cons_append, ← List.append_assoc]
    exact Language.append_mem_mul hopened (mem_optional_iff.2 hclosing)

theorem mem_hexadecimalPattern_iff {w : List Char} :
    w ∈ hexadecimalPattern ↔
      ∃ x d digits, w = '0' :: x :: d :: digits ∧ (x = 'x' || x = 'X') = true ∧
        Numeral.isHexDigit d = true ∧ ∀ e ∈ digits, Numeral.isHexDigit e = true := by
  constructor
  · intro h
    obtain ⟨_, hmark, _, hrun, rfl⟩ := Language.mem_mul.1 h
    obtain ⟨_, rfl, _, ⟨x, hx, rfl⟩, rfl⟩ := Language.mem_mul.1 hmark
    obtain ⟨d, digits, rfl, hd, hdigits⟩ := mem_run_iff.1 hrun
    exact ⟨x, d, digits, rfl, hx, hd, hdigits⟩
  · rintro ⟨x, d, digits, rfl, hx, hd, hdigits⟩
    have hmark : ['0', x] ∈ ({['0']} * oneOf fun c ↦ c = 'x' || c = 'X' : Language Char) :=
      Language.append_mem_mul (a := ['0']) (b := [x]) rfl ⟨x, hx, rfl⟩
    exact Language.append_mem_mul hmark (mem_run_iff.2 ⟨d, digits, rfl, hd, hdigits⟩)

theorem mem_numberPattern_iff {w : List Char} :
    w ∈ numberPattern ↔
      ∃ sign v, w = sign ++ v ∧ (sign = [] ∨ sign = ['+'] ∨ sign = ['-']) ∧
        (v ∈ hexadecimalPattern ∨ v ∈ decimalPattern) := by
  have hsign : ∀ {s : List Char}, s ∈ (1 + oneOf fun c ↦ c = '+' || c = '-') ↔
      s = [] ∨ s = ['+'] ∨ s = ['-'] := by
    intro s
    constructor
    · rintro (rfl | ⟨c, hc, rfl⟩)
      · exact .inl rfl
      · simp only [Bool.or_eq_true, decide_eq_true_eq] at hc
        rcases hc with rfl | rfl
        · exact .inr (.inl rfl)
        · exact .inr (.inr rfl)
    · rintro (rfl | rfl | rfl)
      · exact .inl rfl
      · exact .inr ⟨'+', rfl, rfl⟩
      · exact .inr ⟨'-', rfl, rfl⟩
  constructor
  · intro h
    obtain ⟨sign, hs, v, hv, rfl⟩ := Language.mem_mul.1 h
    exact ⟨sign, v, rfl, hsign.1 hs, hv⟩
  · rintro ⟨sign, v, rfl, hs, hv⟩
    exact Language.append_mem_mul (hsign.2 hs) hv

/-! ### Taking the longest match -/

/-- What two longest matches of one pattern take is the same. -/
theorem LongestMatch.unique {l : Language Char} {cs w v rest rest' : List Char}
    (h : LongestMatch l cs w rest) (h' : LongestMatch l cs v rest') : w = v ∧ rest = rest' := by
  have hlength : w.length = v.length :=
    Nat.le_antisymm (h'.longest w h.mem ⟨rest, h.append⟩) (h.longest v h'.mem ⟨rest', h'.append⟩)
  exact List.append_inj (h.append.trans h'.append.symm) hlength

/-- A function that takes a match from the front of a text, and the longest one if there is any. -/
structure TakesLongest (take : List Char → Option (List Char × List Char)) (l : Language Char) :
    Prop where
  sound : ∀ {cs w rest : List Char}, take cs = some (w, rest) → w ∈ l ∧ w ++ rest = cs
  longest : ∀ {cs v : List Char}, v ∈ l → v <+: cs →
    ∃ w rest, take cs = some (w, rest) ∧ v.length ≤ w.length

theorem TakesLongest.eq_some_iff {take : List Char → Option (List Char × List Char)}
    {l : Language Char} (h : TakesLongest take l) {cs w rest : List Char} :
    take cs = some (w, rest) ↔ LongestMatch l cs w rest := by
  have hmatch : ∀ {w rest : List Char}, take cs = some (w, rest) → LongestMatch l cs w rest := by
    intro w rest htake
    refine ⟨(h.sound htake).1, (h.sound htake).2, fun v hv hpre ↦ ?_⟩
    obtain ⟨w', rest', htake', hle⟩ := h.longest hv hpre
    obtain ⟨rfl, rfl⟩ := Prod.mk.inj (Option.some.inj (htake'.symm.trans htake))
    exact hle
  refine ⟨hmatch, fun hlongest ↦ ?_⟩
  obtain ⟨w', rest', htake, -⟩ := h.longest hlongest.mem ⟨rest, hlongest.append⟩
  obtain ⟨rfl, rfl⟩ := hlongest.unique (hmatch htake)
  exact htake

/-- Characters of a class at the front of a text are among those taken while the class lasts. -/
theorem length_le_takeWhile {p : Char → Bool} {v cs : List Char} (hv : ∀ c ∈ v, p c = true)
    (hpre : v <+: cs) : v.length ≤ (cs.takeWhile p).length := by
  obtain ⟨rest, rfl⟩ := hpre
  rw [List.takeWhile_append_of_pos hv, List.length_append]
  omega

/-- What the end of a word can be: parts of a word and a bracket that may be left out. -/
theorem wordTail_mem (cs : List Char) :
    ∃ body closing, (wordTail cs).1 = body ++ closing ∧ (∀ d ∈ body, isWordPart d = true) ∧
      (closing = [] ∨ closing = ['>']) := by
  have hbody : ∀ d ∈ cs.takeWhile isWordPart, isWordPart d = true :=
    fun d hd ↦ List.mem_takeWhile_imp hd
  rw [wordTail]
  split
  · exact ⟨_, ['>'], rfl, hbody, .inr rfl⟩
  · exact ⟨_, [], (List.append_nil _).symm, hbody, .inl rfl⟩

/-- The end of a word is as long as it can be. -/
theorem length_le_wordTail {body closing cs : List Char} (hbody : ∀ d ∈ body, isWordPart d = true)
    (hclosing : closing = [] ∨ closing = ['>']) (hpre : body ++ closing <+: cs) :
    (body ++ closing).length ≤ (wordTail cs).1.length := by
  have htake : (cs.takeWhile isWordPart).length ≤ (wordTail cs).1.length := by
    rw [wordTail]
    split
    · simp
    · exact Nat.le_refl _
  rcases hclosing with rfl | rfl
  · rw [List.append_nil] at hpre ⊢
    exact Nat.le_trans (length_le_takeWhile hbody hpre) htake
  · -- The bracket is no part of a word, so the parts in front of it are all there are.
    obtain ⟨rest, rfl⟩ := hpre
    have hgt : isWordPart '>' = false := by decide
    have hhead : ∀ c, ('>' :: rest).head? = some c → isWordPart c = false := by simp [hgt]
    have hspan := Text.span_append hbody hhead
    rw [List.append_assoc, List.singleton_append, wordTail, hspan.2, hspan.1]
    exact Nat.le_refl _

theorem takesLongest_word : TakesLongest word? wordPattern where
  sound {cs w rest} h := by
    refine ⟨mem_wordPattern_iff.2 ?_, (append_of_word? h).1⟩
    unfold word? at h
    split at h
    · rename_i c tail
      obtain ⟨hc, h⟩ := Option.ite_none_right_eq_some.1 h
      obtain ⟨rfl, -⟩ := Prod.mk.inj (Option.some.inj h)
      obtain ⟨body, closing, heq, hbody, hclosing⟩ := wordTail_mem tail
      exact ⟨['<'], c, body, closing, by rw [heq]; rfl, .inr rfl, hc, hbody, hclosing⟩
    · rename_i c tail _
      obtain ⟨hc, h⟩ := Option.ite_none_right_eq_some.1 h
      obtain ⟨rfl, -⟩ := Prod.mk.inj (Option.some.inj h)
      obtain ⟨body, closing, heq, hbody, hclosing⟩ := wordTail_mem tail
      exact ⟨[], c, body, closing, by rw [heq]; rfl, .inl rfl, hc, hbody, hclosing⟩
    · cases h
  longest {cs v} hv hpre := by
    obtain ⟨opening, c, body, closing, rfl, hopening, hc, hbody, hclosing⟩ :=
      mem_wordPattern_iff.1 hv
    obtain ⟨rest, rfl⟩ := hpre
    have htail : (body ++ closing).length ≤ (wordTail (body ++ closing ++ rest)).1.length :=
      length_le_wordTail hbody hclosing ⟨rest, rfl⟩
    rcases hopening with rfl | rfl
    · have hlt : c ≠ '<' := by
        rintro rfl
        exact absurd hc (by decide)
      refine ⟨c :: (wordTail (body ++ closing ++ rest)).1, (wordTail (body ++ closing ++ rest)).2,
        ?_, ?_⟩
      · simp [word?, hlt, hc]
      · simpa using htail
    · refine ⟨'<' :: c :: (wordTail (body ++ closing ++ rest)).1,
        (wordTail (body ++ closing ++ rest)).2, ?_, ?_⟩
      · simp [word?, hc]
      · simpa using htail

/-- Characters are one word exactly if they match the pattern. -/
theorem isWord_iff_mem {w : List Char} : IsWord w ↔ w ∈ wordPattern := by
  refine ⟨fun h ↦ (takesLongest_word.sound h).1, fun h ↦ takesLongest_word.eq_some_iff.2 ?_⟩
  exact ⟨h, List.append_nil w, fun v _ hpre ↦ hpre.length_le⟩

theorem takesLongest_decimal : TakesLongest decimal? decimalPattern where
  sound {cs w rest} h := by
    refine ⟨mem_run_iff.2 ?_, (append_of_decimal? h).1⟩
    unfold decimal? at h
    split at h
    · obtain ⟨hd, h⟩ := Option.ite_none_right_eq_some.1 h
      obtain ⟨rfl, -⟩ := Prod.mk.inj (Option.some.inj h)
      exact ⟨_, _, rfl, hd, fun e he ↦ List.mem_takeWhile_imp he⟩
    · cases h
  longest {cs v} hv hpre := by
    obtain ⟨d, digits, rfl, hd, hdigits⟩ := mem_run_iff.1 hv
    obtain ⟨rest, rfl⟩ := hpre
    have htake := length_le_takeWhile hdigits ⟨rest, rfl⟩
    refine ⟨d :: (digits ++ rest).takeWhile Numeral.isDecimalDigit,
      (digits ++ rest).dropWhile Numeral.isDecimalDigit, ?_, by simpa using htake⟩
    rw [List.cons_append, decimal?, if_pos hd]

theorem takesLongest_hexadecimal : TakesLongest hexadecimal? hexadecimalPattern where
  sound {cs w rest} h := by
    refine ⟨mem_hexadecimalPattern_iff.2 ?_, (append_of_hexadecimal? h).1⟩
    unfold hexadecimal? at h
    split at h
    · obtain ⟨hmark, h⟩ := Option.ite_none_right_eq_some.1 h
      obtain ⟨hx, hd⟩ := Bool.and_eq_true_iff.1 hmark
      obtain ⟨rfl, -⟩ := Prod.mk.inj (Option.some.inj h)
      exact ⟨_, _, _, rfl, hx, hd, fun e he ↦ List.mem_takeWhile_imp he⟩
    · cases h
  longest {cs v} hv hpre := by
    obtain ⟨x, d, digits, rfl, hx, hd, hdigits⟩ := mem_hexadecimalPattern_iff.1 hv
    obtain ⟨rest, rfl⟩ := hpre
    have htake := length_le_takeWhile hdigits ⟨rest, rfl⟩
    refine ⟨'0' :: x :: d :: (digits ++ rest).takeWhile Numeral.isHexDigit,
      (digits ++ rest).dropWhile Numeral.isHexDigit, ?_, by simpa using htake⟩
    rw [List.cons_append, List.cons_append, List.cons_append, hexadecimal?, hx, hd, Bool.and_self,
      if_pos rfl]

theorem takesLongest_unsigned : TakesLongest unsigned? (hexadecimalPattern + decimalPattern) where
  sound {cs w rest} h := by
    rcases Option.or_eq_some_iff.1 h with h | ⟨-, h⟩
    · exact ⟨.inl (takesLongest_hexadecimal.sound h).1, (takesLongest_hexadecimal.sound h).2⟩
    · exact ⟨.inr (takesLongest_decimal.sound h).1, (takesLongest_decimal.sound h).2⟩
  longest {cs v} hv hpre := by
    rcases hv with hv | hv
    · obtain ⟨w, rest, htake, hle⟩ := takesLongest_hexadecimal.longest hv hpre
      exact ⟨w, rest, by rw [unsigned?, htake, Option.some_or], hle⟩
    · cases hhex : hexadecimal? cs with
      | none =>
        obtain ⟨w, rest, htake, hle⟩ := takesLongest_decimal.longest hv hpre
        exact ⟨w, rest, by rw [unsigned?, hhex, Option.none_or, htake], hle⟩
      | some r =>
        -- In front of a radix mark stands a single decimal digit.
        obtain ⟨w, rest⟩ := r
        refine ⟨w, rest, by rw [unsigned?, hhex, Option.some_or], ?_⟩
        obtain ⟨hw, rfl⟩ := takesLongest_hexadecimal.sound hhex
        obtain ⟨x, e, digits, rfl, hx, -, -⟩ := mem_hexadecimalPattern_iff.1 hw
        obtain ⟨d, ds, rfl, -, hds⟩ := mem_run_iff.1 hv
        cases ds with
        | nil => simp
        | cons y ds =>
          obtain ⟨rest', heq⟩ := hpre
          obtain rfl : y = x := (List.cons.inj (List.cons.inj heq).2).1
          have hmark := hds y (by simp)
          simp only [Bool.or_eq_true, decide_eq_true_eq] at hx
          rcases hx with rfl | rfl <;> exact absurd hmark (by decide)

/-- A numeral of either base starts with a decimal digit. -/
theorem exists_digit_of_mem_unsigned {v : List Char} (h : v ∈ hexadecimalPattern + decimalPattern) :
    ∃ d digits, v = d :: digits ∧ Numeral.isDecimalDigit d = true := by
  rcases h with h | h
  · obtain ⟨x, d, digits, rfl, -⟩ := mem_hexadecimalPattern_iff.1 h
    exact ⟨'0', _, rfl, by decide⟩
  · obtain ⟨d, digits, rfl, hd, -⟩ := mem_run_iff.1 h
    exact ⟨d, digits, rfl, hd⟩

theorem takesLongest_number : TakesLongest number? numberPattern where
  sound {cs w rest} h := by
    refine ⟨mem_numberPattern_iff.2 ?_, (append_of_number? h).1⟩
    unfold number? at h
    split at h
    · obtain ⟨r, hr, heq⟩ := Option.map_eq_some_iff.1 h
      obtain ⟨rfl, -⟩ := Prod.mk.inj heq
      exact ⟨['+'], r.1, rfl, .inr (.inl rfl), (takesLongest_unsigned.sound hr).1⟩
    · obtain ⟨r, hr, heq⟩ := Option.map_eq_some_iff.1 h
      obtain ⟨rfl, -⟩ := Prod.mk.inj heq
      exact ⟨['-'], r.1, rfl, .inr (.inr rfl), (takesLongest_unsigned.sound hr).1⟩
    · exact ⟨[], w, rfl, .inl rfl, (takesLongest_unsigned.sound h).1⟩
  longest {cs v} hv hpre := by
    obtain ⟨sign, v, rfl, hsign, hunsigned⟩ := mem_numberPattern_iff.1 hv
    obtain ⟨rest, rfl⟩ := hpre
    obtain ⟨w, rest', htake, hle⟩ := takesLongest_unsigned.longest hunsigned ⟨rest, rfl⟩
    rcases hsign with rfl | rfl | rfl
    · obtain ⟨d, digits, rfl, hd⟩ := exists_digit_of_mem_unsigned hunsigned
      have hplus : d ≠ '+' := by
        rintro rfl
        exact absurd hd (by decide)
      have hminus : d ≠ '-' := by
        rintro rfl
        exact absurd hd (by decide)
      rw [List.cons_append] at htake
      exact ⟨w, rest', by simp [number?, hplus, hminus, htake], by simpa using hle⟩
    · exact ⟨'+' :: w, rest', by simp [number?, htake], by simpa using hle⟩
    · exact ⟨'-' :: w, rest', by simp [number?, htake], by simpa using hle⟩

/-! ### The lexeme at the front -/

theorem exists_cons_of_mem_wordPattern {w : List Char} (h : w ∈ wordPattern) :
    ∃ c tail, w = c :: tail ∧ c ∉ separators := by
  obtain ⟨opening, c, body, closing, rfl, rfl | rfl, hc, -, -⟩ := mem_wordPattern_iff.1 h
  · exact ⟨c, _, rfl, not_mem_separators rfl hc⟩
  · exact ⟨'<', _, rfl, by decide⟩

theorem exists_cons_of_mem_numberPattern {w : List Char} (h : w ∈ numberPattern) :
    ∃ c tail, w = c :: tail ∧ c ∉ separators ∧ isWordStart c = false ∧ c ≠ '<' := by
  obtain ⟨sign, v, rfl, rfl | rfl | rfl, hv⟩ := mem_numberPattern_iff.1 h
  · obtain ⟨d, digits, rfl, hd⟩ := exists_digit_of_mem_unsigned hv
    refine ⟨d, digits, rfl, not_mem_separators rfl hd, isWordStart_of_isDecimalDigit hd, ?_⟩
    rintro rfl
    exact absurd hd (by decide)
  · exact ⟨'+', _, rfl, by decide, by decide, by decide⟩
  · exact ⟨'-', _, rfl, by decide, by decide, by decide⟩

/-- The lexeme at the front of a text is the longest match of its pattern. -/
theorem next_eq_some_iff {cs rest : List Char} {t : Lexeme} :
    next cs = some (t, rest) ↔ LongestMatch t.pattern cs t.spelling rest := by
  have hlone : ∀ {c : Char} {cs rest : List Char},
      LongestMatch {[c]} cs [c] rest ↔ c :: rest = cs := by
    intro c cs rest
    refine ⟨fun h ↦ h.append, fun h ↦ ⟨rfl, h, fun v hv _ ↦ ?_⟩⟩
    rw [show v = [c] from hv]
  constructor
  · intro h
    unfold next at h
    split at h
    case h_6 =>
      rcases Option.or_eq_some_iff.1 h with h | ⟨-, h⟩
      · obtain ⟨r, hr, heq⟩ := Option.map_eq_some_iff.1 h
        obtain ⟨rfl, rfl⟩ := Prod.mk.inj heq
        exact takesLongest_word.eq_some_iff.1 hr
      · obtain ⟨r, hr, heq⟩ := Option.map_eq_some_iff.1 h
        obtain ⟨rfl, rfl⟩ := Prod.mk.inj heq
        exact takesLongest_number.eq_some_iff.1 hr
    all_goals
      obtain ⟨rfl, rfl⟩ := Prod.mk.inj (Option.some.inj h)
      exact hlone.2 rfl
  · intro h
    cases t with
    | word w =>
      have htake := takesLongest_word.eq_some_iff.2 h
      obtain ⟨c, tail, rfl, hc⟩ := exists_cons_of_mem_wordPattern h.mem
      obtain rfl : c :: (tail ++ rest) = cs := h.append
      rw [next_eq hc, htake]
      rfl
    | number w =>
      have htake := takesLongest_number.eq_some_iff.2 h
      obtain ⟨c, tail, rfl, hc, hstart, hlt⟩ := exists_cons_of_mem_numberPattern h.mem
      obtain rfl : c :: (tail ++ rest) = cs := h.append
      rw [next_eq hc, htake]
      simp [word?, hlt, hstart, spelling]
    | _ =>
      obtain rfl := hlone.1 h
      rfl

/-- A lexeme starts with a character that is not skipped. -/
theorem isSpace_head_of_longestMatch {cs rest : List Char} {t : Lexeme}
    (h : LongestMatch t.pattern cs t.spelling rest) :
    ∀ c, cs.head? = some c → isSpace c = false := by
  intro c hc
  obtain ⟨hmem, rfl, -⟩ := h
  cases t with
  | word w =>
    obtain ⟨d, tail, rfl, hd⟩ := exists_cons_of_mem_wordPattern hmem
    obtain rfl : d = c := by simpa [spelling] using hc
    exact isSpace_eq_false hd
  | number w =>
    obtain ⟨d, tail, rfl, hd, -⟩ := exists_cons_of_mem_numberPattern hmem
    obtain rfl : d = c := by simpa [spelling] using hc
    exact isSpace_eq_false hd
  | _ =>
    obtain rfl := Option.some.inj hc
    decide

/-! ### All lexemes -/

/-- Scanning that stops nowhere finds lexemes as the patterns give them. -/
theorem lexed_of_scan {column : Nat} {cs : List Char} (h : (scan column cs).stop? = none) :
    Lexed cs ((scan column cs).lexemes.map (·.2)) := by
  fun_induction scan column cs with
  | case1 => exact .nil
  | case2 column c rest hspace ih => exact .space hspace (ih h)
  | case3 => cases h
  | case4 column c rest hspace t rest' hnext found ih =>
    exact .cons (next_eq_some_iff.1 hnext) (ih h)

/-- The lexemes of a text are found from whatever column scanning starts. -/
theorem Lexed.spells {cs : List Char} {ts : List Lexeme} (h : Lexed cs ts) : Spells cs ts := by
  induction h with
  | nil => exact spells_nil
  | space hc _ ih =>
    intro column
    rw [scan, if_pos hc]
    exact ih _
  | cons hmatch _ ih =>
    exact ih.cons (next_eq_some_iff.2 hmatch) (isSpace_head_of_longestMatch hmatch)

end A64Text.Line.Lexeme
