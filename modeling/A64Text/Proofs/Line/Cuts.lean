import A64Text.Proofs.Line.Derivation
import Mathlib.Data.List.DropRight

/-!
# Cutting texts between lexemes

Every character of a lexeme but the first is part of a word or a closing angle bracket. In front of
any other character, a `Boundary`, no lexeme goes on, and the lexemes of two texts that meet there
are those of the one and those of the other (`Lexed.append`, `Lexed.split`). In front of a digit or
a letter that need not be so, and it is a property of both texts that they can stand side by side
(`Cut`). Spaces between them change nothing then (`Cut.lexed_spread`).

Blanks at the ends of a text take no part in this. A text that is a sequence of lexemes between
blanks is read as the line that the machine finds for those lexemes (`Spelled`), however many of the
blanks are left out.
-/

namespace A64Text.Line

namespace Lexeme

/-! ### The characters of a lexeme -/

theorem isWordPart_of_isWordStart {c : Char} (h : isWordStart c = true) : isWordPart c = true := by
  simp only [isWordStart, isWordPart, Char.isAlphanum, Bool.or_eq_true] at h ⊢
  rcases h with h | h
  · exact .inl (.inl (.inl h))
  · exact .inl (.inr h)

/-- The characters of words lie between the blanks and the end of ASCII. -/
theorem visible_of_isWordPart {c : Char} (h : isWordPart c = true) :
    0x20 < c.toNat ∧ c.toNat < 0x7F := by
  rw [isWordPart_iff, isAlpha_iff] at h
  rcases h with (h | rfl) | rfl
  · omega
  · decide
  · decide

theorem isWordPart_of_mem_unsigned {v : List Char}
    (h : v ∈ hexadecimalPattern ∨ v ∈ decimalPattern) : ∀ d ∈ v, isWordPart d = true := by
  rcases h with h | h
  · obtain ⟨x, d, digits, rfl, hx, hd, hdigits⟩ := mem_hexadecimalPattern_iff.1 h
    have hmark : isWordPart x = true := by
      simp only [Bool.or_eq_true, decide_eq_true_eq] at hx
      rcases hx with rfl | rfl <;> decide
    simp only [List.forall_mem_cons]
    exact ⟨by decide, hmark, isWordPart_of_isHexDigit hd,
      fun e he ↦ isWordPart_of_isHexDigit (hdigits e he)⟩
  · obtain ⟨d, digits, rfl, hd, hdigits⟩ := mem_run_iff.1 h
    simp only [List.forall_mem_cons]
    exact ⟨isWordPart_of_isDecimalDigit hd,
      fun e he ↦ isWordPart_of_isDecimalDigit (hdigits e he)⟩

/-- A lexeme starts with a visible character, and continues with parts of words and closing angle
brackets. -/
theorem exists_cons_of_mem_pattern {t : Lexeme} {w : List Char} (h : w ∈ t.pattern) :
    ∃ c tail, w = c :: tail ∧ (0x20 < c.toNat ∧ c.toNat < 0x7F) ∧
      ∀ d ∈ tail, isWordPart d = true ∨ d = '>' := by
  cases t with
  | word =>
    obtain ⟨opening, c, body, closing, rfl, hopening, hc, hbody, hclosing⟩ :=
      mem_wordPattern_iff.1 h
    have htail : ∀ d ∈ body ++ closing, isWordPart d = true ∨ d = '>' := by
      intro d hd
      rcases List.mem_append.1 hd with hd | hd
      · exact .inl (hbody d hd)
      · rcases hclosing with rfl | rfl
        · cases hd
        · exact .inr (List.mem_singleton.1 hd)
    rcases hopening with rfl | rfl
    · exact ⟨c, _, rfl, visible_of_isWordPart (isWordPart_of_isWordStart hc), htail⟩
    · exact ⟨'<', _, rfl, by decide,
        List.forall_mem_cons.2 ⟨.inl (isWordPart_of_isWordStart hc), htail⟩⟩
  | number =>
    obtain ⟨sign, v, rfl, hsign, hv⟩ := mem_numberPattern_iff.1 h
    have hpart := isWordPart_of_mem_unsigned hv
    rcases hsign with rfl | rfl | rfl
    · obtain ⟨d, digits, rfl, -⟩ := exists_digit_of_mem_unsigned hv
      exact ⟨d, digits, rfl, visible_of_isWordPart (hpart d (by simp)),
        fun e he ↦ .inl (hpart e (List.mem_cons_of_mem d he))⟩
    · exact ⟨'+', v, rfl, by decide, fun d hd ↦ .inl (hpart d hd)⟩
    · exact ⟨'-', v, rfl, by decide, fun d hd ↦ .inl (hpart d hd)⟩
  | _ =>
    obtain rfl : w = _ := h
    exact ⟨_, [], rfl, by decide, by simp⟩

/-- No character of a lexeme is blank, and all are of ASCII. -/
theorem visible_of_mem_pattern {t : Lexeme} {w : List Char} (h : w ∈ t.pattern) :
    ∀ c ∈ w, Text.isBlank c = false ∧ c.toNat < 0x7F := by
  obtain ⟨c, tail, rfl, hc, htail⟩ := exists_cons_of_mem_pattern h
  refine List.forall_mem_cons.2 ⟨⟨isBlank_eq_false hc.1 hc.2, hc.2⟩, fun d hd ↦ ?_⟩
  rcases htail d hd with hpart | rfl
  · exact ⟨isBlank_of_isWordPart hpart, (visible_of_isWordPart hpart).2⟩
  · decide

theorem isBlank_of_isSpace {c : Char} (h : isSpace c = true) : Text.isBlank c = true := by
  simp only [isSpace, Bool.or_eq_true, decide_eq_true_eq] at h
  rcases h with (((rfl | rfl) | rfl) | rfl) | h
  · decide
  · decide
  · decide
  · decide
  · rw [← Char.ofNat_toNat c, h]
    decide

/-- Blanks are boundaries. -/
theorem boundary_blank {c : Char} (hc : Text.isBlank c = true) (rest : List Char) :
    Boundary (c :: rest) := by
  refine boundary_cons ?_ ?_
  · refine Bool.eq_false_iff.2 fun hpart ↦ ?_
    exact Bool.false_ne_true ((isBlank_of_isWordPart hpart).symm.trans hc)
  · rintro rfl
    exact absurd hc (by decide)

/-- What follows blanks that are there is behind a boundary. -/
theorem boundary_blanks {w rest : List Char} (hw : ∀ c ∈ w, Text.isBlank c = true)
    (hrest : Boundary rest) : Boundary (w ++ rest) := by
  cases w with
  | nil => exact hrest
  | cons c w => exact boundary_blank (hw c (by simp)) _

/-! ### Matches in front of a boundary -/

/-- A lexeme that has begun does not reach across a boundary. -/
theorem eq_nil_of_boundary {t : Lexeme} {x y rest : List Char} (h : x ++ y ∈ t.pattern)
    (hx : x ≠ []) (hb : Boundary (y ++ rest)) : y = [] := by
  cases y with
  | nil => rfl
  | cons d y =>
    obtain ⟨hpart, hclose⟩ := hb d rfl
    obtain ⟨c, tail, heq, -, htail⟩ := exists_cons_of_mem_pattern h
    obtain ⟨b, x, rfl⟩ := List.exists_cons_of_ne_nil hx
    have hd : d ∈ tail := by
      rw [← (List.cons.inj heq).2]
      simp
    rcases htail d hd with h | h
    · exact absurd (hpart.symm.trans h) Bool.false_ne_true
    · exact absurd h hclose

/-- The longest match of the pattern of a lexeme stays the longest one in front of a boundary. -/
theorem LongestMatch.append_boundary {t : Lexeme} {cs w rest r : List Char}
    (h : LongestMatch t.pattern cs w rest) (hb : Boundary r) :
    LongestMatch t.pattern (cs ++ r) w (rest ++ r) := by
  refine ⟨h.mem, by rw [← List.append_assoc, h.append], ?_⟩
  rintro v hv ⟨v', hv'⟩
  rcases List.append_eq_append_iff.1 hv' with ⟨as, rfl, -⟩ | ⟨y, rfl, rfl⟩
  · exact h.longest v hv ⟨as, rfl⟩
  · -- What the match takes is there, so a longer one would have begun before the boundary.
    have hne : cs ≠ [] := by
      obtain ⟨c, tail, rfl, -⟩ := exists_cons_of_mem_pattern h.mem
      rintro rfl
      cases h.append
    obtain rfl := eq_nil_of_boundary hv hne hb
    rw [List.append_nil] at hv ⊢
    exact h.longest cs hv (List.prefix_refl cs)

/-- A longest match is one in whatever text it ends in. -/
theorem LongestMatch.of_append {l : Language Char} {cs w rest r : List Char}
    (h : LongestMatch l (cs ++ r) w (rest ++ r)) : LongestMatch l cs w rest := by
  refine ⟨h.mem, ?_, fun v hv hpre ↦ h.longest v hv (hpre.trans (List.prefix_append cs r))⟩
  exact List.append_cancel_right ((List.append_assoc _ _ _).trans h.append)

/-- Characters are one number exactly if they match the pattern. -/
theorem isNumber_iff_mem {n : List Char} : IsNumber n ↔ n ∈ numberPattern := by
  refine ⟨fun h ↦ (takesLongest_number.sound h).1, fun h ↦ takesLongest_number.eq_some_iff.2 ?_⟩
  exact ⟨h, List.append_nil n, fun _ _ hpre ↦ hpre.length_le⟩

/-- A number in front of a boundary is a lexeme. -/
theorem longestMatch_number {n rest : List Char} (hn : n ∈ numberPattern) (hb : Boundary rest) :
    LongestMatch numberPattern (n ++ rest) n rest :=
  takesLongest_number.eq_some_iff.1 (number?_append (isNumber_iff_mem.2 hn) hb)

/-! ### Lexemes on both sides of a boundary -/

/-- Two texts that meet at a boundary are the lexemes of the one and of the other. -/
theorem Lexed.append {p r : List Char} {ts us : List Lexeme} (h : Lexed p ts) (h' : Lexed r us)
    (hb : Boundary r) : Lexed (p ++ r) (ts ++ us) := by
  induction h with
  | nil => exact h'
  | space hc _ ih => exact .space hc ih
  | cons hmatch _ ih => exact .cons (hmatch.append_boundary hb) ih

/-- No lexeme lies across a boundary. -/
theorem Lexed.split {p r : List Char} {ts : List Lexeme} (h : Lexed (p ++ r) ts)
    (hb : Boundary r) : ∃ us vs, ts = us ++ vs ∧ Lexed p us ∧ Lexed r vs := by
  generalize hcs : p ++ r = cs at h
  induction h generalizing p with
  | nil =>
    obtain ⟨rfl, rfl⟩ := List.append_eq_nil_iff.1 hcs
    exact ⟨[], [], rfl, .nil, .nil⟩
  | space hc h ih =>
    cases p with
    | nil =>
      obtain rfl := hcs
      exact ⟨[], _, rfl, .nil, .space hc h⟩
    | cons d p =>
      obtain ⟨rfl, htail⟩ := List.cons.inj hcs
      obtain ⟨us, vs, rfl, hp, hr⟩ := ih htail
      exact ⟨us, vs, rfl, .space hc hp, hr⟩
  | @cons _ rest t ts hmatch h ih =>
    obtain rfl := hcs
    by_cases hp : p = []
    · obtain rfl := hp
      exact ⟨[], t :: ts, rfl, .nil, .cons hmatch h⟩
    · have hend : ∃ p', t.spelling ++ p' = p ∧ rest = p' ++ r := by
        rcases List.append_eq_append_iff.1 hmatch.append with ⟨p', rfl, heq⟩ | ⟨x, heq, rfl⟩
        · exact ⟨p', rfl, heq⟩
        · obtain rfl := eq_nil_of_boundary (heq ▸ hmatch.mem) hp hb
          exact ⟨[], by simpa using heq, rfl⟩
      obtain ⟨p', rfl, rfl⟩ := hend
      obtain ⟨us, vs, rfl, hus, hvs⟩ := ih rfl
      exact ⟨t :: us, vs, rfl, .cons hmatch.of_append hus, hvs⟩

/-! ### The front of a text -/

theorem lexed_space_iff {c : Char} {cs : List Char} {ts : List Lexeme} (hc : isSpace c = true) :
    Lexed (c :: cs) ts ↔ Lexed cs ts := by
  refine ⟨fun h ↦ ?_, .space hc⟩
  cases h with
  | space _ h => exact h
  | cons hmatch _ =>
    exact absurd ((isSpace_head_of_longestMatch hmatch c rfl).symm.trans hc) Bool.false_ne_true

theorem lexed_spaces_iff {w cs : List Char} {ts : List Lexeme} (hw : ∀ c ∈ w, isSpace c = true) :
    Lexed (w ++ cs) ts ↔ Lexed cs ts := by
  induction w with
  | nil => rfl
  | cons c w ih =>
    rw [List.cons_append, lexed_space_iff (hw c (by simp))]
    exact ih fun d hd ↦ hw d (List.mem_cons_of_mem c hd)

/-- The lexeme that a text starts with is the first one. -/
theorem lexed_cons_iff {cs rest : List Char} {t : Lexeme} {ts : List Lexeme}
    (hmatch : LongestMatch t.pattern cs t.spelling rest) :
    Lexed cs ts ↔ ∃ us, ts = t :: us ∧ Lexed rest us := by
  constructor
  · intro h
    cases h with
    | nil =>
      obtain ⟨c, tail, heq, -⟩ := exists_cons_of_mem_pattern hmatch.mem
      rw [heq] at hmatch
      cases hmatch.append
    | space hc _ =>
      exact absurd ((isSpace_head_of_longestMatch hmatch _ rfl).symm.trans hc)
        Bool.false_ne_true
    | cons hmatch' h =>
      have hnext := (next_eq_some_iff.2 hmatch).symm.trans (next_eq_some_iff.2 hmatch')
      obtain ⟨rfl, rfl⟩ := Prod.mk.inj (Option.some.inj hnext)
      exact ⟨_, rfl, h⟩
  · rintro ⟨us, rfl, h⟩
    exact .cons hmatch h

theorem lexed_hash_iff {cs : List Char} {ts : List Lexeme} :
    Lexed ('#' :: cs) ts ↔ ∃ us, ts = .hash :: us ∧ Lexed cs us :=
  lexed_cons_iff (next_eq_some_iff.1 rfl)

theorem lexed_comma_iff {cs : List Char} {ts : List Lexeme} :
    Lexed (',' :: cs) ts ↔ ∃ us, ts = .comma :: us ∧ Lexed cs us :=
  lexed_cons_iff (next_eq_some_iff.1 rfl)

theorem lexed_beginMemory_iff {cs : List Char} {ts : List Lexeme} :
    Lexed ('[' :: cs) ts ↔ ∃ us, ts = .beginMemory :: us ∧ Lexed cs us :=
  lexed_cons_iff (next_eq_some_iff.1 rfl)

/-- In front of the first lexeme stand spaces. -/
theorem Lexed.exists_front {cs : List Char} {t : Lexeme} {ts : List Lexeme}
    (h : Lexed cs (t :: ts)) :
    ∃ w cs' rest, cs = w ++ cs' ∧ (∀ c ∈ w, isSpace c = true) ∧
      LongestMatch t.pattern cs' t.spelling rest ∧ Lexed rest ts := by
  generalize hus : t :: ts = us at h
  induction h with
  | nil => cases hus
  | space hc _ ih =>
    obtain ⟨w, cs', rest, rfl, hw, hmatch, hrest⟩ := ih hus
    exact ⟨_ :: w, cs', rest, rfl, List.forall_mem_cons.2 ⟨hc, hw⟩, hmatch, hrest⟩
  | cons hmatch h =>
    obtain ⟨rfl, rfl⟩ := List.cons.inj hus
    exact ⟨[], _, _, rfl, by simp, hmatch, h⟩

theorem isSpace_of_lexed_nil {cs : List Char} (h : Lexed cs []) : ∀ c ∈ cs, isSpace c = true := by
  generalize hts : ([] : List Lexeme) = ts at h
  induction h with
  | nil => simp
  | space hc _ ih => exact List.forall_mem_cons.2 ⟨hc, ih hts⟩
  | cons => cases hts

/-- The spaces that a text starts with, and what follows them, are determined by the text. -/
theorem append_inj_of_space {w w' cs cs' : List Char} (hw : ∀ c ∈ w, isSpace c = true)
    (hw' : ∀ c ∈ w', isSpace c = true) (hcs : ∀ c, cs.head? = some c → isSpace c = false)
    (hcs' : ∀ c, cs'.head? = some c → isSpace c = false) (h : w ++ cs = w' ++ cs') :
    w = w' ∧ cs = cs' := by
  have hspan := Text.span_append hw hcs
  rw [h] at hspan
  have hspan' := Text.span_append hw' hcs'
  exact ⟨hspan.1.symm.trans hspan'.1, hspan.2.symm.trans hspan'.2⟩

/-- Scanning decides what the lexemes of a text are. -/
theorem lexed_iff_scan {cs : List Char} {ts : List Lexeme} :
    Lexed cs ts ↔ (scan 1 cs).stop? = none ∧ (scan 1 cs).lexemes.map (·.2) = ts := by
  refine ⟨fun h ↦ (h.spells 1).symm, ?_⟩
  rintro ⟨hstop, rfl⟩
  exact lexed_of_scan hstop

instance (cs : List Char) (ts : List Lexeme) : Decidable (Lexed cs ts) :=
  decidable_of_iff _ lexed_iff_scan.symm

/-! ### Texts side by side -/

/-- Two texts that can stand side by side: together they are the lexemes of the one and those of the
other. -/
def Cut (p q : List Char) : Prop := ∃ ts us, Lexed p ts ∧ Lexed q us ∧ Lexed (p ++ q) (ts ++ us)

/-- Scanning the two texts and both together decides whether they can stand side by side. -/
theorem cut_iff_scan {p q : List Char} :
    Cut p q ↔
      ((scan 1 p).stop? = none ∧ (scan 1 q).stop? = none ∧ (scan 1 (p ++ q)).stop? = none) ∧
      (scan 1 (p ++ q)).lexemes.map (·.2) =
        (scan 1 p).lexemes.map (·.2) ++ (scan 1 q).lexemes.map (·.2) := by
  constructor
  · rintro ⟨ts, us, hp, hq, hpq⟩
    obtain ⟨rfl, hpstop⟩ := hp.spells 1
    obtain ⟨rfl, hqstop⟩ := hq.spells 1
    obtain ⟨hlexemes, hpqstop⟩ := hpq.spells 1
    exact ⟨⟨hpstop, hqstop, hpqstop⟩, hlexemes⟩
  · rintro ⟨⟨hp, hq, hpq⟩, hlexemes⟩
    exact ⟨_, _, lexed_of_scan hp, lexed_of_scan hq, hlexemes ▸ lexed_of_scan hpq⟩

instance (p q : List Char) : Decidable (Cut p q) := decidable_of_iff _ cut_iff_scan.symm

/-- Spaces put between two texts leave their lexemes, if the texts can stand without them. -/
theorem Cut.lexed_spread {p q w : List Char} {ts : List Lexeme} (hcut : Cut p q)
    (hw : ∀ c ∈ w, isSpace c = true) : Lexed (p ++ q) ts ↔ Lexed (p ++ (w ++ q)) ts := by
  obtain ⟨us, vs, hp, hq, hpq⟩ := hcut
  have hspread : Lexed (p ++ (w ++ q)) (us ++ vs) := by
    cases w with
    | nil => exact hpq
    | cons c w =>
      have hb : Boundary (c :: w ++ q) := boundary_blank (isBlank_of_isSpace (hw c (by simp))) _
      exact hp.append ((lexed_spaces_iff hw).2 hq) hb
  constructor
  · intro h
    rwa [h.unique hpq]
  · intro h
    rwa [h.unique hspread]

/-! ### Blanks at the ends -/

/-- A text of blanks has no lexemes. -/
theorem Lexed.eq_nil_of_blank {cs : List Char} {ts : List Lexeme} (h : Lexed cs ts)
    (hcs : ∀ c ∈ cs, Text.isBlank c = true) : ts = [] := by
  cases ts with
  | nil => rfl
  | cons t ts =>
    obtain ⟨w, cs', rest, rfl, -, hmatch, -⟩ := h.exists_front
    obtain ⟨c, tail, heq, -⟩ := exists_cons_of_mem_pattern hmatch.mem
    have hvisible := (visible_of_mem_pattern hmatch.mem c (by simp [heq])).1
    have hblank := hcs c (by simp [← hmatch.append, heq])
    exact absurd (hvisible.symm.trans hblank) Bool.false_ne_true

/-- A text keeps its lexemes without the blanks in front. -/
theorem Lexed.dropWhile_isBlank {cs : List Char} {ts : List Lexeme} (h : Lexed cs ts) :
    Lexed (cs.dropWhile Text.isBlank) ts := by
  induction h with
  | nil => exact .nil
  | space hc _ ih => rwa [List.dropWhile_cons_of_pos (isBlank_of_isSpace hc)]
  | cons hmatch h =>
    have hlexed := Lexed.cons hmatch h
    obtain ⟨c, tail, heq, -⟩ := exists_cons_of_mem_pattern hmatch.mem
    have hvisible := (visible_of_mem_pattern hmatch.mem c (by simp [heq])).1
    rw [← hmatch.append, heq] at hlexed ⊢
    rwa [List.cons_append, List.dropWhile_cons_of_neg (by simp [hvisible])]

/-- A text keeps its lexemes without the blanks behind. -/
theorem Lexed.of_append_blank {cs w : List Char} {ts : List Lexeme} (h : Lexed (cs ++ w) ts)
    (hw : ∀ c ∈ w, Text.isBlank c = true) : Lexed cs ts := by
  have hb : Boundary w := by simpa using boundary_blanks hw boundary_nil
  obtain ⟨us, vs, rfl, hcs, hvs⟩ := h.split hb
  rwa [hvs.eq_nil_of_blank hw, List.append_nil]

/-- Every character of a text of lexemes is of ASCII. -/
theorem Lexed.ascii {cs : List Char} {ts : List Lexeme} (h : Lexed cs ts) :
    ∀ c ∈ cs, c.toNat < 0x80 := by
  induction h with
  | nil => simp
  | @space c _ _ hc _ ih =>
    refine List.forall_mem_cons.2 ⟨?_, ih⟩
    simp only [isSpace, Bool.or_eq_true, decide_eq_true_eq] at hc
    rcases hc with (((rfl | rfl) | rfl) | rfl) | hc
    · decide
    · decide
    · decide
    · decide
    · omega
  | cons hmatch _ ih =>
    rw [← hmatch.append]
    intro c hc
    rcases List.mem_append.1 hc with hc | hc
    · exact (visible_of_mem_pattern hmatch.mem c hc).2.trans (by decide)
    · exact ih c hc

/-- A text keeps its lexemes when it is trimmed. -/
theorem Lexed.trimChars {cs : List Char} {ts : List Lexeme} (h : Lexed cs ts) :
    Lexed (Text.trimChars cs) ts := by
  have hfront : Lexed ((cs.dropWhile Text.isBlank).rdropWhile Text.isBlank ++
      (cs.dropWhile Text.isBlank).rtakeWhile Text.isBlank) ts := by
    rw [List.rdropWhile_append_rtakeWhile]
    exact h.dropWhile_isBlank
  exact hfront.of_append_blank fun c hc ↦ List.mem_rtakeWhile_imp hc

end Lexeme

/-! ### Texts between blanks -/

/-- A text with blanks in front of it and behind it. -/
def Framed (m cs : List Char) : Prop :=
  ∃ a b, cs = a ++ (m ++ b) ∧ (∀ c ∈ a, Text.isBlank c = true) ∧ ∀ c ∈ b, Text.isBlank c = true

theorem framed_refl (cs : List Char) : Framed cs cs := ⟨[], [], by simp⟩

theorem framed_trimChars (cs : List Char) : Framed (Text.trimChars cs) cs := by
  refine ⟨cs.takeWhile Text.isBlank, (cs.dropWhile Text.isBlank).rtakeWhile Text.isBlank, ?_,
    fun c hc ↦ List.mem_takeWhile_imp hc, fun c hc ↦ List.mem_rtakeWhile_imp hc⟩
  rw [show Text.trimChars cs = (cs.dropWhile Text.isBlank).rdropWhile Text.isBlank from rfl,
    List.rdropWhile_append_rtakeWhile, List.takeWhile_append_dropWhile]

/-- Blanks at the ends make no difference to a text that is trimmed. -/
theorem Framed.trimChars_eq {m cs : List Char} (h : Framed m cs) :
    Text.trimChars cs = Text.trimChars m := by
  obtain ⟨a, b, rfl, ha, hb⟩ := h
  rw [Text.trimChars, Text.trimChars, List.dropWhile_append_of_pos ha, List.dropWhile_append]
  split
  · rename_i hm
    rw [List.isEmpty_iff.1 hm, List.dropWhile_eq_nil_iff.2 hb]
  · rw [List.reverse_append, List.dropWhile_append_of_pos fun c hc ↦ hb c (List.mem_reverse.1 hc)]

/-- A visible character in a framed text belongs to what is framed. -/
theorem Framed.exists_middle {m p q : List Char} {c : Char} (h : Framed m (p ++ c :: q))
    (hc : Text.isBlank c = false) :
    ∃ a b p' q', p = a ++ p' ∧ q = q' ++ b ∧ m = p' ++ c :: q' ∧
      (∀ d ∈ a, Text.isBlank d = true) ∧ ∀ d ∈ b, Text.isBlank d = true := by
  obtain ⟨a, b, heq, ha, hb⟩ := h
  have hnot : ∀ {w : List Char}, (∀ d ∈ w, Text.isBlank d = true) → c ∉ w := by
    intro w hw hmem
    exact Bool.false_ne_true (hc.symm.trans (hw c hmem))
  rw [← List.append_assoc] at heq
  have hleft : ∃ q', q = q' ++ b ∧ p ++ c :: q' = a ++ m := by
    rcases List.append_eq_append_iff.1 heq with ⟨x, hx, hxb⟩ | ⟨x, rfl, hxb⟩
    · cases x with
      | nil => exact absurd (by rw [← List.nil_append b, ← hxb]; simp) (hnot hb)
      | cons d x =>
        obtain ⟨rfl, rfl⟩ := List.cons.inj hxb
        exact ⟨x, rfl, hx.symm⟩
    · exact absurd (by rw [hxb]; simp) (hnot hb)
  obtain ⟨q', rfl, hleft⟩ := hleft
  rcases List.append_eq_append_iff.1 hleft with ⟨x, rfl, hx⟩ | ⟨x, rfl, hx⟩
  · cases x with
    | nil => exact ⟨p, b, [], q', by simp, rfl, hx.symm, by simpa using ha, hb⟩
    | cons d x =>
      obtain ⟨rfl, -⟩ := List.cons.inj hx
      exact absurd (by simp) (hnot ha)
  · exact ⟨a, b, x, q', rfl, rfl, hx, ha, hb⟩

/-! ### Lexemes that are a line -/

/-- Lexemes over which the machine finds a line. -/
def Derives (ts : List Lexeme) (l : Line) : Prop :=
  ∃ s, State.start.steps ts = some s ∧ s.line? = some l

/-- A text that spells a line between blanks. -/
def Spelled (cs : List Char) (l : Line) : Prop :=
  ∃ ts, Lexeme.Lexed (Text.trimChars cs) ts ∧ Derives ts l

theorem read_eq_ok_iff_spelled {text : String} {l : Line} :
    read text = .ok l ↔ Spelled text.toList l := by
  rw [read_eq_ok_iff, readChars_eq_ok_iff]
  constructor
  · rintro ⟨tree, hlexed, hvalue⟩
    exact ⟨tree.yield, hlexed, exists_line?_iff.2 ⟨tree, rfl, hvalue⟩⟩
  · rintro ⟨ts, hlexed, hderives⟩
    obtain ⟨tree, rfl, hvalue⟩ := exists_line?_iff.1 hderives
    exact ⟨tree, hlexed, hvalue⟩

theorem Framed.spelled_iff {m cs : List Char} {l : Line} (h : Framed m cs) :
    Spelled cs l ↔ Spelled m l := by
  rw [Spelled, Spelled, h.trimChars_eq]

/-- A text that is lexemes spells the line that the machine finds for them. -/
theorem Lexeme.Lexed.spelled_iff {cs : List Char} {ts : List Lexeme} {l : Line}
    (h : Lexed cs ts) : Spelled cs l ↔ Derives ts l := by
  refine ⟨?_, fun hderives ↦ ⟨ts, h.trimChars, hderives⟩⟩
  rintro ⟨us, hlexed, hderives⟩
  rwa [h.trimChars.unique hlexed]

/-- Where a visible character is a boundary, a text that spells a line comes apart into the lexemes
in front of it and those behind. -/
theorem Spelled.exists_split {p q : List Char} {c : Char} {l : Line} (h : Spelled (p ++ c :: q) l)
    (hc : Text.isBlank c = false) (hpart : Lexeme.isWordPart c = false) (hclose : c ≠ '>') :
    ∃ a b p' q' ts us, p = a ++ p' ∧ q = q' ++ b ∧ (∀ d ∈ a, Text.isBlank d = true) ∧
      (∀ d ∈ b, Text.isBlank d = true) ∧ Lexeme.Lexed p' ts ∧ Lexeme.Lexed (c :: q') us ∧
      Derives (ts ++ us) l := by
  obtain ⟨us, hlexed, hderives⟩ := h
  obtain ⟨a, b, p', q', rfl, rfl, heq, ha, hb⟩ :=
    (framed_trimChars (p ++ c :: q)).exists_middle hc
  rw [heq] at hlexed
  obtain ⟨ts, us, rfl, hp, hq⟩ := hlexed.split (Lexeme.boundary_cons hpart hclose)
  exact ⟨a, b, p', q', ts, us, rfl, rfl, ha, hb, hp, hq, hderives⟩

/-- Every character of a text that spells a line is of ASCII or blank. -/
theorem Spelled.ascii {cs : List Char} {l : Line} (h : Spelled cs l) :
    ∀ c ∈ cs, c.toNat < 0x80 ∨ Text.isBlank c = true := by
  obtain ⟨ts, hlexed, -⟩ := h
  obtain ⟨a, b, heq, ha, hb⟩ := framed_trimChars cs
  rw [heq]
  intro c hc
  rcases List.mem_append.1 hc with hc | hc
  · exact .inr (ha c hc)
  · rcases List.mem_append.1 hc with hc | hc
    · exact .inl (hlexed.ascii c hc)
    · exact .inr (hb c hc)

end A64Text.Line
