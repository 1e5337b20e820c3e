import A64Text.Proofs.Line.Cuts
import Mathlib

/-!
# Texts in another case

Reading does not tell letters by case. The patterns of lexemes do not (`caseBlind_pattern`): each is
put together from classes of characters that have both cases of a letter or neither, and the
operations that put it together keep that. The longest match in a text is therefore as long as the
longest match in the text in another case, and the two texts come apart in the same places
(`Lexed.recase`).

The lexemes that they come apart into are synonyms: words that differ in case, which have the same
normal name, and numbers that are equal. The machine takes synonyms for the same
(`State.step_eq_of_synonym`), so they are the same line (`Derives.of_synonym`).
-/

namespace A64Text.Line

open Lexeme

/-! ### Case -/

/-- Texts that differ in the case of letters. -/
def Recased (cs ds : List Char) : Prop := cs.map Char.toLower = ds.map Char.toLower

instance (cs ds : List Char) : Decidable (Recased cs ds) :=
  inferInstanceAs (Decidable (cs.map Char.toLower = ds.map Char.toLower))

theorem Recased.symm {cs ds : List Char} (h : Recased cs ds) : Recased ds cs := Eq.symm h

theorem Recased.length_eq {cs ds : List Char} (h : Recased cs ds) : cs.length = ds.length := by
  simpa using congrArg List.length h

theorem Recased.exists_cons {c : Char} {cs ds : List Char} (h : Recased (c :: cs) ds) :
    ∃ d ds', ds = d :: ds' ∧ d.toLower = c.toLower ∧ Recased cs ds' := by
  obtain ⟨d, ds', rfl, hd, hds⟩ := List.map_eq_cons_iff.1 (Eq.symm h)
  exact ⟨d, ds', rfl, hd, hds.symm⟩

theorem Recased.exists_append {cs cs' ds : List Char} (h : Recased (cs ++ cs') ds) :
    ∃ es es', ds = es ++ es' ∧ Recased cs es ∧ Recased cs' es' := by
  obtain ⟨es, es', rfl, hes, hes'⟩ := List.map_eq_append_iff.1 (h.symm.trans List.map_append)
  exact ⟨es, es', rfl, hes.symm, hes'.symm⟩

/-- A class of characters that has each capital letter with its lower-case, or neither, does not
tell letters by case. -/
theorem eq_of_toLower_eq {p : Char → Bool}
    (hp : ∀ n < 0x5B, p (Char.ofNat n).toLower = p (Char.ofNat n)) {c d : Char}
    (h : d.toLower = c.toLower) : p d = p c := by
  have hlower : ∀ c, p c.toLower = p c := by
    intro c
    cases hc : c.isUpper with
    | true =>
      have hclass := hp c.toNat (Nat.lt_succ_of_le (isUpper_iff.1 hc).2)
      rwa [Char.ofNat_toNat] at hclass
    | false => rw [Char.toLower_eq_of_not_isUpper (by simp [hc])]
  rw [← hlower d, h, hlower c]

theorem recased_upperAscii (s : String) : Recased s.toList (Text.upperAscii s).toList := by
  simp [Recased, Text.upperAscii]

theorem recased_lowerAscii (s : String) : Recased s.toList (Text.lowerAscii s).toList := by
  simp [Recased, Text.lowerAscii]

/-! ### Patterns and case -/

/-- A pattern that does not tell letters by case. -/
def CaseBlind (l : Language Char) : Prop := ∀ w v, w ∈ l → Recased w v → v ∈ l

theorem CaseBlind.one : CaseBlind 1 := by
  rintro w v rfl h
  exact List.eq_nil_of_length_eq_zero h.length_eq.symm

theorem CaseBlind.add {l m : Language Char} (hl : CaseBlind l) (hm : CaseBlind m) :
    CaseBlind (l + m) := by
  rintro w v (hw | hw) h
  · exact .inl (hl w v hw h)
  · exact .inr (hm w v hw h)

theorem CaseBlind.mul {l m : Language Char} (hl : CaseBlind l) (hm : CaseBlind m) :
    CaseBlind (l * m) := by
  intro w v hw h
  obtain ⟨a, ha, b, hb, rfl⟩ := Language.mem_mul.1 hw
  obtain ⟨a', b', rfl, hfront, hback⟩ := h.exists_append
  exact Language.append_mem_mul (hl a a' ha hfront) (hm b b' hb hback)

section OneOf

variable {p : Char → Bool} (hp : ∀ n < 0x5B, p (Char.ofNat n).toLower = p (Char.ofNat n))
include hp

theorem CaseBlind.oneOf : CaseBlind (oneOf p) := by
  rintro w v ⟨c, hc, rfl⟩ h
  obtain ⟨d, tail, rfl, hd, htail⟩ := h.exists_cons
  obtain rfl := List.eq_nil_of_length_eq_zero htail.length_eq.symm
  exact ⟨d, (eq_of_toLower_eq hp hd).trans hc, rfl⟩

theorem forall_of_recased {w v : List Char} (hw : ∀ c ∈ w, p c = true) (h : Recased w v) :
    ∀ c ∈ v, p c = true := by
  induction w generalizing v with
  | nil =>
    obtain rfl := List.eq_nil_of_length_eq_zero h.length_eq.symm
    simp
  | cons c w ih =>
    obtain ⟨d, tail, rfl, hd, htail⟩ := h.exists_cons
    obtain ⟨hc, hw⟩ := List.forall_mem_cons.1 hw
    exact List.forall_mem_cons.2 ⟨(eq_of_toLower_eq hp hd).trans hc, ih hw htail⟩

theorem CaseBlind.star_oneOf : CaseBlind (KStar.kstar (Lexeme.oneOf p)) := fun _ _ hw h ↦
  mem_star_oneOf.2 (forall_of_recased hp (mem_star_oneOf.1 hw) h)

end OneOf

/-- A character that is no letter is a pattern of its own. -/
theorem CaseBlind.singleton {c : Char}
    (hc : ∀ n < 0x5B, decide ((Char.ofNat n).toLower = c) = decide (Char.ofNat n = c)) :
    CaseBlind {[c]} := by
  rintro w v rfl h
  obtain ⟨d, tail, rfl, hd, htail⟩ := h.exists_cons
  obtain rfl := List.eq_nil_of_length_eq_zero htail.length_eq.symm
  have hclass := eq_of_toLower_eq (p := fun x ↦ decide (x = c)) hc hd
  obtain rfl : d = c := by simpa using hclass
  rfl

theorem caseBlind_wordPattern : CaseBlind wordPattern := by
  have hopening : CaseBlind (1 + {['<']}) := CaseBlind.one.add (.singleton (by decide))
  have hstart : CaseBlind (oneOf isWordStart) := .oneOf (by decide)
  have hparts : CaseBlind (KStar.kstar (oneOf isWordPart)) := .star_oneOf (by decide)
  have hclosing : CaseBlind (1 + {['>']}) := CaseBlind.one.add (.singleton (by decide))
  exact (hopening.mul (hstart.mul hparts)).mul hclosing

theorem caseBlind_numberPattern : CaseBlind numberPattern := by
  have hdigit : CaseBlind (oneOf Numeral.isDecimalDigit) := .oneOf (by decide)
  have hdigits : CaseBlind (KStar.kstar (oneOf Numeral.isDecimalDigit)) := .star_oneOf (by decide)
  have hhex : CaseBlind (oneOf Numeral.isHexDigit) := .oneOf (by decide)
  have hhexes : CaseBlind (KStar.kstar (oneOf Numeral.isHexDigit)) := .star_oneOf (by decide)
  have hzero : CaseBlind {['0']} := .singleton (by decide)
  have hmark : CaseBlind (oneOf fun c ↦ c = 'x' || c = 'X') := .oneOf (by decide)
  have hsign : CaseBlind (oneOf fun c ↦ c = '+' || c = '-') := .oneOf (by decide)
  exact (CaseBlind.one.add hsign).mul
    (((hzero.mul hmark).mul (hhex.mul hhexes)).add (hdigit.mul hdigits))

theorem caseBlind_pattern : ∀ t : Lexeme, CaseBlind t.pattern
  | .word _ => caseBlind_wordPattern
  | .number _ => caseBlind_numberPattern
  | .beginMemory => .singleton (by decide)
  | .endMemory => .singleton (by decide)
  | .comma => .singleton (by decide)
  | .hash => .singleton (by decide)
  | .bang => .singleton (by decide)

/-! ### Lexemes in another case -/

/-- Lexemes that are the same to the machine: words that differ in case, and numbers that are
equal. -/
inductive Synonym : Lexeme → Lexeme → Prop
  | same (t : Lexeme) : Synonym t t
  | word {w v : List Char} (h : Recased w v) : Synonym (.word w) (.word v)
  | number {w v : List Char} (h : numberValue w = numberValue v) : Synonym (.number w) (.number v)

/-- A number keeps its value in another case. -/
theorem numberValue_of_recased {w v : List Char} (hw : w ∈ numberPattern) (h : Recased w v) :
    numberValue w = numberValue v := by
  have hv := integer?_of_mem_numberPattern (caseBlind_numberPattern w v hw h)
  have hsame : Numeral.integer? w = Numeral.integer? v := by
    unfold Numeral.integer?
    rw [show w.map Char.toLower = v.map Char.toLower from h]
  rw [integer?_of_mem_numberPattern hw, hv] at hsame
  exact Option.some.inj hsame

/-- The longest match stays the longest one in another case. -/
theorem Lexeme.LongestMatch.recase {l : Language Char} {cs w rest ds : List Char}
    (h : LongestMatch l cs w rest) (hl : CaseBlind l) (hcs : Recased cs ds) :
    ∃ w' rest', LongestMatch l ds w' rest' ∧ Recased w w' ∧ Recased rest rest' := by
  obtain ⟨hmem, rfl, hlongest⟩ := h
  obtain ⟨w', rest', rfl, hw, hrest⟩ := hcs.exists_append
  refine ⟨w', rest', ⟨hl w w' hmem hw, rfl, ?_⟩, hw, hrest⟩
  rintro v hv ⟨tail, htail⟩
  rw [← htail] at hcs
  obtain ⟨v', tail', heq, hv', -⟩ := hcs.symm.exists_append
  rw [hv'.length_eq, ← hw.length_eq]
  exact hlongest v' (hl v v' hv hv') ⟨tail', heq.symm⟩

theorem exists_synonym {t : Lexeme} {w : List Char} (ht : t.spelling ∈ t.pattern)
    (h : Recased t.spelling w) : ∃ u, u.spelling = w ∧ u.pattern = t.pattern ∧ Synonym t u := by
  have hw := caseBlind_pattern t _ w ht h
  cases t with
  | word => exact ⟨.word w, rfl, rfl, .word h⟩
  | number => exact ⟨.number w, rfl, rfl, .number (numberValue_of_recased ht h)⟩
  | _ =>
    obtain rfl : w = _ := hw
    exact ⟨_, rfl, rfl, .same _⟩

/-- A text in another case comes apart into synonyms. -/
theorem Lexeme.Lexed.recase {cs ds : List Char} {ts : List Lexeme} (h : Lexed cs ts)
    (hcs : Recased cs ds) : ∃ us, Lexed ds us ∧ List.Forall₂ Synonym ts us := by
  induction h generalizing ds with
  | nil =>
    obtain rfl := List.eq_nil_of_length_eq_zero hcs.length_eq.symm
    exact ⟨[], .nil, .nil⟩
  | space hc _ ih =>
    obtain ⟨d, tail, rfl, hd, htail⟩ := hcs.exists_cons
    obtain ⟨us, hus, hsame⟩ := ih htail
    exact ⟨us, .space ((eq_of_toLower_eq (by decide) hd).trans hc) hus, hsame⟩
  | cons hmatch _ ih =>
    obtain ⟨w, rest, hmatch', hw, hrest⟩ := hmatch.recase (caseBlind_pattern _) hcs
    obtain ⟨us, hus, hsame⟩ := ih hrest
    obtain ⟨u, rfl, hpattern, hu⟩ := exists_synonym hmatch.mem hw
    rw [← hpattern] at hmatch'
    exact ⟨u :: us, .cons hmatch' hus, .cons hu hsame⟩

theorem trimChars_recased {cs ds : List Char} (h : Recased cs ds) :
    Recased (Text.trimChars cs) (Text.trimChars ds) := by
  have hblank : Text.isBlank ∘ Char.toLower = Text.isBlank :=
    funext fun c ↦ eq_of_toLower_eq (by decide) c.toLower_toLower_eq_toLower
  have hmap : ∀ cs,
      (Text.trimChars cs).map Char.toLower = Text.trimChars (cs.map Char.toLower) := by
    intro cs
    simp only [Text.trimChars, List.dropWhile_map, hblank, ← List.map_reverse]
  rw [Recased, hmap, hmap, h]

/-! ### Synonyms -/

/-- The machine takes synonyms for the same. -/
theorem State.step_eq_of_synonym {t u : Lexeme} (h : Synonym t u) (s : State) :
    s.step t = s.step u := by
  cases h with
  | same => rfl
  | word h =>
    have hname : normalMnemonic _ = normalMnemonic _ := congrArg String.ofList h
    cases s with
    | start => exact congrArg (fun m ↦ some (mnemonic m)) hname
    | closed _ _ _ writeback => cases writeback <;> rfl
    | mnemonic => simp [step, startOperand, Pending.step, normalName, hname]
    | operand _ _ pending =>
      cases pending <;> simp [step, startOperand, Pending.step, normalName, hname]
    | memory _ _ _ pending => cases pending <;> simp [step, Pending.step, normalName, hname]
  | number h =>
    cases s with
    | start => rfl
    | closed _ _ _ writeback => cases writeback <;> rfl
    | mnemonic => simp [step, startOperand, Pending.step, h]
    | operand _ _ pending => cases pending <;> simp [step, startOperand, Pending.step, h]
    | memory _ _ _ pending => cases pending <;> simp [step, Pending.step, h]

theorem State.steps_eq_of_synonym {ts us : List Lexeme} (h : List.Forall₂ Synonym ts us)
    (s : State) : s.steps ts = s.steps us := by
  induction h generalizing s with
  | nil => rfl
  | cons h _ ih => rw [steps, steps, step_eq_of_synonym h, funext ih]

theorem Derives.of_synonym {ts us : List Lexeme} {l : Line} (h : Derives ts l)
    (hsame : List.Forall₂ Synonym ts us) : Derives us l := by
  obtain ⟨s, hsteps, hline⟩ := h
  exact ⟨s, (State.steps_eq_of_synonym hsame _).symm.trans hsteps, hline⟩

end A64Text.Line
