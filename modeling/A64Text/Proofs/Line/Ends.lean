import A64Text.Proofs.Line.Spelling
import A64Text.Text.Case

/-!
# The ends of a text

Reading drops the blanks at the two ends of a text. A text that starts and ends with a character that
is not blank is read as it is (`trimChars_eq`), and words and numbers are such texts, because none of
their characters is blank.
-/

namespace A64Text.Line

/-! ### Characters that are not blank -/

/-- Characters of ASCII above the space are not blank. -/
theorem isBlank_eq_false {c : Char} (h : 0x20 < c.toNat) (h' : c.toNat < 0x7F) :
    Text.isBlank c = false := by
  have hranges : ∀ r ∈ Text.blankRanges, r.2 ≤ 0x20 ∨ 0x7F ≤ r.1 := by decide
  refine List.any_eq_false.2 ?_
  intro r hr
  simp only [Bool.and_eq_true, decide_eq_true_eq]
  have := hranges r hr
  omega

namespace Lexeme

theorem isBlank_of_isWordPart {c : Char} (h : isWordPart c = true) : Text.isBlank c = false := by
  have hrange : 0x20 < c.toNat ∧ c.toNat < 0x7F := by
    rw [isWordPart_iff, isAlpha_iff] at h
    rcases h with (h | rfl) | rfl
    · omega
    · decide
    · decide
  exact isBlank_eq_false hrange.1 hrange.2

theorem isBlank_of_mem_wordTail {cs : List Char} (h : wordTail cs = (cs, [])) :
    ∀ c ∈ cs, Text.isBlank c = false := by
  have hpart : ∀ c ∈ cs.takeWhile isWordPart, Text.isBlank c = false :=
    fun c hc ↦ isBlank_of_isWordPart (List.mem_takeWhile_imp hc)
  rw [wordTail] at h
  split at h
  · rw [← (Prod.mk.inj h).1]
    intro c hc
    rcases List.mem_append.1 hc with hc | hc
    · exact hpart c hc
    · rw [List.mem_singleton.1 hc]
      decide
  · rw [← (Prod.mk.inj h).1]
    exact hpart

/-- No character of a word is blank. -/
theorem IsWord.isBlank_eq_false {cs : List Char} (h : IsWord cs) :
    ∀ c ∈ cs, Text.isBlank c = false := by
  have htail : ∀ {tail : List Char}, (wordTail tail).1 = tail → (wordTail tail).2 = [] →
      ∀ c ∈ tail, Text.isBlank c = false :=
    fun h₁ h₂ ↦ isBlank_of_mem_wordTail (Prod.ext h₁ h₂)
  have hstart : ∀ {c : Char}, isWordStart c = true → Text.isBlank c = false := by
    intro c hc
    refine isBlank_of_isWordPart ?_
    simp only [isWordStart, isWordPart, Char.isAlphanum, Bool.or_eq_true] at hc ⊢
    rcases hc with hc | hc
    · exact .inl (.inl (.inl hc))
    · exact .inl (.inr hc)
  unfold IsWord word? at h
  split at h
  · obtain ⟨hc, h⟩ := Option.ite_none_right_eq_some.1 h
    simp only [Option.some.injEq, Prod.mk.injEq, List.cons.injEq, true_and] at h
    refine List.forall_mem_cons.2 ⟨by decide, List.forall_mem_cons.2 ⟨hstart hc, ?_⟩⟩
    exact htail h.1 h.2
  · obtain ⟨hc, h⟩ := Option.ite_none_right_eq_some.1 h
    simp only [Option.some.injEq, Prod.mk.injEq, List.cons.injEq, true_and] at h
    exact List.forall_mem_cons.2 ⟨hstart hc, htail h.1 h.2⟩
  · cases h

end Lexeme

/-! ### Texts without blanks at their ends -/

/-- A text whose last character is not blank. -/
def EndsSolid (cs : List Char) : Prop := ∃ init c, cs = init ++ [c] ∧ Text.isBlank c = false

theorem endsSolid_of_forall {cs : List Char} (hne : cs ≠ [])
    (h : ∀ c ∈ cs, Text.isBlank c = false) : EndsSolid cs :=
  ⟨cs.dropLast, cs.getLast hne, (List.dropLast_concat_getLast hne).symm,
    h _ (List.getLast_mem hne)⟩

theorem EndsSolid.append {ds : List Char} (h : EndsSolid ds) (cs : List Char) :
    EndsSolid (cs ++ ds) := by
  obtain ⟨init, c, rfl, hc⟩ := h
  exact ⟨cs ++ init, c, (List.append_assoc _ _ _).symm, hc⟩

theorem EndsSolid.cons {ds : List Char} (h : EndsSolid ds) (c : Char) : EndsSolid (c :: ds) :=
  h.append [c]

theorem Lexeme.IsWord.endsSolid {cs : List Char} (h : IsWord cs) : EndsSolid cs := by
  refine endsSolid_of_forall ?_ h.isBlank_eq_false
  obtain ⟨c, tail, rfl, -⟩ := h.exists_cons
  exact List.cons_ne_nil c tail

/-- Trimming leaves a text alone that has no blanks at its ends. -/
theorem trimChars_eq {c : Char} {tail : List Char} (hc : Text.isBlank c = false)
    (h : EndsSolid (c :: tail)) : Text.trimChars (c :: tail) = c :: tail := by
  obtain ⟨init, d, heq, hd⟩ := h
  rw [Text.trimChars, List.dropWhile_cons_of_neg (by simp [hc]), heq, List.reverse_append,
    List.reverse_singleton, List.singleton_append, List.dropWhile_cons_of_neg (by simp [hd])]
  simp

end A64Text.Line
