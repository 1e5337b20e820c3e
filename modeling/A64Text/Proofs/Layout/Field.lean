import A64Text.Proofs.Layout.Outcome

/-!
# Named fields always have a part

A barrier option or a prefetch operation that is an integer is shown as a name or as a number. For
values inside the field this is looked up; above it the number is shown.
-/

namespace A64Text

/-- A field of a system instruction is a name. -/
theorem isName_field (n : Nat) : IsName ("C" ++ Numeral.decimal n) := by
  have hlist : ("C" ++ Numeral.decimal n).toList = 'C' :: (Numeral.decimal n).toList := by simp
  exact isName_of_toList hlist (by decide) (by decide) fun _ ↦ isWordPart_of_mem_decimal

/-- A result that is there and passes a test. -/
theorem exists_ok_of_any {α ε : Type} {p : α → Bool} {x : Except ε α}
    (h : x.toOption.any p = true) : ∃ a, x = .ok a ∧ p a = true := by
  cases x with
  | error e => cases h
  | ok a => exact ⟨a, rfl, h⟩

theorem Barrier.exists_part {option : Immediate} (h : option.hasIntegers = true) :
    ∃ p, part option.given = .ok p ∧ p.isPlain = true := by
  rw [Immediate.given_eq_value h]
  generalize option.value = n
  by_cases hn : 15 < n
  · have hn' : 15 < (n : Int) := by omega
    refine ⟨.decimal (.int n), ?_, rfl⟩
    simp only [part, Number.integer?_int, if_pos hn']
    split <;> rfl
  · have hfield : ∀ n < 16, ((part (.int (n : Nat))).toOption.any Part.isPlain) = true := by
      decide
    exact exists_ok_of_any (hfield n (by omega))

theorem Prefetch.exists_part {operation : Immediate} (h : operation.hasIntegers = true) :
    ∃ p, part operation.given = .ok p ∧ p.isPlain = true := by
  rw [Immediate.given_eq_value h]
  generalize operation.value = n
  by_cases hn : 31 < n
  · have hn' : 31 < (n : Int) := by omega
    refine ⟨.decimal (.int n), ?_, rfl⟩
    simp only [part, Number.integer?_int, if_pos hn']
  · have hfield : ∀ n < 32, ((part (.int (n : Nat))).toOption.any Part.isPlain) = true := by
      decide
    exact exists_ok_of_any (hfield n (by omega))

theorem Condition.isName_text (c : Condition) : IsName c.text := by
  cases c <;> decide

end A64Text
