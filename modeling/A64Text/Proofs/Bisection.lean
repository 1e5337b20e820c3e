import A64Text.Opcode.Family

/-!
# Bisection finds its place

The invariant of bisection between two places: bounds before the lower place are below the number
that is looked for, bounds from the upper place on are not. It holds at the beginning because there
is nothing to say, every step keeps it because the bounds ascend, and when the two places meet it
says where the number falls (`lowerBoundBetween_splits`). For ascending bounds the place is then the
number of bounds below the given number (`lowerBound_eq_countP`).
-/

namespace A64Text

/-- Bounds of which every one is below all that follow it. -/
def Ascending (bounds : Array Int) : Prop := bounds.toList.Pairwise (· < ·)

instance (bounds : Array Int) : Decidable (Ascending bounds) :=
  inferInstanceAs (Decidable (bounds.toList.Pairwise (· < ·)))

theorem Ascending.lt {bounds : Array Int} (hasc : Ascending bounds) {j k : Nat} (hjk : j < k)
    (hk : k < bounds.size) : bounds[j] < bounds[k] := by
  have h := List.pairwise_iff_getElem.1 hasc j k (by simpa using by omega) (by simpa using hk) hjk
  simpa using h

/-- A place splits bounds at a number: the bounds before it are below the number, and the bounds
from it on are not. -/
structure Splits (bounds : Array Int) (x : Int) (place : Nat) : Prop where
  below : ∀ (j : Nat) (hj : j < bounds.size), j < place → bounds[j] < x
  above : ∀ (j : Nat) (hj : j < bounds.size), place ≤ j → x ≤ bounds[j]

/-- Bisection between two places that enclose the place it looks for finds a place that splits. -/
theorem lowerBoundBetween_splits {bounds : Array Int} {x : Int} (hasc : Ascending bounds)
    {low high : Nat} (hhigh : high ≤ bounds.size) (hle : low ≤ high)
    (hbelow : ∀ (j : Nat) (hj : j < bounds.size), j < low → bounds[j] < x)
    (habove : ∀ (j : Nat) (hj : j < bounds.size), high ≤ j → x ≤ bounds[j]) :
    Splits bounds x (lowerBoundBetween bounds x low high hhigh) ∧
      lowerBoundBetween bounds x low high hhigh ≤ bounds.size := by
  fun_induction lowerBoundBetween bounds x low high hhigh with
  | case1 low high hhigh hlt middle hmid ih =>
    -- The middle bound is below `x`, and so are all before it.
    refine ih (by omega) ?_ habove
    intro j hj hjm
    rcases Nat.lt_or_ge j middle with hj' | hj'
    · exact Int.lt_trans (hasc.lt hj' (by omega)) hmid
    · have heq : j = middle := by omega
      subst heq
      exact hmid
  | case2 low high hhigh hlt middle hmid ih =>
    -- The middle bound is not below `x`, and neither are those behind it.
    refine ih (by omega) hbelow ?_
    intro j hj hjm
    have hge : x ≤ bounds[middle] := Int.not_lt.1 hmid
    rcases Nat.lt_or_ge middle j with hj' | hj'
    · exact Int.le_trans hge (Int.le_of_lt (hasc.lt hj' hj))
    · have heq : j = middle := by omega
      subst heq
      exact hge
  | case3 low high hhigh hge =>
    have heq : low = high := by omega
    subst heq
    exact ⟨⟨hbelow, habove⟩, hhigh⟩

theorem lowerBound_splits {bounds : Array Int} (hasc : Ascending bounds) (x : Int) :
    Splits bounds x (lowerBound bounds x) ∧ lowerBound bounds x ≤ bounds.size :=
  lowerBoundBetween_splits hasc _ (Nat.zero_le _) (fun _ _ h ↦ absurd h (Nat.not_lt_zero _))
    fun _ hj h ↦ absurd hj (Nat.not_lt.2 h)

/-- A place that splits a list counts the bounds below the number. -/
theorem countP_eq_of_splits {xs : List Int} {x : Int} {place : Nat} (hle : place ≤ xs.length)
    (hbelow : ∀ (j : Nat) (hj : j < xs.length), j < place → xs[j] < x)
    (habove : ∀ (j : Nat) (hj : j < xs.length), place ≤ j → x ≤ xs[j]) :
    xs.countP (· < x) = place := by
  induction xs generalizing place with
  | nil =>
    have hzero : place = 0 := by simpa using hle
    simp [hzero]
  | cons y ys ih =>
    cases place with
    | zero =>
      have hnone : ∀ z ∈ y :: ys, ¬ decide (z < x) = true := by
        intro z hz
        obtain ⟨j, hj, rfl⟩ := List.mem_iff_getElem.1 hz
        have := habove j hj (Nat.zero_le _)
        simp only [decide_eq_true_eq]
        omega
      exact List.countP_eq_zero.2 hnone
    | succ place =>
      have hy : y < x := hbelow 0 (by simp) (by omega)
      rw [List.countP_cons_of_pos (by simpa using hy)]
      congr 1
      refine ih (by simpa using hle) (fun j hj hjp ↦ ?_) (fun j hj hjp ↦ ?_)
      · exact hbelow (j + 1) (by simpa using hj) (by omega)
      · exact habove (j + 1) (by simpa using hj) (by omega)

/-- Among ascending bounds, bisection counts the ones below the given number. -/
theorem lowerBound_eq_countP {bounds : Array Int} (hasc : Ascending bounds) (x : Int) :
    lowerBound bounds x = bounds.toList.countP (· < x) := by
  obtain ⟨⟨hbelow, habove⟩, hle⟩ := lowerBound_splits hasc x
  exact (countP_eq_of_splits (by simpa using hle) (by simpa using hbelow)
    (by simpa using habove)).symm

end A64Text
