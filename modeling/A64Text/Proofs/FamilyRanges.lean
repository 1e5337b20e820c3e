import A64Text.Proofs.OpcodeFamily
import Mathlib.Data.List.Chain
import Mathlib.Data.List.Count

/-!
# The ranges of families

The upper bounds of the families are used in two ways. Bisection counts the bounds below a number,
and ranges are built from the left, each one starting where the one before it ends. For bounds that
ascend the two agree: a number from the first one on lies in a range if and only if the place of the
range counts the bounds below the number (`mem_rangesFrom_iff`). The ranges follow one another
without gaps whatever the bounds are, and ascending bounds make each of them hold a number.

For the bounds of the families it follows that a number belongs to the family in whose range it
lies, and that the ranges hold the numbers of opcodes and no others (`Family.ofNumber?_iff_range`).
-/

namespace A64Text

/-- The numbers of opcodes end with that of the last one. -/
theorem Opcode.number_le_length (op : Opcode) : op.number ≤ all.length :=
  List.idxOf_lt_length_of_mem op.mem_all

theorem Opcode.number_last : (dataProcessingThreeSource .umsubl).number = all.length := by
  decide +kernel

namespace Family

/-! ### Ranges made from bounds -/

/-- The numbers of a range. -/
instance : Membership Int Range := ⟨fun r n ↦ (r.first : Int) ≤ n ∧ n ≤ r.last⟩

theorem Range.mem_iff {r : Range} {n : Int} : n ∈ r ↔ (r.first : Int) ≤ n ∧ n ≤ r.last := Iff.rfl

/-- Upper bounds that ascend, from the number `first` on. -/
structure AscendFrom (first : Nat) (bounds : List (Opcode × Family)) : Prop where
  first_le : ∀ b ∈ bounds, first ≤ b.1.number
  pairwise : bounds.Pairwise fun b c ↦ b.1.number < c.1.number

/-- How many bounds are below a number. -/
def boundsBelow (bounds : List (Opcode × Family)) (n : Int) : Nat :=
  bounds.countP fun b ↦ (b.1.number : Int) < n

section

variable {first : Nat} {bounds : List (Opcode × Family)} {n : Int} {r : Range}

/-- Behind the first bound the others ascend from the number that follows it. -/
theorem AscendFrom.of_cons {b : Opcode × Family} (h : AscendFrom first (b :: bounds)) :
    first ≤ b.1.number ∧ AscendFrom (b.1.number + 1) bounds := by
  obtain ⟨hb, hbounds⟩ := List.pairwise_cons.1 h.pairwise
  exact ⟨h.first_le b List.mem_cons_self, hb, hbounds⟩

/-- Every family with a bound has a range, in the same order. -/
theorem map_family_rangesFrom (first : Nat) (bounds : List (Opcode × Family)) :
    (rangesFrom first bounds).map Range.family = bounds.map (·.2) := by
  induction bounds generalizing first with
  | nil => rfl
  | cons b bounds ih => simp [rangesFrom, ih]

theorem length_rangesFrom (first : Nat) (bounds : List (Opcode × Family)) :
    (rangesFrom first bounds).length = bounds.length := by
  simpa using congrArg List.length (map_family_rangesFrom first bounds)

/-- A range starts where the one before it ends. -/
theorem isChain_rangesFrom (first : Nat) (bounds : List (Opcode × Family)) :
    (rangesFrom first bounds).IsChain fun r s ↦ s.first = r.last + 1 := by
  induction bounds generalizing first with
  | nil => exact .nil
  | cons b bounds ih =>
    refine List.isChain_cons.2 ⟨fun s hs ↦ ?_, ih _⟩
    cases bounds with
    | nil => cases hs
    | cons c bounds =>
      obtain rfl := Option.some.inj hs
      rfl

/-- Ranges made from ascending bounds hold numbers, none of them below the first one. -/
theorem first_le_of_mem_rangesFrom (h : AscendFrom first bounds)
    (hr : r ∈ rangesFrom first bounds) : first ≤ r.first ∧ r.first ≤ r.last := by
  induction bounds generalizing first with
  | nil => cases hr
  | cons b bounds ih =>
    obtain ⟨hb, hbounds⟩ := h.of_cons
    rcases List.mem_cons.1 hr with rfl | hr
    · exact ⟨Nat.le_refl _, hb⟩
    · have := ih hbounds hr
      omega

/-- Ranges made from ascending bounds ascend. -/
theorem pairwise_rangesFrom (h : AscendFrom first bounds) :
    (rangesFrom first bounds).Pairwise fun r s ↦ r.last < s.first := by
  induction bounds generalizing first with
  | nil => exact .nil
  | cons b bounds ih =>
    obtain ⟨-, hbounds⟩ := h.of_cons
    exact List.pairwise_cons.2
      ⟨fun s hs ↦ (first_le_of_mem_rangesFrom hbounds hs).1, ih hbounds⟩

/-- No bound is below a number in front of the first one. -/
theorem boundsBelow_eq_zero (h : AscendFrom first bounds) (hn : n ≤ first) :
    boundsBelow bounds n = 0 := by
  refine List.countP_eq_zero.2 fun b hb ↦ ?_
  have := h.first_le b hb
  simp only [decide_eq_true_eq]
  omega

/-- **Bisection and ranges agree.** A number from the first one on lies in a range if and only if
the place of the range counts the bounds below the number. -/
theorem mem_rangesFrom_iff (h : AscendFrom first bounds) (hn : (first : Int) ≤ n) {k : Nat}
    (hr : (rangesFrom first bounds)[k]? = some r) : n ∈ r ↔ boundsBelow bounds n = k := by
  induction bounds generalizing first k with
  | nil => cases hr
  | cons b bounds ih =>
    obtain ⟨hb, hbounds⟩ := h.of_cons
    rcases Int.lt_or_le (b.1.number : Int) n with hlt | hge
    · -- The number is behind the first range, which is not counted at place zero.
      have hbelow : boundsBelow (b :: bounds) n = boundsBelow bounds n + 1 :=
        List.countP_cons_of_pos (by simpa using hlt)
      rw [hbelow]
      cases k with
      | zero =>
        obtain rfl := Option.some.inj hr
        simp only [Range.mem_iff]
        omega
      | succ k => rw [ih hbounds (by omega) hr, Nat.add_right_cancel_iff]
    · -- The number is in the first range, and no bound is below it.
      have hbelow : boundsBelow (b :: bounds) n = 0 := by
        rw [boundsBelow, List.countP_cons_of_neg (by simpa using hge)]
        exact boundsBelow_eq_zero hbounds (by omega)
      rw [hbelow]
      cases k with
      | zero =>
        obtain rfl := Option.some.inj hr
        exact iff_of_true ⟨hn, hge⟩ rfl
      | succ k =>
        have := (first_le_of_mem_rangesFrom hbounds (List.mem_of_getElem? hr)).1
        simp only [Range.mem_iff]
        omega

/-- Not all bounds are below a number if and only if the number is at most some bound. -/
theorem boundsBelow_lt_length_iff :
    boundsBelow bounds n < bounds.length ↔ ∃ b ∈ bounds, n ≤ b.1.number := by
  simp [boundsBelow, List.countP_lt_length_iff]

/-- Ranges made from ascending bounds hold the numbers from the first one up to some bound. -/
theorem exists_mem_rangesFrom_iff (h : AscendFrom first bounds) :
    (∃ r ∈ rangesFrom first bounds, n ∈ r) ↔
      (first : Int) ≤ n ∧ ∃ b ∈ bounds, n ≤ b.1.number := by
  rw [← boundsBelow_lt_length_iff, ← length_rangesFrom first]
  constructor
  · rintro ⟨r, hr, hn⟩
    have hfirst : (first : Int) ≤ n := by
      have := (first_le_of_mem_rangesFrom h hr).1
      have := hn.1
      omega
    obtain ⟨k, hk, hkr⟩ := List.mem_iff_getElem.1 hr
    rw [(mem_rangesFrom_iff h hfirst (List.getElem?_eq_some_iff.2 ⟨hk, hkr⟩)).1 hn]
    exact ⟨hfirst, hk⟩
  · rintro ⟨hfirst, hlt⟩
    exact ⟨_, List.getElem_mem hlt,
      (mem_rangesFrom_iff h hfirst (List.getElem?_eq_getElem hlt)).2 rfl⟩

end

/-! ### The ranges of the families -/

theorem ascendFrom_upperBounds : AscendFrom 1 upperBounds where
  first_le b _ := Nat.le_add_left 1 _
  pairwise := by
    have hasc : (upperBounds.map fun b ↦ (b.1.number : Int)).Pairwise (· < ·) :=
      ascending_upperNumbers
    exact (List.pairwise_map.1 hasc).imp Int.ofNat_lt.1

theorem map_family_ranges : ranges.map Range.family = all := map_family_rangesFrom 1 upperBounds

theorem mem_all (f : Family) : f ∈ all := by cases f <;> decide

theorem range?_eq_some_iff {f : Family} {r : Range} :
    f.range? = some r ↔ r ∈ ranges ∧ r.family = f := by
  constructor
  · intro h
    have hfamily := List.find?_some (p := fun r : Range ↦ r.family = f) h
    exact ⟨List.mem_of_find?_eq_some h, of_decide_eq_true hfamily⟩
  · rintro ⟨hr, rfl⟩
    have hnodup : (ranges.map Range.family).Nodup := by
      rw [map_family_ranges]
      decide
    exact find?_key hnodup hr

/-- Bisection takes the family at the place that counts the bounds below. -/
theorem ofNumber?_eq_boundsBelow (n : Int) :
    ofNumber? n =
      if n < 1 then none else (ranges[boundsBelow upperBounds n]?).map Range.family := by
  have hcount : upperNumbers.toList.countP (· < n) = boundsBelow upperBounds n := by
    simp only [upperNumbers, boundsBelow, List.countP_map]
    rfl
  rw [ofNumber?_eq_countP, hcount, ← List.getElem?_map, ← List.getElem?_map, ranges,
    map_family_rangesFrom]

/-- A number belongs to a family if and only if it lies in the family's range. -/
theorem ofNumber?_eq_some_iff {n : Int} {f : Family} :
    ofNumber? n = some f ↔ ∃ r, f.range? = some r ∧ n ∈ r := by
  rw [ofNumber?_eq_boundsBelow]
  constructor
  · intro h
    split at h
    · cases h
    · obtain ⟨r, hr, hfamily⟩ := Option.map_eq_some_iff.1 h
      exact ⟨r, range?_eq_some_iff.2 ⟨List.mem_of_getElem? hr, hfamily⟩,
        (mem_rangesFrom_iff ascendFrom_upperBounds (by omega) hr).2 rfl⟩
  · rintro ⟨r, hr, hn⟩
    obtain ⟨hmem, hfamily⟩ := range?_eq_some_iff.1 hr
    have hfirst : (1 : Int) ≤ n := by
      have := (first_le_of_mem_rangesFrom ascendFrom_upperBounds hmem).1
      have := hn.1
      omega
    obtain ⟨k, hk, hkr⟩ := List.mem_iff_getElem.1 hmem
    have hkr : ranges[k]? = some r := List.getElem?_eq_some_iff.2 ⟨hk, hkr⟩
    rw [if_neg (by omega), (mem_rangesFrom_iff ascendFrom_upperBounds hfirst hkr).1 hn, hkr]
    exact congrArg some hfamily

theorem mem_opcodes_iff {op : Opcode} {f : Family} :
    op ∈ f.opcodes ↔ ∃ r, f.range? = some r ∧ (op.number : Int) ∈ r := by
  rw [opcodes]
  split
  · rename_i r hr
    simp [hr, op.mem_all, Range.mem_iff]
  · rename_i hr
    simp [hr]

/-- A number belongs to a family if and only if an opcode of the family has it. -/
theorem ofNumber?_eq_some_iff_opcodes {n : Int} {f : Family} :
    ofNumber? n = some f ↔ ∃ op ∈ f.opcodes, (op.number : Int) = n := by
  constructor
  · intro h
    have hop := h
    rw [ofNumber?_eq] at hop
    obtain ⟨op, hop, -⟩ := Option.map_eq_some_iff.1 hop
    have hnumber := Opcode.number_of_ofNumber? hop
    refine ⟨op, mem_opcodes_iff.2 ?_, hnumber⟩
    rw [hnumber]
    exact ofNumber?_eq_some_iff.1 h
  · rintro ⟨op, hop, rfl⟩
    exact ofNumber?_eq_some_iff.2 (mem_opcodes_iff.1 hop)

/-- A number belongs to no family if and only if no range holds it. -/
theorem ofNumber?_eq_none_iff {n : Int} : ofNumber? n = none ↔ ¬ ∃ r ∈ ranges, n ∈ r := by
  constructor
  · rintro hnone ⟨r, hr, hn⟩
    have hsome := ofNumber?_eq_some_iff.2 ⟨r, range?_eq_some_iff.2 ⟨hr, rfl⟩, hn⟩
    rw [hnone] at hsome
    cases hsome
  · intro hranges
    refine Option.eq_none_iff_forall_ne_some.2 fun f hf ↦ ?_
    obtain ⟨r, hr, hn⟩ := ofNumber?_eq_some_iff.1 hf
    exact hranges ⟨r, (range?_eq_some_iff.1 hr).1, hn⟩

/-- The ranges hold the numbers up to that of the last opcode. -/
theorem exists_mem_ranges_iff {n : Int} :
    (∃ r ∈ ranges, n ∈ r) ↔ 1 ≤ n ∧ n ≤ Opcode.all.length := by
  rw [ranges, exists_mem_rangesFrom_iff ascendFrom_upperBounds]
  refine and_congr_right fun _ ↦ ⟨?_, fun hn ↦ ?_⟩
  · rintro ⟨b, -, hb⟩
    have := b.1.number_le_length
    omega
  · refine ⟨(.dataProcessingThreeSource .umsubl, dataProcessingThreeSource), by decide, ?_⟩
    rwa [Opcode.number_last]

/-- **Bisection agrees with the ranges.** A number belongs to a family if and only if it lies in the
range of the family, and if and only if an opcode of the family has it. There is one range for each
of the families, in their order. Every range holds a number, no two share one, and each starts where
the one before it ends. Together they hold the numbers from that of the first opcode to that of the
last one, and the numbers outside have no family. All of this rests on bisection, which counts the
bounds below a number, whatever ascending bounds it is given. -/
theorem ofNumber?_iff_range :
    (∀ (n : Int) (f : Family),
      (ofNumber? n = some f ↔ ∃ r, f.range? = some r ∧ n ∈ r) ∧
      (ofNumber? n = some f ↔ ∃ op ∈ f.opcodes, (op.number : Int) = n)) ∧
    (ranges.map Range.family = all ∧ ranges.length = 26 ∧ ∀ f : Family, f ∈ all) ∧
    (∀ r ∈ ranges, r.first ≤ r.last) ∧
    ranges.Pairwise (fun r s ↦ ∀ n : Int, ¬ (n ∈ r ∧ n ∈ s)) ∧
    ranges.IsChain (fun r s ↦ s.first = r.last + 1) ∧
    (∃ first last : Opcode, (∀ op : Opcode, first.number ≤ op.number ∧ op.number ≤ last.number) ∧
      ∀ n : Int, ((∃ r ∈ ranges, n ∈ r) ↔ first.number ≤ n ∧ n ≤ last.number) ∧
        (ofNumber? n = none ↔ n < first.number ∨ last.number < n)) ∧
    ∀ (bounds : Array Int) (n : Int), Ascending bounds →
      lowerBound bounds n = bounds.toList.countP (· < n) := by
  have hfirst : (Opcode.pcRelativeAddressing .adr).number = 1 := by decide +kernel
  refine ⟨fun n f ↦ ⟨ofNumber?_eq_some_iff, ofNumber?_eq_some_iff_opcodes⟩,
    ⟨map_family_ranges, rfl, mem_all⟩,
    fun r hr ↦ (first_le_of_mem_rangesFrom ascendFrom_upperBounds hr).2, ?_,
    isChain_rangesFrom 1 upperBounds, ?_, fun bounds n hasc ↦ lowerBound_eq_countP hasc n⟩
  · refine (pairwise_rangesFrom ascendFrom_upperBounds).imp fun hlt n ⟨hr, hs⟩ ↦ ?_
    have := hr.2
    have := hs.1
    omega
  · refine ⟨.pcRelativeAddressing .adr, .dataProcessingThreeSource .umsubl, fun op ↦ ?_,
      fun n ↦ ?_⟩
    · rw [hfirst, Opcode.number_last]
      exact ⟨Nat.le_add_left 1 _, op.number_le_length⟩
    · rw [ofNumber?_eq_none_iff, exists_mem_ranges_iff, hfirst, Opcode.number_last]
      exact ⟨Iff.rfl, by omega⟩

/-- One of three bounds is below the second of them, and the last number of the system instructions
is still one of theirs. -/
theorem ofNumber?_iff_range_last :
    Ascending #[3, 7, 20] ∧ lowerBound #[3, 7, 20] 7 = 1 ∧
      system.range? = some ⟨system, 24, 53⟩ ∧ ofNumber? 53 = some system := by
  obtain ⟨hfamily, -, -, -, -, -, hbisect⟩ := ofNumber?_iff_range
  have hasc : Ascending #[3, 7, 20] := by decide
  have hrange : system.range? = some ⟨system, 24, 53⟩ := by decide +kernel
  exact ⟨hasc, hbisect _ 7 hasc, hrange, (hfamily 53 system).1.2 ⟨_, hrange, by decide, by decide⟩⟩

end Family

end A64Text
