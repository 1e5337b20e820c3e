/-!
# Sets of names

A finite set of texts, kept as the list of its members in ascending order of code points. The order
is part of the type, so a set has one form only and equal sets are equal values.
-/

namespace A64Text

/-- Puts a text into an ascending list. -/
def insertAscending (x : String) : List String → List String
  | [] => [x]
  | y :: rest =>
    if x < y then x :: y :: rest
    else if x = y then y :: rest
    else y :: insertAscending x rest

theorem mem_insertAscending {x z : String} {xs : List String} :
    z ∈ insertAscending x xs ↔ z = x ∨ z ∈ xs := by
  induction xs with
  | nil => simp [insertAscending]
  | cons y rest ih =>
    simp only [insertAscending]
    split
    · simp
    · split
      · simp_all
      · simp [ih, or_left_comm]

/-- Putting a text into an ascending list leaves it ascending. -/
theorem pairwise_insertAscending {x : String} {xs : List String} (h : xs.Pairwise (· < ·)) :
    (insertAscending x xs).Pairwise (· < ·) := by
  induction xs with
  | nil => simp [insertAscending]
  | cons y rest ih =>
    obtain ⟨hy, hrest⟩ := List.pairwise_cons.1 h
    simp only [insertAscending]
    split
    · next hxy =>
      exact List.pairwise_cons.2 ⟨fun z hz ↦ by
        rcases List.mem_cons.1 hz with rfl | hz
        · exact hxy
        · exact String.lt_trans hxy (hy z hz), h⟩
    · next hxy =>
      split
      · exact h
      · next hne =>
        refine List.pairwise_cons.2 ⟨fun z hz ↦ ?_, ih hrest⟩
        rcases mem_insertAscending.1 hz with rfl | hz
        · exact Std.lt_of_le_of_ne (String.not_lt.1 hxy) (Ne.symm hne)
        · exact hy z hz

/-- A finite set of texts. -/
structure NameSet where
  names : List String
  ascending : names.Pairwise (· < ·)
  deriving DecidableEq

namespace NameSet

/-- The empty set. -/
def empty : NameSet := ⟨[], List.Pairwise.nil⟩

/-- A set with one more member. -/
def insert (s : NameSet) (x : String) : NameSet :=
  ⟨insertAscending x s.names, pairwise_insertAscending s.ascending⟩

/-- The set of the texts in a list. -/
def ofList (xs : List String) : NameSet := xs.foldl insert empty

/-- Whether a set has no member. -/
def isEmpty (s : NameSet) : Bool := s.names.isEmpty

/-- Membership. -/
def contains (s : NameSet) (x : String) : Bool := s.names.contains x

theorem contains_insert (s : NameSet) (x y : String) :
    (s.insert x).contains y = (y == x || s.contains y) := by
  rw [Bool.eq_iff_iff]
  simp [contains, insert, mem_insertAscending]

end NameSet

end A64Text
