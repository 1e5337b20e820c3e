import A64Text.Line.Fusion

/-!
# Fusing in the middle of a list

A keyword and its amount may be written as two terms or as one, and fusing makes them the same. The
first of two terms that join has a name, so nothing in front takes it, and neither does it take what
they join to. Hence the two terms may be replaced by the one wherever they stand (`fusesAlike_pair`).
-/

namespace A64Text.Line

/-- Lists that can replace one another before neighbours are joined. -/
def FusesAlike {α : Type} (join? : α → α → Option α) (xs ys : List α) : Prop :=
  ∀ before after, coalesce join? (before ++ xs ++ after) = coalesce join? (before ++ ys ++ after)

section

variable {α : Type} {join? : α → α → Option α}

theorem FusesAlike.refl (xs : List α) : FusesAlike join? xs xs := fun _ _ ↦ rfl

theorem FusesAlike.append {xs ys xs' ys' : List α} (h : FusesAlike join? xs ys)
    (h' : FusesAlike join? xs' ys') : FusesAlike join? (xs ++ xs') (ys ++ ys') := by
  intro before after
  calc
    coalesce join? (before ++ (xs ++ xs') ++ after)
        = coalesce join? (before ++ xs ++ (xs' ++ after)) := by simp
    _ = coalesce join? (before ++ ys ++ (xs' ++ after)) := h before (xs' ++ after)
    _ = coalesce join? (before ++ ys ++ xs' ++ after) := by simp
    _ = coalesce join? (before ++ ys ++ ys' ++ after) := h' (before ++ ys) after
    _ = coalesce join? (before ++ (ys ++ ys') ++ after) := by simp

theorem FusesAlike.coalesce_eq {xs ys : List α} (h : FusesAlike join? xs ys) :
    coalesce join? xs = coalesce join? ys := by
  have hmiddle := h [] []
  rwa [List.nil_append, List.nil_append, List.append_nil, List.append_nil] at hmiddle

/-- What joins with nothing stays as it is in front of others. -/
theorem coalesceFrom_of_none {x : α} (h : ∀ y, join? x y = none) (xs : List α) :
    coalesceFrom join? x xs = x :: coalesce join? xs := by
  cases xs with
  | nil => rfl
  | cons y ys => rw [coalesceFrom, h y, coalesce]

theorem coalesceFrom_pair {a b c : α} (hjoin : join? a b = some c) (ha : ∀ x, join? x a = none)
    (hc : ∀ x, join? x c = none) (before after : List α) (current : α) :
    coalesceFrom join? current (before ++ a :: b :: after) =
      coalesceFrom join? current (before ++ c :: after) := by
  induction before generalizing current with
  | nil =>
    show coalesceFrom join? current (a :: b :: after) = coalesceFrom join? current (c :: after)
    rw [coalesceFrom, ha, coalesceFrom, hjoin, coalesceFrom, hc]
  | cons x before ih =>
    rw [List.cons_append, List.cons_append, coalesceFrom, coalesceFrom]
    cases join? current x with
    | none => exact congrArg _ (ih x)
    | some joined => exact ih joined

/-- Two elements that join may be replaced by what they join to, if nothing takes either. -/
theorem fusesAlike_pair {a b c : α} (hjoin : join? a b = some c) (ha : ∀ x, join? x a = none)
    (hc : ∀ x, join? x c = none) : FusesAlike join? [a, b] [c] := by
  intro before after
  rw [List.append_assoc, List.append_assoc]
  cases before with
  | nil =>
    show coalesceFrom join? a (b :: after) = coalesceFrom join? c after
    rw [coalesceFrom, hjoin]
  | cons x before => exact coalesceFrom_pair hjoin ha hc before after x

end

/-! ### Keywords and amounts -/

theorem Term.fuse?_named (t : Term) (name : String) (value? : Option Int) :
    t.fuse? ⟨some name, value?⟩ = none := by
  simp [fuse?]

theorem Item.fuse?_named (x : Item) (name : String) (value? : Option Int) :
    x.fuse? (.term ⟨some name, value?⟩) = none := by
  cases x with
  | term t => simp [fuse?, Term.fuse?_named]
  | memory parts writeback => rfl

theorem Term.fuse?_amount {name : String} (h : modifierKeywords.contains name = true) (n : Int) :
    Term.fuse? ⟨some name, none⟩ ⟨none, some n⟩ = some ⟨some name, some n⟩ := by
  simp only [fuse?, isBareModifier, Option.any_some, h]
  rfl

/-- A keyword and its amount fuse among terms. -/
theorem fusesAlike_amount {name : String} (h : modifierKeywords.contains name = true) (n : Int) :
    FusesAlike Term.fuse? [⟨some name, none⟩, ⟨none, some n⟩] [⟨some name, some n⟩] :=
  fusesAlike_pair (Term.fuse?_amount h n) (fun t ↦ t.fuse?_named _ _) fun t ↦ t.fuse?_named _ _

/-- A keyword and its amount fuse among operands. -/
theorem fusesAlike_amount_items {name : String} (h : modifierKeywords.contains name = true)
    (n : Int) :
    FusesAlike Item.fuse? [.term ⟨some name, none⟩, .term ⟨none, some n⟩]
      [.term ⟨some name, some n⟩] := by
  refine fusesAlike_pair ?_ (fun x ↦ x.fuse?_named _ _) fun x ↦ x.fuse?_named _ _
  rw [Item.fuse?, Term.fuse?_amount h, Option.map_some]

/-! ### Terms as items -/

/-- Between brackets terms fuse as they do among operands. -/
theorem fuseItems_map_term (ts : List Term) :
    fuseItems (ts.map .term) = (fuseTerms ts).map .term := by
  cases ts with
  | nil => rfl
  | cons t ts =>
    show coalesceFrom Item.fuse? (.term t) (ts.map .term) =
      (coalesceFrom Term.fuse? t ts).map .term
    induction ts generalizing t with
    | nil => rfl
    | cons u ts ih =>
      rw [List.map_cons, coalesceFrom, coalesceFrom, Item.fuse?]
      cases t.fuse? u with
      | none => exact congrArg _ (ih u)
      | some joined => exact ih joined

end A64Text.Line
