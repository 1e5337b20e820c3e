import A64Text.Proofs.Line.Fusion
import A64Text.Proofs.Line.Normal
import A64Text.Proofs.Line.Respelling

/-!
# Amounts behind a comma

Between a modifier and its amount a comma may stand or not (`read_amount_and_fuseItems`). With the
comma they are two terms, which are fused when the line is complete; without it the grammar makes
one term of them. The machine is in different states then, and stays in different ones up to the end
of the line, because it fuses nothing on the way. What it has read will fuse alike, though
(`State.EndsAlike`). This holds behind the amount, every step keeps it (`State.EndsAlike.step`), and
of such states the machine returns the same line (`State.EndsAlike.line?_steps`).

Fusing itself is described without its loop. A list comes from another by fusing if neighbours are
fused one pair at a time and all else stays in its place (`Fuses`). Of the lists that come from
one in this way exactly one has no more neighbours to fuse, and that is the result (`fuses_iff`).
-/

namespace A64Text.Line

open Lexeme

/-! ### Cutting texts -/

/-- A text can be cut between any two of its lexemes. -/
theorem Lexeme.Lexed.exists_append {cs : List Char} {ts us : List Lexeme}
    (h : Lexed cs (ts ++ us)) : ∃ p q, cs = p ++ q ∧ Lexed p ts ∧ Lexed q us := by
  generalize hvs : ts ++ us = vs at h
  induction h generalizing ts with
  | nil =>
    obtain ⟨rfl, rfl⟩ := List.append_eq_nil_iff.1 hvs
    exact ⟨[], [], rfl, .nil, .nil⟩
  | @space c cs vs hc _ ih =>
    obtain ⟨p, q, rfl, hp, hq⟩ := ih hvs
    exact ⟨c :: p, q, rfl, .space hc hp, hq⟩
  | @cons cs rest t vs hmatch h ih =>
    cases ts with
    | nil =>
      obtain rfl : us = t :: vs := hvs
      exact ⟨[], cs, rfl, .nil, .cons hmatch h⟩
    | cons t' ts =>
      obtain ⟨rfl, htail⟩ := List.cons.inj hvs
      obtain ⟨p, q, rfl, hp, hq⟩ := ih htail
      have hcs : cs = t'.spelling ++ p ++ q := by rw [List.append_assoc, hmatch.append]
      subst hcs
      exact ⟨t'.spelling ++ p, q, rfl, .cons hmatch.of_append hp, hq⟩

/-! ### States that fuse alike -/

/-- States that have read the same, but for terms that will fuse alike. -/
inductive State.EndsAlike : State → State → Prop
  | operand (m : String) {xs ys : List Item} (pending : Pending) (h : FusesAlike Item.fuse? xs ys) :
    EndsAlike (.operand m xs pending) (.operand m ys pending)
  | memory (m : String) {xs ys : List Item} {ps qs : List Term} (pending : Pending)
      (h : FusesAlike Item.fuse? xs ys) (hparts : FusesAlike Term.fuse? ps qs) :
    EndsAlike (.memory m xs ps pending) (.memory m ys qs pending)
  | closed (m : String) {xs ys : List Item} {ps qs : List Term} (writeback : Bool)
      (h : FusesAlike Item.fuse? xs ys) (hparts : FusesAlike Term.fuse? ps qs) :
    EndsAlike (.closed m xs ps writeback) (.closed m ys qs writeback)
  /-- An amount among the operands, behind a comma and without one. -/
  | operandAmount (m : String) (xs : List Item) {name : String} (n : Int)
      (hname : modifierKeywords.contains name = true) :
    EndsAlike (.operand m (xs ++ [.term ⟨some name, none⟩]) (.filled ⟨none, some n⟩))
      (.operand m xs (.filled ⟨some name, some n⟩))
  /-- An amount between brackets, behind a comma and without one. -/
  | memoryAmount (m : String) (xs : List Item) (ps : List Term) {name : String} (n : Int)
      (hname : modifierKeywords.contains name = true) :
    EndsAlike (.memory m xs (ps ++ [⟨some name, none⟩]) (.filled ⟨none, some n⟩))
      (.memory m xs ps (.filled ⟨some name, some n⟩))

/-- What follows in both lists does not matter. -/
theorem FusesAlike.concat {α : Type} {join? : α → α → Option α} {xs ys : List α}
    (h : FusesAlike join? xs ys) (x : α) : FusesAlike join? (xs ++ [x]) (ys ++ [x]) :=
  h.append (.refl [x])

theorem FusesAlike.memory {xs ys : List Item} {ps qs : List Term}
    (h : FusesAlike Item.fuse? xs ys) (hparts : FusesAlike Term.fuse? ps qs) (writeback : Bool) :
    FusesAlike Item.fuse? (xs ++ [.memory (fuseTerms ps) writeback])
      (ys ++ [.memory (fuseTerms qs) writeback]) := by
  rw [show fuseTerms ps = fuseTerms qs from hparts.coalesce_eq]
  exact h.concat _

theorem fusesAlike_amount_concat {name : String} (h : modifierKeywords.contains name = true)
    (ps : List Term) (n : Int) :
    FusesAlike Term.fuse? (ps ++ [⟨some name, none⟩] ++ [⟨none, some n⟩])
      (ps ++ [⟨some name, some n⟩]) := by
  rw [List.append_assoc]
  exact (FusesAlike.refl ps).append (fusesAlike_amount h n)

theorem fusesAlike_amount_items_concat {name : String} (h : modifierKeywords.contains name = true)
    (xs : List Item) (n : Int) :
    FusesAlike Item.fuse? (xs ++ [.term ⟨some name, none⟩] ++ [.term ⟨none, some n⟩])
      (xs ++ [.term ⟨some name, some n⟩]) := by
  rw [List.append_assoc]
  exact (FusesAlike.refl xs).append (fusesAlike_amount_items h n)

theorem rel_map {α β : Type} {r : β → β → Prop} (f g : α → β) (h : ∀ a, r (f a) (g a))
    (o : Option α) : Option.Rel r (o.map f) (o.map g) := by
  cases o with
  | none => exact .none
  | some a => exact .some (h a)

/-- States that fuse alike take the same lexemes, to states that fuse alike. -/
theorem State.EndsAlike.step {s s' : State} (h : s.EndsAlike s') (t : Lexeme) :
    Option.Rel EndsAlike (s.step t) (s'.step t) := by
  cases h with
  | @operand m xs ys pending h =>
    have hpending : ∀ pending : Pending,
        (State.operand m xs pending).EndsAlike (.operand m ys pending) :=
      fun pending ↦ .operand m pending h
    have hcomma : ∀ v : Term, (State.operand m (xs ++ [.term v]) .vacant).EndsAlike
        (.operand m (ys ++ [.term v]) .vacant) :=
      fun v ↦ .operand m .vacant (h.concat (.term v))
    cases pending with
    | vacant =>
      cases t with
      | beginMemory => exact .some (.memory m .vacant h (.refl []))
      | _ =>
        simp only [State.step, startOperand]
        exact rel_map _ _ hpending _
    | _ =>
      cases t with
      | comma =>
        simp only [State.step]
        exact rel_map _ _ hcomma _
      | _ =>
        simp only [State.step]
        exact rel_map _ _ hpending _
  | @memory m xs ys ps qs pending h hparts =>
    cases t with
    | comma => exact rel_map _ _ (fun v ↦ State.EndsAlike.memory m .vacant h (hparts.concat v)) _
    | endMemory => exact rel_map _ _ (fun v ↦ State.EndsAlike.closed m false h (hparts.concat v)) _
    | _ => exact rel_map _ _ (fun pending ↦ State.EndsAlike.memory m pending h hparts) _
  | @closed m xs ys ps qs writeback h hparts =>
    cases t with
    | comma => cases writeback <;> exact .some (.operand m .vacant (h.memory hparts _))
    | bang =>
      cases writeback with
      | false => exact .some (.closed m true h hparts)
      | true => exact .none
    | _ => cases writeback <;> exact .none
  | operandAmount m xs n hname =>
    cases t with
    | comma => exact .some (.operand m .vacant (fusesAlike_amount_items_concat hname xs n))
    | _ => exact .none
  | memoryAmount m xs ps n hname =>
    have hparts := fusesAlike_amount_concat hname ps n
    cases t with
    | comma => exact .some (.memory m .vacant (.refl xs) hparts)
    | endMemory => exact .some (.closed m false (.refl xs) hparts)
    | _ => exact .none

theorem State.EndsAlike.line?_eq {s s' : State} (h : s.EndsAlike s') : s.line? = s'.line? := by
  cases h with
  | @operand m xs ys pending h =>
    have hitems : ∀ v : Term, fuseItems (xs ++ [.term v]) = fuseItems (ys ++ [.term v]) :=
      fun v ↦ (h.concat (.term v)).coalesce_eq
    simp only [line?, hitems]
  | closed m writeback h hparts =>
    exact congrArg (fun items ↦ some (Line.mk m items)) (h.memory hparts writeback).coalesce_eq
  | operandAmount m xs n hname =>
    exact congrArg (fun items ↦ some (Line.mk m items))
      (fusesAlike_amount_items_concat hname xs n).coalesce_eq
  | memory => rfl
  | memoryAmount => rfl

/-- From states that fuse alike the machine comes to the same line. -/
theorem State.EndsAlike.line?_steps {s s' : State} (h : s.EndsAlike s') (ts : List Lexeme) :
    (s.steps ts).bind State.line? = (s'.steps ts).bind State.line? := by
  induction ts generalizing s s' with
  | nil => exact h.line?_eq
  | cons t ts ih =>
    rw [steps, steps]
    have hnext := h.step t
    generalize s.step t = o, s'.step t = o' at hnext
    cases hnext with
    | none => rfl
    | some hnext => exact ih hnext

/-! ### The comma in front of an amount -/

/-- Behind the mnemonic a word stands in the place of a term. -/
theorem State.exists_place_word {s s' : State} {w : List Char} (hs : s ≠ .start)
    (h : s.step (.word w) = some s') :
    ∃ place, Site place ∧ s' = place (.named (normalName w)) := by
  cases s with
  | start => exact absurd rfl hs
  | mnemonic m => exact ⟨_, .operand m [], (Option.some.inj h).symm⟩
  | operand m before pending =>
    cases pending with
    | vacant => exact ⟨_, .operand m before, (Option.some.inj h).symm⟩
    | _ => cases h
  | memory m before parts pending =>
    cases pending with
    | vacant => exact ⟨_, .memory m before parts, (Option.some.inj h).symm⟩
    | _ => cases h
  | closed m before parts writeback => cases writeback <;> cases h

/-- With a comma behind the modifier and without it, the machine comes to states that fuse alike. -/
theorem State.Site.endsAlike_amount {place : Pending → State} (hplace : Site place) {name : String}
    (hname : modifierKeywords.contains name = true) (imm : ImmediateTree) :
    ∃ s s', (place (.named name)).steps (.comma :: imm.yield) = some s ∧
      (place (.named name)).steps imm.yield = some s' ∧ s.EndsAlike s' := by
  obtain ⟨hashed, n⟩ := imm
  cases hplace with
  | operand m before => cases hashed <;> exact ⟨_, _, rfl, rfl, .operandAmount m before _ hname⟩
  | memory m before parts =>
    cases hashed <;> exact ⟨_, _, rfl, rfl, .memoryAmount m before parts _ hname⟩

theorem State.ne_start_of_steps {s : State} {ts : List Lexeme} (h : State.start.steps ts = some s)
    (hts : ts ≠ []) : s ≠ .start := by
  rintro rfl
  have hreads := State.Reads.start.steps h
  rw [List.nil_append] at hreads
  cases hreads
  exact hts rfl

theorem derives_iff {ts : List Lexeme} {l : Line} :
    Derives ts l ↔ (State.start.steps ts).bind State.line? = some l :=
  Option.bind_eq_some_iff.symm

/-- A modifier behind the mnemonic, and its amount, with the lexemes in front of them and behind. A
word behind the mnemonic of a line begins a term, so with a comma behind it the modifier is an
operand or a part of an address by itself. -/
structure Amount where
  front : List Lexeme
  word : List Char
  imm : ImmediateTree
  behind : List Lexeme
  front_ne_nil : front ≠ []
  keyword : modifierKeywords.contains (normalName word) = true

namespace Amount

variable (x : Amount)

/-- The lexemes up to the modifier. -/
def left : List Lexeme := x.front ++ [.word x.word]

/-- The lexemes from the amount on. -/
def right : List Lexeme := x.imm.yield ++ x.behind

/-- The lexemes with a comma between the modifier and its amount. -/
def apart : List Lexeme := x.left ++ .comma :: x.right

/-- The lexemes without a comma between the modifier and its amount. -/
def joined : List Lexeme := x.left ++ x.right

/-- A text up to the modifier, and a text from the amount on. -/
structure Cuts (k a : List Char) : Prop where
  left : Lexed k x.left
  right : Lexed a x.right

/-- The comma makes no difference to the line. -/
theorem derives_iff {l : Line} : Derives x.apart l ↔ Derives x.joined l := by
  rw [Line.derives_iff, Line.derives_iff]
  refine Eq.congr_left ?_
  rw [apart, joined, left, right, List.append_assoc, List.append_assoc, State.steps_append,
    State.steps_append]
  cases hs : State.start.steps x.front with
  | none => rfl
  | some s =>
    show (s.steps (.word x.word :: .comma :: (x.imm.yield ++ x.behind))).bind State.line? =
      (s.steps (.word x.word :: (x.imm.yield ++ x.behind))).bind State.line?
    rw [State.steps, State.steps]
    cases hword : s.step (.word x.word) with
    | none => rfl
    | some s₁ =>
      obtain ⟨place, hplace, rfl⟩ :=
        State.exists_place_word (State.ne_start_of_steps hs x.front_ne_nil) hword
      obtain ⟨s₂, s₂', hapart, hjoined, halike⟩ := hplace.endsAlike_amount x.keyword x.imm
      show ((place _).steps ((.comma :: x.imm.yield) ++ x.behind)).bind State.line? =
        ((place _).steps (x.imm.yield ++ x.behind)).bind State.line?
      rw [State.steps_append_of_eq hapart, State.steps_append_of_eq hjoined]
      exact halike.line?_steps x.behind

/-- A comma may stand where a text is cut. -/
theorem Cuts.apart {x : Amount} {k a : List Char} (h : x.Cuts k a) :
    Lexed (k ++ ',' :: a) x.apart :=
  h.left.append (lexed_comma_iff.2 ⟨_, rfl, h.right⟩) (boundary_comma a)

/-- Spaces may stand where a text is cut. -/
theorem Cuts.joined {x : Amount} {k a w : List Char} (h : x.Cuts k a) (hw : w ≠ [])
    (hspace : ∀ c ∈ w, isSpace c = true) : Lexed (k ++ w ++ a) x.joined := by
  obtain ⟨c, w, rfl⟩ := List.exists_cons_of_ne_nil hw
  have hb : Boundary (c :: w ++ a) := boundary_blank (isBlank_of_isSpace (hspace c (by simp))) _
  rw [List.append_assoc]
  exact h.left.append ((lexed_spaces_iff hspace).2 h.right) hb

/-- A text with a comma between the modifier and its amount can be cut there. -/
theorem exists_cuts_comma {cs : List Char} (h : Lexed cs x.apart) :
    ∃ k a, cs = k ++ ',' :: a ∧ x.Cuts k a := by
  obtain ⟨k, r, rfl, hk, hr⟩ := h.exists_append
  obtain ⟨w, cs, a, rfl, hw, hmatch, ha⟩ := hr.exists_front
  have hspaces : Lexed (w ++ []) [] := (lexed_spaces_iff hw).2 .nil
  rw [List.append_nil] at hspaces
  have hb : Boundary w := by
    simpa using boundary_blanks (fun c hc ↦ isBlank_of_isSpace (hw c hc)) boundary_nil
  have hleft : Lexed (k ++ w) x.left := by simpa using hk.append hspaces hb
  refine ⟨k ++ w, a, ?_, hleft, ha⟩
  rw [List.append_assoc, ← hmatch.append]
  rfl

end Amount

/-! ### What is fused -/

/-- A list of items, and what may come of it by fusing: a modifier without an amount is fused with
the nameless term behind it, and may then be without an amount still; all else stays in its place.
-/
inductive Fuses : List Item → List Item → Prop
  | nil : Fuses [] []
  | keep {xs ys : List Item} (x : Item) (h : Fuses xs ys) : Fuses (x :: xs) (x :: ys)
  | fuse {xs ys : List Item} {t u : Term} (htakes : t.Takes u)
      (h : Fuses (.term ⟨t.name?, u.value?⟩ :: xs) ys) : Fuses (.term t :: .term u :: xs) ys

/-- Fusing in which no modifier is fused twice. -/
inductive FusesOnce : List Item → List Item → Prop
  | nil : FusesOnce [] []
  | keep {xs ys : List Item} (x : Item) (h : FusesOnce xs ys) : FusesOnce (x :: xs) (x :: ys)
  | fuse {xs ys : List Item} {t u : Term} (htakes : t.Takes u) (h : FusesOnce xs ys) :
    FusesOnce (.term t :: .term u :: xs) (.term ⟨t.name?, u.value?⟩ :: ys)

theorem fuses_fuseItems (xs : List Item) : Fuses xs (fuseItems xs) := by
  cases xs with
  | nil => exact .nil
  | cons x xs =>
    show Fuses (x :: xs) (coalesceFrom Item.fuse? x xs)
    induction xs generalizing x with
    | nil => exact .keep x .nil
    | cons y xs ih =>
      rw [coalesceFrom]
      split
      · rename_i joined hfuse
        obtain ⟨t, u, rfl, rfl, htakes, rfl⟩ := Item.fuse?_eq_some_iff.1 hfuse
        exact .fuse htakes (ih _)
      · exact .keep x (ih y)

/-- Fusing on the way does not change what everything fuses to. -/
theorem Fuses.fusesAlike {xs ys : List Item} (h : Fuses xs ys) : FusesAlike Item.fuse? xs ys := by
  induction h with
  | nil => exact .refl []
  | keep x _ ih => exact (FusesAlike.refl [x]).append ih
  | @fuse xs ys t u htakes _ ih =>
    have hpair : FusesAlike Item.fuse? [.term t, .term u] [.term ⟨t.name?, u.value?⟩] :=
      fusesAlike_pair (Item.fuse?_eq_some_iff.2 ⟨t, u, rfl, rfl, htakes, rfl⟩)
        (Item.fuse?_eq_none_of_takes htakes t.value?) (Item.fuse?_eq_none_of_takes htakes u.value?)
    have hrest := hpair.append (.refl xs)
    exact fun before after ↦ (hrest before after).trans (ih before after)

/-- Of all that may come of a list by fusing, the result is what has no more neighbours to fuse. -/
theorem fuses_iff {xs ys : List Item} :
    ys = fuseItems xs ↔ Fuses xs ys ∧ ys.IsChain fun x next ↦ ¬ x.Takes next := by
  constructor
  · rintro rfl
    exact ⟨fuses_fuseItems xs, isChain_fuseItems xs⟩
  · rintro ⟨hfuses, hchain⟩
    calc
      ys = fuseItems ys := (fuseItems_of_isChain hchain).symm
      _ = fuseItems xs := hfuses.fusesAlike.coalesce_eq.symm

/-- Where every term has a name or a value, what was fused has an amount and is not fused again. -/
theorem fusesOnce_fuseItems {xs : List Item}
    (h : ∀ t, .term t ∈ xs → t.name?.isSome = true ∨ t.value?.isSome = true) :
    FusesOnce xs (fuseItems xs) := by
  -- Behind a pair that was fused, the list goes on as if it began there.
  suffices hboth : FusesOnce xs (fuseItems xs) ∧
      ∀ x, FusesOnce (x :: xs) (coalesceFrom Item.fuse? x xs) from hboth.1
  induction xs with
  | nil => exact ⟨.nil, fun x ↦ .keep x .nil⟩
  | cons y xs ih =>
    obtain ⟨hrest, hfrom⟩ := ih fun t ht ↦ h t (List.mem_cons_of_mem y ht)
    refine ⟨hfrom y, fun x ↦ ?_⟩
    rw [coalesceFrom]
    split
    · rename_i joined hfuse
      obtain ⟨t, u, rfl, rfl, htakes, rfl⟩ := Item.fuse?_eq_some_iff.1 hfuse
      obtain ⟨n, hn⟩ : ∃ n, u.value? = some n := by
        rcases h u (by simp) with hname | hvalue
        · rw [htakes.2] at hname
          cases hname
        · exact Option.isSome_iff_exists.1 hvalue
      have hnone : ∀ z, Item.fuse? (.term ⟨t.name?, u.value?⟩) z = none := by
        intro z
        cases z with
        | term v =>
          refine Item.fuse?_eq_none_iff.2 fun hagain ↦ ?_
          simp [Item.Takes, Term.Takes, Term.isBareModifier, hn] at hagain
        | memory parts writeback => rfl
      rw [coalesceFrom_of_none hnone]
      exact .fuse htakes hrest
    · exact .keep x (hfrom y)

/-! ### Amounts with a comma and without -/

/-- The amount of a modifier is read the same with a comma in front of it and without. In a text
that is read as a line, spaces may take the place of the comma between a modifier and its amount,
among the operands and between brackets; and where there is no comma one may be put in.

Of two such terms fusing makes one. It keeps the items in order, and does nothing but fuse a
modifier that has no amount with the nameless term behind it, until no two neighbours are left that
could be fused; this determines what it returns. Done again it changes nothing, and if every term
has a name or a value no modifier is fused twice. Between brackets it is the same as among the
operands. -/
theorem read_amount_and_fuseItems :
    (∀ (x : Amount) (s : String) (l : Line), read s = .ok l →
      Lexed (Text.trimChars s.toList) x.apart →
      (∃ k a, Text.trimChars s.toList = k ++ ',' :: a ∧ x.Cuts k a) ∧
      ∀ k a w, Text.trimChars s.toList = k ++ ',' :: a → x.Cuts k a → w ≠ [] →
        (∀ c ∈ w, isSpace c = true) → ∀ t : String, Framed (k ++ w ++ a) t.toList →
          read t = .ok l) ∧
    (∀ (x : Amount) (s : String) (l : Line), read s = .ok l →
      Lexed (Text.trimChars s.toList) x.joined →
      (∃ k a, Text.trimChars s.toList = k ++ a ∧ x.Cuts k a) ∧
      ∀ k a, Text.trimChars s.toList = k ++ a → x.Cuts k a →
        ∀ t : String, Framed (k ++ ',' :: a) t.toList → read t = .ok l) ∧
    (∀ xs ys : List Item,
      ys = fuseItems xs ↔ Fuses xs ys ∧ ys.IsChain fun x next ↦ ¬ x.Takes next) ∧
    (∀ xs : List Item, fuseItems (fuseItems xs) = fuseItems xs ∧
      ((∀ t, .term t ∈ xs → t.name?.isSome = true ∨ t.value?.isSome = true) →
        FusesOnce xs (fuseItems xs))) ∧
    ∀ ts : List Term, fuseItems (ts.map .term) = (fuseTerms ts).map .term := by
  have hread : ∀ {s : String} {m : List Char} {ts : List Lexeme} {l : Line},
      Framed m s.toList → Lexed m ts → (read s = .ok l ↔ Derives ts l) := by
    intro s m ts l hframed hlexed
    rw [read_eq_ok_iff_spelled, hframed.spelled_iff, hlexed.spelled_iff]
  refine ⟨?_, ?_, fun xs ys ↦ fuses_iff, fun xs ↦ ⟨?_, fusesOnce_fuseItems⟩, fuseItems_map_term⟩
  · intro x s l hl hlexed
    have hderives := x.derives_iff.1 ((hread (framed_trimChars _) hlexed).1 hl)
    refine ⟨x.exists_cuts_comma hlexed, fun k a w _ hcuts hw hspace t hframed ↦ ?_⟩
    exact (hread hframed (hcuts.joined hw hspace)).2 hderives
  · intro x s l hl hlexed
    have hderives := x.derives_iff.2 ((hread (framed_trimChars _) hlexed).1 hl)
    refine ⟨?_, fun k a _ hcuts t hframed ↦ (hread hframed hcuts.apart).2 hderives⟩
    obtain ⟨k, a, heq, hleft, hright⟩ := hlexed.exists_append
    exact ⟨k, a, heq, hleft, hright⟩
  · exact fuseItems_of_isChain (isChain_fuseItems xs)

/-- An addition with a shift. -/
def shiftedAdd : Line :=
  ⟨"add", [.term ⟨some "x0", none⟩, .term ⟨some "x1", none⟩, .term ⟨some "lsl", some 3⟩]⟩

/-- The shift of an addition, with the lexemes in front of it. -/
def shiftAmount : Amount where
  front := [.word "add".toList, .word "x0".toList, .comma, .word "X1".toList, .comma]
  word := "LSL".toList
  imm := ⟨true, "0X3".toList⟩
  behind := []
  front_ne_nil := by simp
  keyword := by decide +kernel

/-- A tabulator takes the place of the comma, and a comma is put in behind the tabulator. -/
theorem read_amount_and_fuseItems_shift :
    read " add x0, X1, LSL\t#0X3" = .ok shiftedAdd ∧
      read "add x0, X1, LSL\t,#0X3\n" = .ok shiftedAdd := by
  have hread : read "add x0, X1, LSL,#0X3" = .ok shiftedAdd := by decide +kernel
  have hapart : Lexed (Text.trimChars "add x0, X1, LSL,#0X3".toList) shiftAmount.apart := by
    decide +kernel
  have hjoined : Lexed (Text.trimChars " add x0, X1, LSL\t#0X3".toList) shiftAmount.joined := by
    decide +kernel
  have hcuts : shiftAmount.Cuts "add x0, X1, LSL".toList "#0X3".toList :=
    ⟨by decide +kernel, by decide +kernel⟩
  have hcuts' : shiftAmount.Cuts "add x0, X1, LSL\t".toList "#0X3".toList :=
    ⟨by decide +kernel, by decide +kernel⟩
  obtain ⟨hdelete, hinsert, -⟩ := read_amount_and_fuseItems
  have htab : read " add x0, X1, LSL\t#0X3" = .ok shiftedAdd :=
    (hdelete shiftAmount _ _ hread hapart).2 _ _ ['\t'] (by decide +kernel) hcuts (by simp)
      (List.forall_mem_singleton.2 rfl) _
      ⟨[' '], [], by decide, List.forall_mem_singleton.2 rfl, by simp⟩
  refine ⟨htab, (hinsert shiftAmount _ _ htab hjoined).2 _ _ (by decide +kernel) hcuts' _ ?_⟩
  exact ⟨[], ['\n'], by decide, by simp, List.forall_mem_singleton.2 rfl⟩

end A64Text.Line
