import A64Text.Json.Reader
import A64Text.Proofs.Json.Spelling
import Mathlib.Data.List.Forall2

/-!
# What is written is read back

A value that is made of truth values, integers and plain texts is read back from its text, in every
style that indents by blanks (`read_write`). Both halves of the reader are taken through the value:
its text is scanned as its lexemes (`spells_writeAt`), and the machine that is handed these lexemes
completes the value and leaves the stack as it was (`run_lexemes`).
-/

namespace A64Text.Json

open Lexeme

/-! ### Plain values -/

mutual

/-- Whether a value is made of truth values, integers and plain texts. -/
def isPlain : Json → Bool
  | bool _ | int _ => true
  | str s => isPlainText s
  | arr items => arePlain items
  | obj members => arePlainMembers members
  | null | real _ | unpaired _ => false

/-- Whether all items of an array are plain. -/
def arePlain : List Json → Bool
  | [] => true
  | v :: rest => isPlain v && arePlain rest

/-- Whether all keys and values of an object are plain. -/
def arePlainMembers : List (String × Json) → Bool
  | [] => true
  | (k, v) :: rest => isPlainText k && isPlain v && arePlainMembers rest

end

/-- Lexemes with commas between them. -/
def Lexeme.commas : List (List Lexeme) → List Lexeme
  | [] => []
  | ts :: rest => ts ++ rest.flatMap (.comma :: ·)

theorem Lexeme.commas_cons_cons (ts us : List Lexeme) (rest : List (List Lexeme)) :
    commas (ts :: us :: rest) = ts ++ .comma :: commas (us :: rest) := by
  simp [commas]

mutual

/-- The lexemes of a plain value. -/
def lexemes : Json → List Lexeme
  | str s => [.str (Text.points s)]
  | arr items => .beginArray :: (commas (itemLexemes items) ++ [.endArray])
  | obj members => .beginObject :: (commas (memberLexemes members) ++ [.endObject])
  | v => [.scalar v]

/-- The lexemes of the items of an array, item by item. -/
def itemLexemes : List Json → List (List Lexeme)
  | [] => []
  | v :: rest => lexemes v :: itemLexemes rest

/-- The lexemes of the members of an object, member by member. -/
def memberLexemes : List (String × Json) → List (List Lexeme)
  | [] => []
  | (k, v) :: rest => (.str (Text.points k) :: .colon :: lexemes v) :: memberLexemes rest

end

/-! ### Blanks between lexemes -/

namespace Style

/-- Whether a style indents by blanks. -/
def isBlank : Style → Bool
  | line => true
  | block indent _ => indent.toList.all isSpace

variable {style : Style}

theorem isSpace_newline (h : style.isBlank = true) (depth : Nat) :
    ∀ c ∈ (style.newline depth).toList, isSpace c = true := by
  cases style with
  | line => simp [newline]
  | block indent times =>
    intro c hc
    simp only [newline, String.toList_append, String.toList_join, List.mem_append,
      List.mem_flatMap, List.mem_replicate] at hc
    rcases hc with hc | ⟨s, ⟨-, rfl⟩, hc⟩
    · obtain rfl : c = '\n' := List.mem_singleton.1 hc
      rfl
    · exact List.all_eq_true.1 h c hc

/-- Items are separated by a comma and blanks. -/
theorem toList_separator (h : style.isBlank = true) (depth : Nat) :
    ∃ cs, (style.separator depth).toList = ',' :: cs ∧ ∀ c ∈ cs, isSpace c = true := by
  cases style with
  | line => exact ⟨[' '], by simp [separator], List.forall_mem_singleton.2 rfl⟩
  | block indent times =>
    refine ⟨_, ?_, isSpace_newline h depth⟩
    rw [separator, String.toList_append]
    rfl

/-- Items that are separated are scanned one after the other, with commas between them. -/
theorem spells_intercalate (h : style.isBlank = true) (depth : Nat) {ss : List String}
    {tss : List (List Lexeme)} (hitems : List.Forall₂ (fun s ts ↦ Spells s.toList ts) ss tss) :
    Spells ((style.separator depth).intercalate ss).toList (commas tss) := by
  obtain ⟨blanks, hseparator, hblanks⟩ := toList_separator h depth
  induction hitems with
  | nil => exact spells_nil
  | @cons s ts ss tss hs hss ih =>
    cases hss with
    | nil => simpa [commas] using hs
    | cons hs' hss =>
      rw [String.intercalate_cons_cons, commas_cons_cons, String.toList_append,
        String.toList_append, hseparator, List.append_assoc]
      have hrest := (ih.spaces hblanks).cons (c := ',') rfl fun _ ↦ rfl
      exact hs.append hrest (closed_cons (by decide))

/-- Brackets around items are scanned as brackets around what the items are scanned as. -/
theorem spells_enclose (h : style.isBlank = true) (depth : Nat) {opening closing : String}
    {first last : Char} {b e : Lexeme} {ss : List String} {tss : List (List Lexeme)}
    (hopening : opening.toList = [first]) (hclosing : closing.toList = [last])
    (hfirst : isSpace first = false ∧ ∀ rest, next (first :: rest) = some (b, rest))
    (hlast : isSpace last = false ∧ ∀ rest, next (last :: rest) = some (e, rest))
    (hclosed : ∀ rest, Closed (last :: rest))
    (hitems : List.Forall₂ (fun s ts ↦ Spells s.toList ts) ss tss) :
    Spells (style.enclose depth opening closing ss).toList
      (b :: (commas tss ++ [e])) := by
  have hend : Spells [last] [e] := spells_nil.cons hlast.1 hlast.2
  cases hitems with
  | nil =>
    rw [enclose, String.toList_append, hopening, hclosing]
    exact hend.cons hfirst.1 hfirst.2
  | @cons s ts ss tss hs hss =>
    have hbody := spells_intercalate h (depth + 1) (List.Forall₂.cons hs hss)
    have hspaces := isSpace_newline h depth
    have hclosing' : Closed ((style.newline depth).toList ++ [last]) :=
      (closed_of_isSpace hspaces).append (hclosed [])
    have htail := (hbody.append (hend.spaces hspaces) hclosing').spaces (isSpace_newline h (depth + 1))
    simp only [enclose, String.toList_append, hopening, hclosing, List.append_assoc,
      List.singleton_append]
    exact htail.cons hfirst.1 hfirst.2

end Style

/-! ### Scanning what is written -/

variable {style : Style}

mutual

/-- A plain value that is written is scanned as its lexemes. -/
theorem spells_writeAt (h : style.isBlank = true) (depth : Nat) :
    ∀ v : Json, v.isPlain = true → Spells (v.writeAt style depth).toList v.lexemes
  | bool true, _ => spells_true
  | bool false, _ => spells_false
  | int n, _ => spells_decimal n
  | str s, hs => spells_writeString hs
  | arr items, hitems =>
    Style.spells_enclose h depth rfl rfl ⟨rfl, fun _ ↦ rfl⟩ ⟨rfl, fun _ ↦ rfl⟩
      (fun _ ↦ closed_cons (by decide)) (spells_writeItems h (depth + 1) items hitems)
  | obj members, hmembers =>
    Style.spells_enclose h depth rfl rfl ⟨rfl, fun _ ↦ rfl⟩ ⟨rfl, fun _ ↦ rfl⟩
      (fun _ ↦ closed_cons (by decide)) (spells_writeMembers h (depth + 1) members hmembers)

/-- Plain items are scanned as their lexemes. -/
theorem spells_writeItems (h : style.isBlank = true) (depth : Nat) :
    ∀ items : List Json, arePlain items = true →
      List.Forall₂ (fun s ts ↦ Spells s.toList ts) (writeItems style depth items)
        (itemLexemes items)
  | [], _ => .nil
  | v :: rest, hitems => by
    simp only [arePlain, Bool.and_eq_true] at hitems
    exact .cons (spells_writeAt h depth v hitems.1) (spells_writeItems h depth rest hitems.2)

/-- Plain members are scanned as their lexemes. -/
theorem spells_writeMembers (h : style.isBlank = true) (depth : Nat) :
    ∀ members : List (String × Json), arePlainMembers members = true →
      List.Forall₂ (fun s ts ↦ Spells s.toList ts) (writeMembers style depth members)
        (memberLexemes members)
  | [], _ => .nil
  | (k, v) :: rest, hmembers => by
    simp only [arePlainMembers, Bool.and_eq_true] at hmembers
    obtain ⟨⟨hk, hv⟩, hrest⟩ := hmembers
    refine .cons ?_ (spells_writeMembers h depth rest hrest)
    have hblank : ∀ c ∈ [' '], isSpace c = true := List.forall_mem_singleton.2 rfl
    have hcolon := ((spells_writeAt h depth v hv).spaces hblank).cons (c := ':') rfl fun _ ↦ rfl
    rw [String.toList_append, String.toList_append, List.append_assoc]
    exact (spells_writeString hk).append hcolon (closed_cons (by decide))

end

/-! ### Running the machine -/

namespace State

theorem run_append (s : State) (ts us : List Lexeme) :
    s.run (ts ++ us) = (s.run ts).bind fun s' ↦ s'.run us := by
  induction ts generalizing s with
  | nil => rfl
  | cons t ts ih =>
    rw [List.cons_append, run, run, Option.bind_assoc]
    congr 1
    funext s'
    exact ih s'

/-- An array that was just opened takes a value as any array does. -/
theorem run_arrayStart (v : Json) (stack : List Frame) (ts : List Lexeme) :
    (arrayStart stack).run (v.lexemes ++ ts) = (value (.array [] :: stack)).run (v.lexemes ++ ts) := by
  cases v <;> simp only [lexemes, List.cons_append] <;> rfl

mutual

/-- The machine completes the value that it is handed the lexemes of. -/
theorem run_lexemes : ∀ (v : Json) (stack : List Frame), v.isPlain = true →
    (value stack).run v.lexemes = some (complete v stack)
  | .bool _, _, _ => rfl
  | .int _, _, _ => rfl
  | .str s, stack, _ => by
    show some (complete (Json.ofPoints (Text.points s)) stack) = _
    rw [Json.ofPoints_points]
  | .arr [], _, _ => rfl
  | .arr (v :: rest), stack, hitems => by
    simp only [isPlain, arePlain, Bool.and_eq_true] at hitems
    show (arrayStart stack).run (v.lexemes ++ (itemLexemes rest).flatMap (.comma :: ·) ++ _) = _
    rw [List.append_assoc, run_arrayStart, run_append, run_lexemes v _ hitems.1]
    exact run_itemLexemes rest v [] stack hitems.2
  | .obj [], _, _ => rfl
  | .obj ((k, v) :: rest), stack, hmembers => by
    simp only [isPlain, arePlainMembers, Bool.and_eq_true] at hmembers
    show (value (.object [] (Text.ofPoints (Text.points k)) :: stack)).run
      (v.lexemes ++ (memberLexemes rest).flatMap (.comma :: ·) ++ _) = _
    rw [List.append_assoc, run_append, run_lexemes v _ hmembers.1.2, Text.ofPoints_points]
    exact run_memberLexemes rest k v [] stack hmembers.2

/-- Behind an item, an open array takes more items up to its end. -/
theorem run_itemLexemes : ∀ (items : List Json) (v : Json) (done : List Json) (stack : List Frame),
    arePlain items = true →
      (complete v (.array done :: stack)).run
          ((itemLexemes items).flatMap (.comma :: ·) ++ [.endArray]) =
        some (complete (.arr (done ++ v :: items)) stack)
  | [], _, _, _, _ => rfl
  | w :: rest, v, done, stack, hitems => by
    simp only [arePlain, Bool.and_eq_true] at hitems
    show (value (.array (done ++ [v]) :: stack)).run
      (w.lexemes ++ (itemLexemes rest).flatMap (.comma :: ·) ++ _) = _
    rw [List.append_assoc, run_append, run_lexemes w _ hitems.1]
    have hrun := run_itemLexemes rest w (done ++ [v]) stack hitems.2
    rwa [List.append_assoc, List.singleton_append] at hrun

/-- Behind a member, an open object takes more members up to its end. -/
theorem run_memberLexemes : ∀ (members : List (String × Json)) (k : String) (v : Json)
    (done : List (String × Json)) (stack : List Frame), arePlainMembers members = true →
      (complete v (.object done k :: stack)).run
          ((memberLexemes members).flatMap (.comma :: ·) ++ [.endObject]) =
        some (complete (.obj (done ++ (k, v) :: members)) stack)
  | [], _, _, _, _, _ => rfl
  | (l, w) :: rest, k, v, done, stack, hmembers => by
    simp only [arePlainMembers, Bool.and_eq_true] at hmembers
    show (value (.object (done ++ [(k, v)]) (Text.ofPoints (Text.points l)) :: stack)).run
      (w.lexemes ++ (memberLexemes rest).flatMap (.comma :: ·) ++ _) = _
    rw [List.append_assoc, run_append, run_lexemes w _ hmembers.1.2, Text.ofPoints_points]
    have hrun := run_memberLexemes rest l w (done ++ [(k, v)]) stack hmembers.2
    rwa [List.append_assoc, List.singleton_append] at hrun

end

end State

/-- A plain value is read back from its text. -/
theorem read_write {v : Json} (hstyle : style.isBlank = true) (hv : v.isPlain = true) :
    read (write style v) = some v := by
  have hscan := spells_writeAt hstyle 0 v hv [] closed_nil
  rw [List.append_nil] at hscan
  rw [read, write, hscan, scan, Option.map_some, List.append_nil, Option.bind_some, ofLexemes,
    State.run_lexemes v [] hv]
  rfl

end A64Text.Json
