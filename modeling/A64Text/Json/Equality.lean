import A64Text.Json.Basic

/-!
# Equality of JSON values

Two values may be written differently and still be the same: the members of an object have no order,
a member that a later one with its key overrides does not count, truth values are the numbers one
and zero, and a real number may be whole. `same` compares values up to these differences, through a
form in which members stand in ascending order of their keys, each key once.

Equality of the written values themselves is decidable too.
-/

namespace A64Text.Json

/-! ### Equality as written -/

mutual

/-- Decides whether two values are written alike. -/
def decEq : (v w : Json) → Decidable (v = w)
  | null, w => by
    cases w
    case null => exact isTrue rfl
    all_goals exact isFalse nofun
  | bool a, w => by
    cases w
    case bool b => exact decidable_of_iff (a = b) (by simp)
    all_goals exact isFalse nofun
  | int a, w => by
    cases w
    case int b => exact decidable_of_iff (a = b) (by simp)
    all_goals exact isFalse nofun
  | real a, w => by
    cases w
    case real b => exact decidable_of_iff (a = b) (by simp)
    all_goals exact isFalse nofun
  | str a, w => by
    cases w
    case str b => exact decidable_of_iff (a = b) (by simp)
    all_goals exact isFalse nofun
  | unpaired a, w => by
    cases w
    case unpaired b => exact decidable_of_iff (a = b) (by simp)
    all_goals exact isFalse nofun
  | arr vs, w =>
    match w with
    | arr ws =>
      match decEqItems vs ws with
      | isTrue h => isTrue (h ▸ rfl)
      | isFalse h => isFalse fun e ↦ h (Json.arr.inj e)
    | null | bool _ | int _ | real _ | str _ | unpaired _ | obj _ => isFalse nofun
  | obj vs, w =>
    match w with
    | obj ws =>
      match decEqMembers vs ws with
      | isTrue h => isTrue (h ▸ rfl)
      | isFalse h => isFalse fun e ↦ h (Json.obj.inj e)
    | null | bool _ | int _ | real _ | str _ | unpaired _ | arr _ => isFalse nofun

/-- Decides whether two arrays have the same items. -/
def decEqItems : (vs ws : List Json) → Decidable (vs = ws)
  | [], [] => isTrue rfl
  | [], _ :: _ => isFalse nofun
  | _ :: _, [] => isFalse nofun
  | v :: vs, w :: ws =>
    match decEq v w, decEqItems vs ws with
    | isTrue h, isTrue h' => isTrue (by rw [h, h'])
    | isFalse h, _ => isFalse fun e ↦ h (List.cons.inj e).1
    | _, isFalse h => isFalse fun e ↦ h (List.cons.inj e).2

/-- Decides whether two objects have the same members in the same order. -/
def decEqMembers : (vs ws : List (String × Json)) → Decidable (vs = ws)
  | [], [] => isTrue rfl
  | [], _ :: _ => isFalse nofun
  | _ :: _, [] => isFalse nofun
  | (k, v) :: vs, (l, w) :: ws =>
    match decEq v w, decEqMembers vs ws with
    | isTrue h, isTrue h' =>
      if hk : k = l then isTrue (by rw [h, h', hk])
      else isFalse fun e ↦ hk (Prod.mk.inj (List.cons.inj e).1).1
    | isFalse h, _ => isFalse fun e ↦ h (Prod.mk.inj (List.cons.inj e).1).2
    | _, isFalse h => isFalse fun e ↦ h (List.cons.inj e).2

end

instance : DecidableEq Json := decEq

/-! ### Members in order -/

/-- Puts a member among members in ascending order of their keys. One that has its key already stays
instead of it. -/
def insertMember (key : String) (v : Json) : List (String × Json) → List (String × Json)
  | [] => [(key, v)]
  | (k, w) :: rest =>
    if key < k then (key, v) :: (k, w) :: rest
    else if key = k then (k, w) :: rest
    else (k, w) :: insertMember key v rest

mutual

/-- A value with all members in order and `scalar` applied to what is neither array nor object. -/
def arrange (scalar : Json → Json) : Json → Json
  | arr items => arr (arrangeItems scalar items)
  | obj members => obj (arrangeMembers scalar members)
  | v => scalar v

/-- The items of an array, arranged. -/
def arrangeItems (scalar : Json → Json) : List Json → List Json
  | [] => []
  | v :: rest => arrange scalar v :: arrangeItems scalar rest

/-- The members of an object, arranged. Later members are put in first and so stay. -/
def arrangeMembers (scalar : Json → Json) : List (String × Json) → List (String × Json)
  | [] => []
  | (k, v) :: rest => insertMember k (arrange scalar v) (arrangeMembers scalar rest)

end

/-- A value with all members in ascending order of their keys. -/
def sorted (v : Json) : Json := v.arrange id

@[simp] theorem sorted_int (n : Int) : (int n).sorted = int n := by simp [sorted, arrange]

@[simp] theorem sorted_bool (b : Bool) : (bool b).sorted = bool b := by simp [sorted, arrange]

/-! ### Equality of value -/

/-- A number as the integer that it is equal to. -/
def leveled (v : Json) : Json :=
  match v.whole? with
  | some n => int n
  | none => v

/-- Whether two values are the same. -/
def same (v w : Json) : Bool := v.arrange leveled = w.arrange leveled

/-- Every value is the same as itself. -/
@[simp] theorem same_self (v : Json) : v.same v = true := by simp [same]

/-- Whether a value can be looked up: a scalar can, an array or object cannot. -/
def isKey : Json → Bool
  | arr _ | obj _ => false
  | _ => true

end A64Text.Json
