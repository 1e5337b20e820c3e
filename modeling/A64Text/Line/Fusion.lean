import A64Text.Line.Basic

/-!
# Fusing modifiers

Some writers put a comma between a modifier keyword and its amount, some do not. A keyword that
stands alone is therefore fused with the nameless term behind it. `coalesce` does this for any way
of joining neighbours: it runs from the left, and what was just joined may be joined again.
-/

namespace A64Text.Line

/-- Joins neighbours from the left for as long as `join?` allows it; `current` stands in front. -/
def coalesceFrom {α : Type} (join? : α → α → Option α) (current : α) : List α → List α
  | [] => [current]
  | next :: rest =>
    match join? current next with
    | some joined => coalesceFrom join? joined rest
    | none => current :: coalesceFrom join? next rest

/-- Joins neighbours from the left for as long as `join?` allows it. -/
def coalesce {α : Type} (join? : α → α → Option α) : List α → List α
  | [] => []
  | first :: rest => coalesceFrom join? first rest

/-- The keywords that take an amount. -/
def modifierKeywords : List String :=
  ["lsl", "lsr", "asr", "ror", "msl", "uxtb", "uxth", "uxtw", "uxtx", "sxtb", "sxth", "sxtw",
    "sxtx"]

/-- Whether a term is a modifier keyword without an amount. -/
def Term.isBareModifier (t : Term) : Bool :=
  t.value?.isNone && t.name?.any modifierKeywords.contains

/-- A bare modifier takes the value of a nameless term behind it. -/
def Term.fuse? (t next : Term) : Option Term :=
  if t.isBareModifier && next.name?.isNone then some ⟨t.name?, next.value?⟩ else none

/-- Terms among operands fuse as terms do; memory operands fuse with nothing. -/
def Item.fuse? : Item → Item → Option Item
  | term t, term next => (t.fuse? next).map term
  | _, _ => none

/-- Fuses the modifiers among terms. -/
def fuseTerms : List Term → List Term := coalesce Term.fuse?

/-- Fuses the modifiers among operands. -/
def fuseItems : List Item → List Item := coalesce Item.fuse?

end A64Text.Line
