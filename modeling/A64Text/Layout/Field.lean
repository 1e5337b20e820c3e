import A64Text.Layout.Basic

/-!
# Named fields

Two encoding fields have names for some of their values: the option of a memory barrier and the
operation of a prefetch. A value without a name prints as a number in base ten. Names are found by
the bits of a value, so a real number is refused.
-/

namespace A64Text

/-! ### Barrier options -/

namespace Barrier

/-- The shareability domains, by the upper two bits of an option; the full system has no text. -/
def domains : List String := ["os", "nsh", "ish", ""]

/-- The access types that have a text, by the lower two bits of an option. -/
def access? : Nat → Option String
  | 1 => some "ld"
  | 2 => some "st"
  | _ => none

/-- The part that shows a barrier option. Options above four bits and options for all access types
print as numbers. The domain is an entry of `domains`, counted from the end below zero. -/
def part (option : Number) : Except LayoutFault Part :=
  match option.integer? with
  | none => .error (.operand .notANumber)
  | some n =>
    match access? (n % 4).toNat with
    | some access =>
      if 15 < n then .ok (.decimal option)
      else
        match entryAt? domains (n / 4) with
        | some domain => .ok (.word (domain ++ access))
        | none => .error (.noEntry (n / 4))
    | none => .ok (.decimal option)

end Barrier

/-! ### Prefetch operations -/

namespace Prefetch

/-- The type of a prefetch, by bits 4 and 3. -/
def type? : Nat → Option String
  | 0 => some "PLD"
  | 1 => some "PLI"
  | 2 => some "PST"
  | _ => none

/-- The cache level of a prefetch, by bits 2 and 1. -/
def target? : Nat → Option String
  | 0 => some "L1"
  | 1 => some "L2"
  | 2 => some "L3"
  | _ => none

/-- The policy of a prefetch, by bit 0. -/
def policy (bit : Nat) : String := if bit = 0 then "KEEP" else "STRM"

/-- The part that shows a prefetch operation. -/
def part (operation : Number) : Except LayoutFault Part :=
  match operation.integer? with
  | none => .error (.operand .notANumber)
  | some n =>
    let bits := (n % 32).toNat
    if 31 < n then .ok (.decimal operation)
    else
      match type? (bits / 8), target? (bits / 2 % 4) with
      | some type, some target => .ok (.word (type ++ target ++ policy (bits % 2)))
      | _, _ => .ok (.decimal operation)

end Prefetch

/-- The part that shows a condition. -/
def Condition.part (c : Condition) : Part := .word c.text

end A64Text
