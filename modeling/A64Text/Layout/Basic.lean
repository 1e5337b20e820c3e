import A64Text.Contract

/-!
# Layouts

What a line will show: a mnemonic and parts. A part is an operand, or a number or word computed from
one. Parts are joined by commas, except that a shift or extend attaches to the part before it and
brings its own comma. A layout prints unless one of its parts does not, and then the fault is that
of the first such part.
-/

namespace A64Text

/-! ### Parts -/

/-- A part of a line. -/
inductive Part where
  /-- An operand in its own form. -/
  | operand (o : Operand)
  /-- An immediate read as an offset. -/
  | signed (imm : Immediate)
  /-- A number in base ten, as it was given. -/
  | decimal (n : Number)
  /-- A word. -/
  | word (s : String)
  deriving DecidableEq, Repr

namespace Part

instance : Coe Operand Part := ⟨.operand⟩

instance : Coe Register Part := ⟨fun r ↦ .operand (.register r)⟩

instance : Coe Immediate Part := ⟨fun imm ↦ .operand (.immediate imm)⟩

instance : Coe Shift Part := ⟨fun s ↦ .operand (.shift s)⟩

instance : Coe Extend Part := ⟨fun e ↦ .operand (.extend e)⟩

/-- The tokens of a part. -/
def tokens : Part → List Token
  | operand o => o.tokens
  | signed imm => imm.signedTokens
  | decimal n => [Immediate.decimalToken n]
  | word s => [.text s]

/-- Why a part does not print. -/
def fault? : Part → Option PrintFault
  | operand o => o.fault?
  | signed imm => imm.signedFault?
  | decimal _ | word _ => none

/-- Whether a part attaches to the one before it. -/
def attaches : Part → Bool
  | operand o => o.isModifier
  | _ => false

/-- A word that is a letter and a value, such as a field of a system instruction. -/
def field (letter : String) (v : Json) : Part := word (letter ++ v.display)

end Part

/-! ### Joining -/

/-- Tokens that stand together in a line. -/
structure Segment where
  /-- Whether they bring their own comma. -/
  attaches : Bool
  tokens : List Token
  deriving DecidableEq, Repr

namespace Segment

/-- The tokens of a segment that is not the first one. -/
def following (s : Segment) : List Token :=
  if s.attaches then s.tokens else .comma :: s.tokens

/-- Joins segments with commas. -/
def join : List Segment → List Token
  | [] => []
  | s :: rest => s.tokens ++ rest.flatMap following

/-- A mnemonic followed by joined segments, if there are any. -/
def line (mnemonic : String) (segments : List Segment) : List Token :=
  .instruction mnemonic ::
    if segments.isEmpty then [] else .blank :: join segments

end Segment

/-- A part as a segment. -/
def Part.segment (p : Part) : Segment := ⟨p.attaches, p.tokens⟩

/-! ### Layouts -/

/-- A mnemonic and the parts behind it. -/
structure Layout where
  mnemonic : String
  parts : List Part := []
  deriving DecidableEq, Repr

namespace Layout

/-- The tokens of a layout. -/
def tokens (l : Layout) : List Token := Segment.line l.mnemonic (l.parts.map Part.segment)

/-- The text of a layout. -/
def text (l : Layout) : String := Token.concat l.tokens

/-- Why a layout does not print: the fault of the first part that has one. -/
def fault? (l : Layout) : Option PrintFault := l.parts.findSome? Part.fault?

/-- The tokens of a layout, if it prints. -/
def print (l : Layout) : Except LayoutFault (List Token) :=
  match l.fault? with
  | none => .ok l.tokens
  | some fault => .error (.operand fault)

/-- A layout prints exactly when none of its parts has a fault, and then as its tokens. -/
theorem print_eq_ok_iff {l : Layout} {ts : List Token} :
    l.print = .ok ts ↔ (∀ p ∈ l.parts, p.fault? = none) ∧ l.tokens = ts := by
  rw [← List.findSome?_eq_none_iff, print, fault?]
  split <;> simp_all

end Layout

end A64Text
