import A64Text.Number
import A64Text.Opcode.Basic

/-!
# Encoding families

The families of opcodes, and two ways to find the family of a number. `upperBounds` lists the last
opcode of every family. From it, `ofNumber?` finds a family by bisection, and `ranges` derives the
first and last number of every family, one range starting where the one before it ends.
-/

namespace A64Text

/-! ### Bisection

Where a number falls among ascending bounds: `lowerBound` halves the interval of places that are
still possible until one is left. For ascending bounds that place is the number of bounds below the
given number. -/

/-- Bisection between the places `low` and `high`: bounds before `low` are known to be below `x`,
bounds from `high` on are known not to be. -/
def lowerBoundBetween (bounds : Array Int) (x : Int) (low high : Nat)
    (h : high ≤ bounds.size) : Nat :=
  if hlt : low < high then
    let middle := (low + high) / 2
    if bounds[middle] < x then lowerBoundBetween bounds x (middle + 1) high h
    else lowerBoundBetween bounds x low middle (by omega)
  else low
termination_by high - low
decreasing_by all_goals omega

/-- The first place at which a bound is not below `x`; the number of bounds if all are. -/
def lowerBound (bounds : Array Int) (x : Int) : Nat :=
  lowerBoundBetween bounds x 0 bounds.size (Nat.le_refl _)

/-! ### Families -/

/-- An encoding family. -/
inductive Family where
  | pcRelativeAddressing
  | addSubtractImmediate
  | logicalImmediate
  | moveWideImmediate
  | bitfield
  | extract
  | conditionalBranch
  | exceptionGeneration
  | system
  | branchRegister
  | branchImmediate
  | compareAndBranch
  | testAndBranch
  | loadStoreExclusive
  | loadLiteral
  | loadStorePair
  | loadStore
  | dataProcessingTwoSource
  | dataProcessingOneSource
  | logicalShiftedRegister
  | addSubtractShiftedRegister
  | addSubtractExtendedRegister
  | addSubtractWithCarry
  | conditionalCompare
  | conditionalSelect
  | dataProcessingThreeSource
  deriving DecidableEq, Repr

namespace Family

/-- All families, in the order of their opcodes. -/
def all : List Family :=
  [pcRelativeAddressing, addSubtractImmediate, logicalImmediate, moveWideImmediate, bitfield,
    extract, conditionalBranch, exceptionGeneration, system, branchRegister, branchImmediate,
    compareAndBranch, testAndBranch, loadStoreExclusive, loadLiteral, loadStorePair, loadStore,
    dataProcessingTwoSource, dataProcessingOneSource, logicalShiftedRegister,
    addSubtractShiftedRegister, addSubtractExtendedRegister, addSubtractWithCarry,
    conditionalCompare, conditionalSelect, dataProcessingThreeSource]

/-- The name of a family. -/
def name : Family → String
  | pcRelativeAddressing => "pc_relative_addressing"
  | addSubtractImmediate => "add_subtract_immediate"
  | logicalImmediate => "logical_immediate"
  | moveWideImmediate => "move_wide_immediate"
  | bitfield => "bitfield"
  | extract => "extract"
  | conditionalBranch => "conditional_branch"
  | exceptionGeneration => "exception_generation"
  | system => "system"
  | branchRegister => "branch_register"
  | branchImmediate => "branch_immediate"
  | compareAndBranch => "compare_and_branch"
  | testAndBranch => "test_and_branch"
  | loadStoreExclusive => "load_store_exclusive"
  | loadLiteral => "load_literal"
  | loadStorePair => "load_store_pair"
  | loadStore => "load_store"
  | dataProcessingTwoSource => "data_processing_two_source"
  | dataProcessingOneSource => "data_processing_one_source"
  | logicalShiftedRegister => "logical_shifted_register"
  | addSubtractShiftedRegister => "add_subtract_shifted_register"
  | addSubtractExtendedRegister => "add_subtract_extended_register"
  | addSubtractWithCarry => "add_subtract_with_carry"
  | conditionalCompare => "conditional_compare"
  | conditionalSelect => "conditional_select"
  | dataProcessingThreeSource => "data_processing_three_source"

/-- The family with a name. -/
def ofName? (s : String) : Option Family := all.find? fun f ↦ f.name = s

/-- What is said of something that names no family, by how it is shown inside a message. -/
def unknownMessage (shown : String) : String := shown ++ " is not a valid Family"

/-! ### Families of numbers -/

/-- The last opcode of each family, in ascending order. -/
def upperBounds : List (Opcode × Family) :=
  [(.pcRelativeAddressing .adrp, pcRelativeAddressing),
    (.addSubtractImmediate .sub, addSubtractImmediate),
    (.logicalImmediate .eor, logicalImmediate), (.moveWideImmediate .movz, moveWideImmediate),
    (.bitfield .ubfm, bitfield), (.extract, extract), (.conditionalBranch, conditionalBranch),
    (.exceptionGeneration .svc, exceptionGeneration), (.system .yield, system),
    (.branchRegister .retab, branchRegister), (.branchImmediate .bl, branchImmediate),
    (.compareAndBranch .cbz, compareAndBranch), (.testAndBranch .tbz, testAndBranch),
    (.loadStoreExclusive .stxr, loadStoreExclusive), (.loadLiteral .prfm, loadLiteral),
    (.loadStorePair .stp, loadStorePair), (.loadStore .stur, loadStore),
    (.dataProcessingTwoSource .udiv, dataProcessingTwoSource),
    (.dataProcessingOneSource .xpaci, dataProcessingOneSource),
    (.logicalShiftedRegister .eon, logicalShiftedRegister),
    (.addSubtractShiftedRegister .sub, addSubtractShiftedRegister),
    (.addSubtractExtendedRegister .sub, addSubtractExtendedRegister),
    (.addSubtractWithCarry .sbc, addSubtractWithCarry),
    (.conditionalCompare .ccmp, conditionalCompare),
    (.conditionalSelect .csneg, conditionalSelect),
    (.dataProcessingThreeSource .umsubl, dataProcessingThreeSource)]

/-- The numbers of the upper bounds. -/
def upperNumbers : Array Int := (upperBounds.map fun b ↦ (b.1.number : Int)).toArray

/-- The family of a number, found by bisection over the upper bounds. -/
def ofNumber? (n : Int) : Option Family :=
  if n < 1 then none else (upperBounds[lowerBound upperNumbers n]?).map (·.2)

/-- The family of a real number, by the upper bounds that are below it: those that are below the
next integer. No bound is below a value that is no number. -/
def ofReal? : Binary64 → Option Family
  | .finite u =>
    if u < Binary64.one then none else ofNumber? ((u + Binary64.one - 1) / Binary64.one)
  | .negativeZero | .infinite _ => none
  | .nan => ofNumber? 1

/-- The family of a number in the form in which it was given. -/
def of? : Number → Option Family
  | .real x => ofReal? x
  | n => n.integer?.bind ofNumber?

/-- The numbers of a family, first and last included. -/
structure Range where
  family : Family
  first : Nat
  last : Nat
  deriving DecidableEq, Repr

/-- The ranges of families with the given upper bounds, the first one starting at `first`. -/
def rangesFrom (first : Nat) : List (Opcode × Family) → List Range
  | [] => []
  | (bound, family) :: rest =>
    ⟨family, first, bound.number⟩ :: rangesFrom (bound.number + 1) rest

/-- The ranges of all families. -/
def ranges : List Range := rangesFrom 1 upperBounds

/-- The range of a family. -/
def range? (f : Family) : Option Range := ranges.find? fun r ↦ r.family = f

/-- The opcodes whose numbers lie in the range of a family. -/
def opcodes (f : Family) : List Opcode :=
  match f.range? with
  | some r => Opcode.all.filter fun op ↦ r.first ≤ op.number && op.number ≤ r.last
  | none => []

/-- The place of a family among the upper bounds. -/
def position (f : Family) : Nat := (upperBounds.map (·.2)).idxOf f

end Family

/-- The family that an opcode belongs to by its form. -/
def Opcode.family : Opcode → Family
  | .pcRelativeAddressing _ => .pcRelativeAddressing
  | .addSubtractImmediate _ => .addSubtractImmediate
  | .logicalImmediate _ => .logicalImmediate
  | .moveWideImmediate _ => .moveWideImmediate
  | .bitfield _ => .bitfield
  | .extract => .extract
  | .conditionalBranch => .conditionalBranch
  | .exceptionGeneration _ => .exceptionGeneration
  | .system _ => .system
  | .branchRegister _ => .branchRegister
  | .branchImmediate _ => .branchImmediate
  | .compareAndBranch _ => .compareAndBranch
  | .testAndBranch _ => .testAndBranch
  | .loadStoreExclusive _ => .loadStoreExclusive
  | .loadLiteral _ => .loadLiteral
  | .loadStorePair _ => .loadStorePair
  | .loadStore _ => .loadStore
  | .dataProcessingTwoSource _ => .dataProcessingTwoSource
  | .dataProcessingOneSource _ => .dataProcessingOneSource
  | .logicalShiftedRegister _ => .logicalShiftedRegister
  | .addSubtractShiftedRegister _ => .addSubtractShiftedRegister
  | .addSubtractExtendedRegister _ => .addSubtractExtendedRegister
  | .addSubtractWithCarry _ => .addSubtractWithCarry
  | .conditionalCompare _ => .conditionalCompare
  | .conditionalSelect _ => .conditionalSelect
  | .dataProcessingThreeSource _ => .dataProcessingThreeSource

end A64Text
