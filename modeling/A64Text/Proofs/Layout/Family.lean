import A64Text.Proofs.Layout.ControlFlow
import A64Text.Proofs.Layout.ImmediateForms
import A64Text.Proofs.Layout.Memory
import A64Text.Proofs.Layout.RegisterForms
import A64Text.Proofs.Layout.System

/-!
# The outcome of every family

What any family makes of any instruction with integers in its fields (`Family.outcome`), and what
follows for tokens: a layout that derives from an instruction has no faults of its own, so a family
prints exactly what it lays out (`Family.tokens_eq`).
-/

namespace A64Text

variable {i : Instruction}

/-- What a family makes of an instruction is one of the four outcomes. -/
theorem Family.outcome (f : Family) (h : i.hasIntegers = true)
    (hkey : i.operation.isKey = true) : Outcome i f (f.layout i) := by
  cases f with
  | pcRelativeAddressing => exact Layout.outcome_pcRelativeAddressing h
  | addSubtractImmediate => exact Layout.outcome_addSubtractImmediate
  | logicalImmediate => exact Layout.outcome_logicalImmediate
  | moveWideImmediate => exact Layout.outcome_moveWideImmediate h
  | bitfield => exact Layout.outcome_bitfield h
  | extract => exact Layout.outcome_extract h
  | conditionalBranch => exact Layout.outcome_conditionalBranch h
  | exceptionGeneration => exact Layout.outcome_exceptionGeneration h hkey
  | system => exact Layout.outcome_system h hkey
  | branchRegister => exact Layout.outcome_branchRegister hkey
  | branchImmediate => exact Layout.outcome_branchImmediate h
  | compareAndBranch => exact Layout.outcome_compareAndBranch h
  | testAndBranch => exact Layout.outcome_testAndBranch h
  | loadStoreExclusive => exact Layout.outcome_loadStoreExclusive hkey
  | loadLiteral => exact Layout.outcome_loadLiteral h hkey
  | loadStorePair => exact Layout.outcome_loadStorePair hkey
  | loadStore => exact Layout.outcome_loadStore h hkey
  | dataProcessingTwoSource => exact Layout.outcome_dataProcessingTwoSource hkey
  | dataProcessingOneSource => exact Layout.outcome_dataProcessingOneSource hkey
  | logicalShiftedRegister => exact Layout.outcome_logicalShiftedRegister
  | addSubtractShiftedRegister => exact Layout.outcome_addSubtractShiftedRegister
  | addSubtractExtendedRegister => exact Layout.outcome_addSubtractExtendedRegister
  | addSubtractWithCarry => exact Layout.outcome_addSubtractWithCarry
  | conditionalCompare => exact Layout.outcome_conditionalCompare
  | conditionalSelect => exact Layout.outcome_conditionalSelect hkey
  | dataProcessingThreeSource => exact Layout.outcome_dataProcessingThreeSource hkey

/-! ### Printing what is laid out -/

theorem Part.Derives.fault?_eq_none {p : Part} (hp : p.Derives i) (h : i.hasIntegers = true) :
    p.fault? = none := by
  cases hp with
  | operand ho => exact Operand.fault?_eq_none (Instruction.hasIntegers_of_mem h ho)
  | immediate himm => exact Immediate.fault?_eq_none himm
  | signed himm => exact Immediate.signedFault?_eq_none himm
  | decimal n => rfl
  | word hs => rfl

/-- A layout that derives from an instruction prints. -/
theorem Layout.Derives.print_eq {l : Layout} (hl : l.Derives i) (h : i.hasIntegers = true) :
    l.print = .ok l.tokens :=
  print_eq_ok_iff.2 ⟨fun p hp ↦ (hl.parts p hp).fault?_eq_none h, rfl⟩

/-- A family prints what it lays out, and fails if it lays out nothing. -/
theorem Family.tokens_eq (f : Family) (h : i.hasIntegers = true)
    (hkey : i.operation.isKey = true) : f.tokens i = (f.layout i).map Layout.tokens := by
  have houtcome := f.outcome h hkey
  rw [tokens]
  generalize f.layout i = result at houtcome
  cases houtcome with
  | laidOut hop hfamily haccepts hwide hderives => exact hderives.print_eq h
  | noRoom hop hfamily haccepts hwide => rfl
  | misshapen hop hfamily haccepts hbreach hown => rfl
  | foreign hforeign hbreach => rfl

/-- The tokens of an instruction whose operation has a number. -/
theorem Instruction.tokens_of_number? {n : Number} (hn : i.operation.number? = some n) :
    i.tokens =
      match i.operation.family? with
      | some f => f.tokens i
      | none => .ok [.unsupportedInstruction] := by
  rw [tokens, Operation.family?, hn]
  rfl

end A64Text
