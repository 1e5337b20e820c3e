import A64Text.Layout.ControlFlow
import A64Text.Layout.ImmediateForms
import A64Text.Layout.Memory
import A64Text.Layout.RegisterForms
import A64Text.Layout.System

/-!
# Layout by family

Every family lays out its own instructions and rejects all others. An instruction is laid out by the
family of its opcode's number; an opcode without a family has no layout and prints as a placeholder.
-/

namespace A64Text

/-- Lays out an instruction as one of a family. -/
def Family.layout : Family → Instruction → Except LayoutFault Layout
  | pcRelativeAddressing => Layout.pcRelativeAddressing
  | addSubtractImmediate => Layout.addSubtractImmediate
  | logicalImmediate => Layout.logicalImmediate
  | moveWideImmediate => Layout.moveWideImmediate
  | bitfield => Layout.bitfield
  | extract => Layout.extract
  | conditionalBranch => Layout.conditionalBranch
  | exceptionGeneration => Layout.exceptionGeneration
  | system => Layout.system
  | branchRegister => Layout.branchRegister
  | branchImmediate => Layout.branchImmediate
  | compareAndBranch => Layout.compareAndBranch
  | testAndBranch => Layout.testAndBranch
  | loadStoreExclusive => Layout.loadStoreExclusive
  | loadLiteral => Layout.loadLiteral
  | loadStorePair => Layout.loadStorePair
  | loadStore => Layout.loadStore
  | dataProcessingTwoSource => Layout.dataProcessingTwoSource
  | dataProcessingOneSource => Layout.dataProcessingOneSource
  | logicalShiftedRegister => Layout.logicalShiftedRegister
  | addSubtractShiftedRegister => Layout.addSubtractShiftedRegister
  | addSubtractExtendedRegister => Layout.addSubtractExtendedRegister
  | addSubtractWithCarry => Layout.addSubtractWithCarry
  | conditionalCompare => Layout.conditionalCompare
  | conditionalSelect => Layout.conditionalSelect
  | dataProcessingThreeSource => Layout.dataProcessingThreeSource

/-- The tokens of an instruction printed as one of a family. -/
def Family.tokens (f : Family) (i : Instruction) : Except LayoutFault (List Token) :=
  match f.layout i with
  | .ok l => l.print
  | .error fault => .error fault

namespace Instruction

/-- The tokens of an instruction. -/
def tokens (i : Instruction) : Except LayoutFault (List Token) :=
  match i.operation.number? with
  | none => .error .noNumber
  | some n =>
    match Family.of? n with
    | some f => f.tokens i
    | none => .ok [.unsupportedInstruction]

/-- The text of an instruction. -/
def text (i : Instruction) : Except LayoutFault String := i.tokens.map Token.concat

end Instruction

end A64Text
