import A64Text.Proofs.Routing

/-!
# What an instruction is called

An opcode may be given by its name or by its number, and an instruction goes by the one that was
given. The name appears in faults, and nowhere else: no layout looks at how the operation was given,
only at the opcode that it comes to. So two instructions that differ in that only (`Renamed`) have
the same layout in every family, or the same fault but for the name (`Family.layout_renamed`), and
they print alike (`Instruction.tokens_renamed`).
-/

namespace A64Text

/-- A fault without the name of the instruction. -/
def LayoutFault.unnamed : LayoutFault → LayoutFault
  | arity _ given expected => arity "" given expected
  | absent _ given expected index => absent "" given expected index
  | misfit _ given expected index actual => misfit "" given expected index actual
  | noAddress _ actual => noAddress "" actual
  | unhandled _ family => unhandled "" family
  | fault => fault

/-- A result, with a fault that does not name the instruction. -/
def unnamedResult {α : Type} (r : Except LayoutFault α) : Except LayoutFault α :=
  r.mapError LayoutFault.unnamed

/-- Two instructions that differ at most in how the operation is given. -/
structure Instruction.Renamed (i j : Instruction) : Prop where
  opcode : i.opcode? = j.opcode?
  isKey : i.operation.isKey = j.operation.isKey
  operands : i.operands = j.operands
  setsFlags : i.setsFlags = j.setsFlags
  condition : i.conditionOf = j.conditionOf

variable {i j : Instruction}

/-! ### Faults -/

namespace Instruction.Renamed

theorem arityFault (h : i.Renamed j) (expected : Nat) :
    (i.arityFault expected).unnamed = (j.arityFault expected).unnamed := by
  simp only [Instruction.arityFault, h.operands, LayoutFault.unnamed]

theorem absentFault (h : i.Renamed j) (expected : Operand.Kind) (index : Nat) :
    (i.absentFault expected index).unnamed = (j.absentFault expected index).unnamed := by
  simp only [Instruction.absentFault, h.operands, LayoutFault.unnamed]

theorem misfitFault (h : i.Renamed j) (expected : Operand.Kind) (index : Nat) (o : Operand) :
    (i.misfitFault expected index o).unnamed = (j.misfitFault expected index o).unnamed := by
  simp only [Instruction.misfitFault, h.operands, LayoutFault.unnamed]

theorem shapeFault (h : i.Renamed j) (kinds : List Operand.Kind) :
    (i.shapeFault kinds).unnamed = (j.shapeFault kinds).unnamed := by
  unfold Instruction.shapeFault
  rw [h.operands]
  split
  · split
    · exact h.misfitFault _ _ _
    · exact h.arityFault _
  · exact h.arityFault _

theorem notListedFault (h : i.Renamed j) (family : String) :
    (i.notListedFault family).unnamed = (j.notListedFault family).unnamed := by
  unfold Instruction.notListedFault
  rw [h.isKey]
  split
  · rfl
  · rfl

end Instruction.Renamed

/-! ### Layouts -/

/-- The first operand is the same register, or no register for the same reason. -/
theorem Layout.firstRegister_renamed (h : i.Renamed j) :
    (∃ r, firstRegister i = .ok r ∧ firstRegister j = .ok r) ∨
      ∃ fault fault', firstRegister i = .error fault ∧ firstRegister j = .error fault' ∧
        fault.unnamed = fault'.unnamed := by
  unfold firstRegister
  rw [h.operands]
  split
  · exact .inl ⟨_, rfl, rfl⟩
  · exact .inr ⟨_, _, rfl, rfl, h.misfitFault _ _ _⟩
  · exact .inr ⟨_, _, rfl, rfl, h.absentFault _ _⟩

theorem Layout.branchRegister_renamed (h : i.Renamed j) :
    unnamedResult (branchRegister i) = unnamedResult (branchRegister j) := by
  unfold branchRegister
  rw [h.opcode, h.operands, h.isKey]
  rcases firstRegister_renamed h with ⟨r, hi, hj⟩ | ⟨fault, fault', hi, hj, hfault⟩
  · simp only [hi, hj]
    split
    · split
      · rfl
      all_goals
        split
        · rfl
        · exact congrArg Except.error (h.arityFault _)
        · rfl
    · split <;> rfl
  · simp only [hi, hj]
    split
    · split
      · rfl
      all_goals exact congrArg Except.error hfault
    · split
      · exact congrArg Except.error hfault
      · rfl

/-- A family makes the same layout of instructions that differ in how the operation is given, or
rejects them with the same fault but for the name. -/
theorem Family.layout_renamed (h : i.Renamed j) (f : Family) :
    unnamedResult (f.layout i) = unnamedResult (f.layout j) := by
  cases f
  case branchRegister => exact Layout.branchRegister_renamed h
  -- Every other layout branches on operands, opcode, flag and condition, which are the same.
  all_goals
    simp only [layout, Layout.pcRelativeAddressing, Layout.addSubtractImmediate,
      Layout.logicalImmediate, Layout.moveWideImmediate, Layout.bitfield, Layout.extract,
      Layout.conditionalBranch, Layout.exceptionGeneration, Layout.system, Layout.branchImmediate,
      Layout.compareAndBranch, Layout.testAndBranch, Layout.loadStoreExclusive, Layout.loadLiteral,
      Layout.loadStorePair, Layout.loadStore, Layout.dataProcessingTwoSource,
      Layout.dataProcessingOneSource, Layout.logicalShiftedRegister,
      Layout.addSubtractShiftedRegister, Layout.addSubtractExtendedRegister,
      Layout.addSubtractWithCarry, Layout.conditionalCompare, Layout.conditionalSelect,
      Layout.dataProcessingThreeSource, h.operands, h.opcode, h.setsFlags, h.condition]
    repeat' split
  all_goals
    first
    | rfl
    | exact congrArg Except.error (h.shapeFault _)
    | exact congrArg Except.error (h.arityFault _)
    | exact congrArg Except.error (h.misfitFault _ _ _)
    | exact congrArg Except.error (h.absentFault _ _)
    | exact congrArg Except.error (h.notListedFault _)

/-! ### Tokens -/

theorem Family.tokens_renamed (h : i.Renamed j) (f : Family) :
    unnamedResult (f.tokens i) = unnamedResult (f.tokens j) := by
  have hlayout := f.layout_renamed h
  unfold tokens
  cases hi : f.layout i with
  | ok l =>
    cases hj : f.layout j with
    | ok l' =>
      rw [hi, hj] at hlayout
      obtain rfl := Except.ok.inj hlayout
      rfl
    | error fault =>
      rw [hi, hj] at hlayout
      cases hlayout
  | error fault =>
    cases hj : f.layout j with
    | ok l =>
      rw [hi, hj] at hlayout
      cases hlayout
    | error fault' =>
      rw [hi, hj] at hlayout
      exact congrArg Except.error (Except.error.inj hlayout)

/-- Instructions that differ in how the operation is given print the same tokens, or fail with the
same fault but for the name. -/
theorem Instruction.tokens_renamed {n : Int} (h : i.Renamed j) (hi : i.operation.integer? = some n)
    (hj : j.operation.integer? = some n) : unnamedResult i.tokens = unnamedResult j.tokens := by
  rw [tokens_of_integer? hi, tokens_of_integer? hj]
  cases Family.ofNumber? n with
  | none => rfl
  | some f => exact f.tokens_renamed h

end A64Text
