import A64Text.Proofs.Routing
import Mathlib.Tactic.Simproc.ExistsAndEq

/-!
# Modifiers that do nothing

A shift or an extend may be there in name only: its kind says that nothing is done, and its amount
then means nothing. An operand is *idled* by setting such amounts to zero (`Operand.idled`), and
what prints of it stays as it is (`Operand.tokens_idled`, `Operand.fault?_idled`).

Layouts either show a modifier or look at its kind, so idling an instruction idles its layout and
changes no fault (`Family.layout_idled`). There is one exception: the wide moves that print the
value that the register receives shift it by the amount, whatever the kind. Apart from them,
instructions that are the same when idled print alike, and those shift to the left by an amount that
should mean nothing (`Instruction.tokens_of_idled_eq`).
-/

namespace A64Text

/-! ### Idling -/

/-- The shift, with no amount if it does nothing. -/
def Shift.idled (s : Shift) : Shift := if s.kind = .none then { s with count := .int 0 } else s

/-- The extend, with no amount if it does nothing. -/
def Extend.idled (e : Extend) : Extend := if e.kind = .none then { e with count := .int 0 } else e

/-- The operand, with no amounts of modifiers that do nothing. -/
def Operand.idled : Operand → Operand
  | shift s => shift s.idled
  | extend e => extend e.idled
  | immediateOffset a => immediateOffset { a with shift := a.shift.idled }
  | registerOffset a => registerOffset { a with extend := a.extend.idled }
  | o => o

/-- The part, with no amounts of modifiers that do nothing. -/
def Part.idled : Part → Part
  | operand o => operand o.idled
  | p => p

/-- The layout, with no amounts of modifiers that do nothing. -/
def Layout.idled (l : Layout) : Layout := { l with parts := l.parts.map Part.idled }

/-- The instruction, with no amounts of modifiers that do nothing. -/
def Instruction.idled (i : Instruction) : Instruction :=
  { i with operands := i.operands.map Operand.idled }

/-! ### Printing -/

namespace Shift

variable (s : Shift)

@[simp] theorem kind_idled : s.idled.kind = s.kind := by
  rw [idled]
  split <;> rfl

theorem idled_of_ne_none {s : Shift} (h : s.kind ≠ .none) : s.idled = s := if_neg h

@[simp] theorem tokens_idled : s.idled.tokens = s.tokens := by
  by_cases h : s.kind = .none
  · simp [tokens, h]
  · rw [idled_of_ne_none h]

@[simp] theorem fault?_idled : s.idled.fault? = s.fault? := by
  by_cases h : s.kind = .none
  · simp [fault?, h]
  · rw [idled_of_ne_none h]

@[simp] theorem isTrivial_idled : s.idled.isTrivial = s.isTrivial := by
  by_cases h : s.kind = .none
  · simp [isTrivial, h]
  · rw [idled_of_ne_none h]

end Shift

@[simp] theorem Extend.tokens_idled (e : Extend) : e.idled.tokens = e.tokens := by
  rw [idled]
  split
  · rename_i h
    simp [tokens, h]
  · rfl

namespace Operand

variable (o : Operand)

@[simp] theorem kind_idled : o.idled.kind = o.kind := by cases o <;> rfl

@[simp] theorem isKind_idled (k : Kind) : o.idled.isKind k = o.isKind k := by
  rw [isKind, isKind, kind_idled]

@[simp] theorem isModifier_idled : o.idled.isModifier = o.isModifier := by cases o <;> rfl

/-- An amount that means nothing is not printed. -/
@[simp] theorem tokens_idled : o.idled.tokens = o.tokens := by
  cases o <;> simp [idled, tokens, ImmediateOffset.tokens, RegisterOffset.tokens,
    ImmediateOffset.indexing, RegisterOffset.indexing, ImmediateOffset.showsOffset]

/-- An amount that means nothing does no harm. -/
@[simp] theorem fault?_idled : o.idled.fault? = o.fault? := by
  cases o <;> simp [idled, fault?, ImmediateOffset.fault?, RegisterOffset.fault?,
    ImmediateOffset.showsOffset]

end Operand

namespace Part

variable (p : Part)

@[simp] theorem segment_idled : p.idled.segment = p.segment := by
  cases p <;> simp [idled, segment, attaches, tokens]

@[simp] theorem fault?_idled : p.idled.fault? = p.fault? := by
  cases p <;> simp [idled, fault?]

end Part

/-- A layout prints as it does when idled. -/
theorem Layout.print_idled (l : Layout) : l.idled.print = l.print := by
  have htokens : l.idled.tokens = l.tokens := by simp [tokens, idled, Function.comp_def]
  have hfault : l.idled.fault? = l.fault? := by
    simp [fault?, idled, List.findSome?_map, Function.comp_def]
  rw [print, print, htokens, hfault]

/-! ### What idling is the idling of -/

namespace Operand

variable {o : Operand}

theorem idled_immediateOffset (a : ImmediateOffset) :
    (immediateOffset a).idled = immediateOffset { a with shift := a.shift.idled } := rfl

@[simp] theorem idled_eq_register {r : Register} : o.idled = register r ↔ o = register r := by
  cases o <;> simp [idled]

@[simp] theorem idled_eq_immediate {imm : Immediate} :
    o.idled = immediate imm ↔ o = immediate imm := by
  cases o <;> simp [idled]

@[simp] theorem idled_eq_shift {t : Shift} :
    o.idled = shift t ↔ ∃ s, o = shift s ∧ s.idled = t := by
  cases o <;> simp [idled]

@[simp] theorem idled_eq_extend {f : Extend} :
    o.idled = extend f ↔ ∃ e, o = extend e ∧ e.idled = f := by
  cases o <;> simp [idled]

/-- Operands that are registers and immediates when idled were so before. -/
theorem eq_of_map_idled {os qs : List Operand} (h : os.map idled = qs)
    (hqs : ∀ q ∈ qs, (∃ r, q = register r) ∨ ∃ imm, q = immediate imm) : os = qs := by
  subst h
  refine (List.map_id os).symm.trans (List.map_congr_left fun o ho ↦ ?_)
  rcases hqs o.idled (List.mem_map_of_mem ho) with ⟨r, hr⟩ | ⟨imm, himm⟩
  · rw [hr]
    exact idled_eq_register.1 hr
  · rw [himm]
    exact idled_eq_immediate.1 himm

end Operand

/-! ### Faults -/

/-- An instruction `j` that is another one when idled. -/
structure Instruction.IdlesTo (i j : Instruction) : Prop where
  operation : j.operation = i.operation
  operands : j.operands = i.operands.map Operand.idled
  setsFlags : j.setsFlags = i.setsFlags
  condition : j.conditionOf = i.conditionOf

namespace Instruction

theorem idlesTo_idled (i : Instruction) : i.IdlesTo i.idled := ⟨rfl, rfl, rfl, rfl⟩

/-- The first operand that does not fit stays where it is. -/
theorem firstMisfit?_idled (kinds : List Operand.Kind) (os : List Operand) :
    firstMisfit? kinds (os.map Operand.idled) =
      (firstMisfit? kinds os).map fun m ↦ (m.1, m.2.1, m.2.2.idled) := by
  induction kinds generalizing os with
  | nil => cases os <;> rfl
  | cons k kinds ih =>
    cases os with
    | nil => rfl
    | cons o os =>
      simp only [List.map_cons, firstMisfit?, Operand.isKind_idled, ih]
      split
      · simp [Function.comp_def]
      · rfl

namespace IdlesTo

variable {i j : Instruction} (h : i.IdlesTo j)

include h

theorem opcode : j.opcode? = i.opcode? := by rw [opcode?, h.operation, opcode?]

theorem name : j.name = i.name := by rw [Instruction.name, h.operation, Instruction.name]

theorem arityFault (expected : Nat) : j.arityFault expected = i.arityFault expected := by
  simp [Instruction.arityFault, h.name, h.operands]

theorem absentFault (expected : Operand.Kind) (index : Nat) :
    j.absentFault expected index = i.absentFault expected index := by
  simp [Instruction.absentFault, h.name, h.operands]

theorem misfitFault (expected : Operand.Kind) (index : Nat) (o : Operand) :
    j.misfitFault expected index o.idled = i.misfitFault expected index o := by
  simp [Instruction.misfitFault, h.name, h.operands]

theorem unhandledFault (family : String) : j.unhandledFault family = i.unhandledFault family := by
  rw [Instruction.unhandledFault, h.name, Instruction.unhandledFault]

theorem notListedFault (family : String) : j.notListedFault family = i.notListedFault family := by
  rw [Instruction.notListedFault, h.unhandledFault, h.operation, Instruction.notListedFault]

theorem shapeFault (kinds : List Operand.Kind) : j.shapeFault kinds = i.shapeFault kinds := by
  simp only [Instruction.shapeFault, h.operands, List.length_map, firstMisfit?_idled, h.arityFault]
  cases firstMisfit? kinds i.operands with
  | none => rfl
  | some m => simp [h.misfitFault]

end IdlesTo

end Instruction

/-! ### Layouts -/

/-- A wide move that prints the value that the register receives, although its shift does
nothing. -/
def Instruction.ShiftsIdly (i : Instruction) : Prop :=
  ∃ op rd imm s, i.opcode? = some (.moveWideImmediate op) ∧ op ≠ .movk ∧
    i.operands = [.register rd, .immediate imm, .shift s] ∧ s.kind = .none

namespace Layout

variable {i j : Instruction}

/-- The part for a field of an encoding is no modifier. -/
theorem map_idled_barrier (n : Number) : (Barrier.part n).map Part.idled = Barrier.part n := by
  unfold Barrier.part
  (repeat' split) <;> rfl

theorem map_idled_prefetch (n : Number) : (Prefetch.part n).map Part.idled = Prefetch.part n := by
  unfold Prefetch.part
  dsimp only
  (repeat' split) <;> rfl

/-- What stands behind the part for a field is idled alone. -/
theorem map_field_idled {field : Except LayoutFault Part} (h : field.map Part.idled = field)
    (m : String) (ps : List Part) :
    (field.map fun p ↦ (⟨m, p :: ps.map Part.idled⟩ : Layout)) =
      (field.map fun p ↦ (⟨m, p :: ps⟩ : Layout)).map idled := by
  cases field with
  | error fault => rfl
  | ok p =>
    have hp : p.idled = p := Except.ok.inj h
    simp [Except.map, idled, hp]

/-- Operands that are shown as they are idle as parts. -/
theorem map_operand_idled (os : List Operand) :
    (os.map Operand.idled).map Part.operand = (os.map Part.operand).map Part.idled := by
  simp [Part.idled]

theorem conditionalCompare_idled (h : i.IdlesTo j) :
    conditionalCompare j = (conditionalCompare i).map idled := by
  simp only [conditionalCompare, h.operands, h.opcode, h.condition, h.unhandledFault, h.arityFault]
  rcases i.operands with _ | ⟨first, _ | ⟨_, _ | ⟨_, _ | _⟩⟩⟩
  case nil => rfl
  case cons.cons.cons.nil =>
    cases first
    case register rn =>
      dsimp only [List.map, Operand.idled]
      split <;> rfl
    all_goals exact congrArg Except.error (h.misfitFault _ _ _)
  all_goals cases first <;> rfl

theorem loadStoreExclusive_idled (h : i.IdlesTo j) :
    loadStoreExclusive j = (loadStoreExclusive i).map idled := by
  simp only [loadStoreExclusive, h.operands, h.opcode, h.absentFault, h.notListedFault,
    List.getElem?_map, map_operand_idled]
  split
  · rename_i op hop
    cases i.operands[op.transferIndex]? with
    | none => rfl
    | some o =>
      cases o
      case register rt => rfl
      all_goals exact congrArg Except.error (h.misfitFault _ _ _)
  · rfl

theorem loadLiteral_idled (h : i.IdlesTo j) : loadLiteral j = (loadLiteral i).map idled := by
  simp only [loadLiteral, h.operands, h.opcode, h.arityFault, h.notListedFault]
  rcases i.operands with _ | ⟨first, _ | ⟨address, _ | _⟩⟩
  case nil | cons.nil => rfl
  case cons.cons.cons => cases address <;> rfl
  case cons.cons.nil =>
    cases address
    case immediateOffset a =>
      dsimp only [List.map, Operand.idled_immediateOffset]
      split
      · cases first
        case immediate operation =>
          exact map_field_idled (map_idled_prefetch _) _ [.signed a.offset]
        all_goals exact congrArg Except.error (h.misfitFault _ _ _)
      · cases first
        case register rt => rfl
        all_goals exact congrArg Except.error (h.misfitFault _ _ _)
      · cases first
        case register rt => rfl
        all_goals exact congrArg Except.error (h.misfitFault _ _ _)
      · rfl
    all_goals exact congrArg Except.error (h.misfitFault _ _ _)

theorem addressSize?_idled (o : Operand) : addressSize? o.idled = addressSize? o := by
  cases o <;> rfl

theorem loadStore_idled (h : i.IdlesTo j) : loadStore j = (loadStore i).map idled := by
  simp only [loadStore, h.operands, h.opcode, h.arityFault, h.notListedFault, h.name]
  rcases i.operands with _ | ⟨first, _ | ⟨address, _ | _⟩⟩
  case cons.cons.nil =>
    dsimp only [List.map]
    rw [addressSize?_idled, Operand.kind_idled]
    split
    · split
      · cases first
        case immediate operation =>
          exact map_field_idled (map_idled_prefetch _) _ [.operand address]
        all_goals exact congrArg Except.error (h.misfitFault _ _ _)
      · rfl
      · rfl
    · rfl
  all_goals rfl

theorem system_idled (h : i.IdlesTo j) : system j = (system i).map idled := by
  simp only [system, h.operands, h.opcode, h.arityFault, h.shapeFault, h.notListedFault,
    map_operand_idled]
  generalize i.operands = os
  split
  · split
    case h_1 => rfl
    case h_2 => rcases os with _ | ⟨_, _ | _⟩ <;> rfl
    case h_7 => rfl
    -- The other forms ask for registers and immediates, which are not changed by idling.
    all_goals
      split
      · rename_i heq
        obtain rfl := Operand.eq_of_map_idled heq (by simp)
        dsimp only
        first
        | exact map_field_idled (map_idled_barrier _) _ []
        | (repeat' split) <;> rfl
      · rename_i hshape
        split
        · exfalso
          apply hshape
          rfl
        · rfl
  · rfl

theorem firstRegister_idled (h : i.IdlesTo j) : firstRegister j = firstRegister i := by
  simp only [firstRegister, h.operands, h.absentFault]
  cases i.operands with
  | nil => rfl
  | cons first =>
    cases first
    case register rn => rfl
    all_goals exact congrArg Except.error (h.misfitFault _ _ _)

theorem branchRegister_idled (h : i.IdlesTo j) :
    branchRegister j = (branchRegister i).map idled := by
  simp only [branchRegister, firstRegister_idled h, h.operands, h.opcode, h.arityFault,
    h.unhandledFault, h.operation]
  split
  · split
    · rfl
    all_goals
      cases firstRegister i with
      | error fault => rfl
      | ok rn =>
        rcases i.operands with _ | ⟨_, _ | ⟨_, _ | _⟩⟩ <;>
          first | rfl | (dsimp only [List.map]; split <;> rfl)
  · (repeat' split) <;> rfl

theorem dataProcessingTwoSource_idled (h : i.IdlesTo j) :
    dataProcessingTwoSource j = (dataProcessingTwoSource i).map idled := by
  simp only [dataProcessingTwoSource, h.operands, h.opcode, h.arityFault, h.notListedFault,
    List.length_map, map_operand_idled]
  (repeat' split) <;> rfl

theorem loadStorePair_idled (h : i.IdlesTo j) :
    loadStorePair j = (loadStorePair i).map idled := by
  simp only [loadStorePair, h.operands, h.opcode, h.arityFault, h.notListedFault,
    List.length_map, map_operand_idled]
  (repeat' split) <;> rfl

theorem moveWideImmediate_idled (h : i.IdlesTo j) (hidle : ¬ i.ShiftsIdly) :
    moveWideImmediate j = (moveWideImmediate i).map idled := by
  simp only [moveWideImmediate, h.operands, h.opcode, h.shapeFault, h.unhandledFault]
  split
  · rename_i rd imm t heq
    simp only [List.map_eq_cons_iff, List.map_eq_nil_iff, Operand.idled_eq_register,
      Operand.idled_eq_immediate, Operand.idled_eq_shift, ↓existsAndEq, and_true, true_and] at heq
    obtain ⟨s, hos, rfl⟩ := heq
    have hbusy : ∀ op, i.opcode? = some (.moveWideImmediate op) → op ≠ .movk → s.idled = s :=
      fun op hop hmovk ↦ Shift.idled_of_ne_none fun hkind ↦
        hidle ⟨op, rd, imm, s, hop, hmovk, hos, hkind⟩
    rw [hos]
    dsimp only
    split
    · rfl
    · split
      · split <;> rfl
      · rename_i hop
        rw [hbusy _ hop (by decide)]
        cases shiftedImmediate _ imm s <;> rfl
      · rename_i hop
        rw [hbusy _ hop (by decide)]
        cases shiftedImmediate _ imm s <;> rfl
      · rfl
  · rename_i hshape
    split
    · rename_i hos
      exfalso
      apply hshape
      rw [hos]
      rfl
    · rfl

end Layout

/-- Idling an instruction idles what a family lays out, and changes no fault. -/
theorem Family.layout_idled {i j : Instruction} (h : i.IdlesTo j) (hidle : ¬ i.ShiftsIdly)
    (f : Family) : f.layout j = (f.layout i).map Layout.idled := by
  cases f
  case moveWideImmediate => exact Layout.moveWideImmediate_idled h hidle
  case system => exact Layout.system_idled h
  case branchRegister => exact Layout.branchRegister_idled h
  case loadStoreExclusive => exact Layout.loadStoreExclusive_idled h
  case loadLiteral => exact Layout.loadLiteral_idled h
  case loadStorePair => exact Layout.loadStorePair_idled h
  case loadStore => exact Layout.loadStore_idled h
  case dataProcessingTwoSource => exact Layout.dataProcessingTwoSource_idled h
  case conditionalCompare => exact Layout.conditionalCompare_idled h
  -- Every other layout asks for one shape of operands, in which at most the last is a modifier.
  all_goals
    simp only [layout, Layout.pcRelativeAddressing, Layout.addSubtractImmediate,
      Layout.logicalImmediate, Layout.bitfield, Layout.extract, Layout.conditionalBranch,
      Layout.exceptionGeneration, Layout.branchImmediate, Layout.compareAndBranch,
      Layout.testAndBranch, Layout.dataProcessingOneSource, Layout.logicalShiftedRegister,
      Layout.addSubtractShiftedRegister, Layout.addSubtractExtendedRegister,
      Layout.addSubtractWithCarry, Layout.conditionalSelect, Layout.dataProcessingThreeSource,
      h.operands, h.opcode, h.setsFlags, h.condition, h.shapeFault, h.unhandledFault,
      h.notListedFault]
    generalize i.operands = os
    split
    · rename_i heq
      simp only [List.map_eq_cons_iff, List.map_eq_nil_iff, Operand.idled_eq_register,
        Operand.idled_eq_immediate, Operand.idled_eq_shift, Operand.idled_eq_extend, ↓existsAndEq,
        and_true, true_and] at heq
      first
      | subst heq
        dsimp only
      | obtain ⟨modifier, rfl, rfl⟩ := heq
        simp only [Shift.isTrivial_idled]
      (repeat' split) <;> rfl
    · rename_i hshape
      split
      · exfalso
        apply hshape
        rfl
      · rfl

/-! ### Tokens -/

namespace Instruction

variable {i j : Instruction}

/-- An instruction that does not shift idly prints as it does when idled. -/
theorem tokens_idled (h : ¬ i.ShiftsIdly) : i.idled.tokens = i.tokens := by
  have htokens : ∀ f : Family, f.tokens i.idled = f.tokens i := by
    intro f
    rw [Family.tokens, Family.tokens, f.layout_idled i.idlesTo_idled h]
    cases f.layout i with
    | error fault => rfl
    | ok l => exact l.print_idled
  simp only [tokens, htokens]
  rfl

/-- Whether an instruction shifts idly does not depend on amounts that should mean nothing. -/
theorem ShiftsIdly.of_idled (h : i.idled.ShiftsIdly) : i.ShiftsIdly := by
  obtain ⟨op, rd, imm, t, hop, hmovk, hos, hkind⟩ := h
  simp only [idled, List.map_eq_cons_iff, List.map_eq_nil_iff, Operand.idled_eq_register,
    Operand.idled_eq_immediate, Operand.idled_eq_shift, ↓existsAndEq, and_true, true_and] at hos
  obtain ⟨s, hos, rfl⟩ := hos
  exact ⟨op, rd, imm, s, hop, hmovk, hos, (s.kind_idled).symm.trans hkind⟩

theorem ShiftsIdly.idled (h : i.ShiftsIdly) : i.idled.ShiftsIdly := by
  obtain ⟨op, rd, imm, s, hop, hmovk, hos, hkind⟩ := h
  refine ⟨op, rd, imm, s.idled, hop, hmovk, ?_, (s.kind_idled).trans hkind⟩
  rw [Instruction.idled, hos]
  rfl

/-- The same instruction with other operands. -/
def withOperands (i : Instruction) (os : List Operand) : Instruction := { i with operands := os }

/-- A wide move that prints a value takes the amount of its shift, and does not look at the
kind. -/
theorem tokens_withOperands_of_wide {k : Int} {op : MoveWideOp} {rd : Register} {imm : Immediate}
    {s t : Shift} (hk : i.operation.integer? = some k)
    (hop : i.opcode? = some (.moveWideImmediate op)) (hmovk : op ≠ .movk)
    (hos : i.operands = [.register rd, .immediate imm, .shift s]) (hcount : t.count = s.count) :
    (i.withOperands [.register rd, .immediate imm, .shift t]).tokens = i.tokens := by
  let j := i.withOperands [.register rd, .immediate imm, .shift t]
  have hopj : j.opcode? = some (.moveWideImmediate op) := hop
  have hosj : j.operands = [.register rd, .immediate imm, .shift t] := rfl
  have hfamily : Family.ofNumber? k = some .moveWideImmediate := by
    rw [Operation.ofNumber?_eq_family hk, show i.operation.opcode? = _ from hop]
    rfl
  have hlayout : Layout.moveWideImmediate j = Layout.moveWideImmediate i := by
    simp only [Layout.moveWideImmediate, hop, hopj, hos, hosj, Layout.shiftedImmediate, hcount]
    cases op with
    | movk => exact absurd rfl hmovk
    | movz | movn => rfl
  rw [tokens_of_integer? hk, tokens_of_integer? (i := j) hk, hfamily]
  simp only [Family.tokens, Family.layout, hlayout]

/-- **A modifier that does nothing is not looked at, but for one family.** Instructions that are the
same except for the amounts of modifiers that do nothing print the same tokens or fail with the same
fault, unless they are wide moves that print the value that the register receives. Those shift the
value to the left by the amount. -/
theorem tokens_of_idled_eq (h : i.idled = j.idled) :
    (¬ i.ShiftsIdly → i.tokens = j.tokens) ∧
      ∀ k op rd imm count, i.operation.integer? = some k →
        i.opcode? = some (.moveWideImmediate op) → op ≠ .movk →
        i.operands = [.register rd, .immediate imm, .shift ⟨.none, count⟩] →
        (i.withOperands [.register rd, .immediate imm, .shift ⟨.lsl, count⟩]).tokens =
          i.tokens := by
  refine ⟨fun hi ↦ ?_, fun k op rd imm count hk hop hmovk hos ↦
    tokens_withOperands_of_wide hk hop hmovk hos rfl⟩
  have hj : ¬ j.ShiftsIdly := fun hj ↦ hi (h ▸ hj.idled : i.idled.ShiftsIdly).of_idled
  rw [← tokens_idled hi, h, tokens_idled hj]

end Instruction

/-- A conditional comparison whose unchecked operands carry modifiers that do nothing. -/
def idleComparison (count count' : Json) : Instruction where
  operation := .named (.conditionalCompare .ccmp)
  operands := [.register ⟨1, .int 64⟩,
    .immediateOffset ⟨⟨2, .int 64⟩, .halfword 8, ⟨.none, count⟩, .bool false, .bool false,
      .int 64⟩,
    .extend ⟨.none, count'⟩]

/-- The amounts may be negative, or no numbers at all. -/
theorem Instruction.tokens_of_idled_eq_comparison :
    ¬ (idleComparison (.int (-5)) .null).ShiftsIdly ∧
      (idleComparison (.int (-5)) .null).text = .ok "ccmp x1, [x2, #0x8], al" ∧
      (idleComparison (.int (-5)) .null).tokens = (idleComparison (.int 0) (.int 77)).tokens := by
  have hidle : ¬ (idleComparison (.int (-5)) .null).ShiftsIdly := by
    rintro ⟨op, rd, imm, s, hop, -⟩
    cases hop
  exact ⟨hidle, by decide +kernel, (tokens_of_idled_eq (by decide +kernel)).1 hidle⟩

/-- A wide move of one, behind a shift that does nothing. -/
def idleMove (count : Json) : Instruction where
  operation := .named (.moveWideImmediate .movz)
  operands := [.register ⟨0, .int 64⟩, .immediate (.halfword 1), .shift ⟨.none, count⟩]

/-- The amount of the shift that does nothing is printed into the value. -/
theorem Instruction.tokens_of_idled_eq_move :
    (idleMove (.int 3)).idled = (idleMove (.int 0)).idled ∧
      (idleMove (.int 3)).text = .ok "mov x0, #0x8" ∧
      (idleMove (.int 0)).text = .ok "mov x0, #0x1" ∧
      (idleMove (.int (-1))).tokens = .error .negativeShift := by
  refine ⟨by decide +kernel, by decide +kernel, by decide +kernel, by decide +kernel⟩

end A64Text
