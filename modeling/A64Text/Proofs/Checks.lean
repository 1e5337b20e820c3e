import Mathlib.Data.List.Basic
import A64Text.Proofs.Acceptance

/-!
# Checks in order

A layout takes all operands in one look, and says what is wrong with them in one fault. The same
fault is found by checks that are made one after the other: of the number of operands
(`Instruction.requireArity`), of the kind of the operand at an index (`Instruction.operandAt`), and
of the address of a load or store. Every opcode has a list of them (`Opcode.checks`), and operands
match its signature exactly if all of them pass (`Opcode.breach?_eq_none_iff`). Taking operands of
given kinds (`Instruction.unpack`) is a check of their number and a check of every kind from the
left (`Instruction.unpack_eq`).

So it can be said exactly how an instruction fails: with the first fault that its checks find, or,
if they find none, as a wide move does (`Instruction.tokens_eq_error_iff_breach?`).
-/

namespace A64Text

open Operand.Kind

/-! ### Checks -/

/-- A look at the operands of an instruction. -/
inductive Check where
  /-- There are so many operands. -/
  | arity (count : Nat)
  /-- The operand at an index is of a kind. -/
  | kind (index : Nat) (k : Operand.Kind)
  /-- The second operand, if there is one, is an address. -/
  | address
  deriving DecidableEq, Repr

/-- What a result that is none says. -/
def faultOf? {α : Type} : Except LayoutFault α → Option LayoutFault
  | .ok _ => none
  | .error fault => some fault

namespace Instruction

variable {i : Instruction}

/-- What a check finds wrong. -/
def breachOf? (i : Instruction) : Check → Option LayoutFault
  | .arity count => faultOf? (i.requireArity (.int count))
  | .kind index k => faultOf? (i.operandAt (.int index) k)
  | .address =>
    match i.operands[1]? with
    | some o => if (Layout.addressSize? o).isSome then none else some (.noAddress i.name o.kind)
    | none => none

/-- What checks find wrong first. -/
def breach? (i : Instruction) (cs : List Check) : Option LayoutFault := cs.findSome? i.breachOf?

@[simp] theorem breach?_nil : i.breach? [] = none := rfl

@[simp] theorem breach?_cons (c : Check) (cs : List Check) :
    i.breach? (c :: cs) = (i.breachOf? c).or (i.breach? cs) := by
  rw [breach?, List.findSome?_cons]
  cases i.breachOf? c <;> rfl

theorem breachOf?_arity (count : Nat) :
    i.breachOf? (.arity count) =
      if i.operands.length = count then none else some (i.arityFault count) := by
  rw [breachOf?, requireArity, Json.whole?_int]
  by_cases h : i.operands.length = count
  · rw [if_pos h, if_pos (by rw [h])]
    rfl
  · have hcount : ¬ some (count : Int) = some (i.operands.length : Int) := by
      rw [Option.some.injEq]
      omega
    rw [if_neg h, if_neg hcount]
    rfl

theorem breachOf?_kind (index : Nat) (k : Operand.Kind) :
    i.breachOf? (.kind index k) =
      match i.operands[index]? with
      | some o => if o.isKind k then none else some (i.misfitFault k index o)
      | none => some (i.absentFault k index) := by
  rw [breachOf?, operandAt]
  cases ho : i.operands[index]? with
  | none =>
    have hlen := List.getElem?_eq_none_iff.1 ho
    rw [if_pos (by simpa using hlen)]
    rfl
  | some o =>
    obtain ⟨hlt, -⟩ := List.getElem?_eq_some_iff.1 ho
    have hentry : entryAt? i.operands (index : Int) = some o := by
      rw [entryAt?, if_pos (by omega), Int.toNat_natCast, ho]
    rw [if_neg (by simpa using hlt)]
    simp only [Number.integer?_int, hentry]
    split <;> rfl

theorem breachOf?_address :
    i.breachOf? .address =
      match i.operands[1]? with
      | some o => if (Layout.addressSize? o).isSome then none else some (.noAddress i.name o.kind)
      | none => none := rfl

/-! What a check in front of others finds, and when it leaves the fault to them. -/

theorem breach?_arity_of_eq {count : Nat} {cs : List Check} (h : i.operands.length = count) :
    i.breach? (.arity count :: cs) = i.breach? cs := by
  rw [breach?_cons, breachOf?_arity, if_pos h, Option.none_or]

theorem breach?_arity_of_ne {count : Nat} {cs : List Check} (h : i.operands.length ≠ count) :
    i.breach? (.arity count :: cs) = some (i.arityFault count) := by
  rw [breach?_cons, breachOf?_arity, if_neg h, Option.some_or]

theorem breach?_kind {index : Nat} {k : Operand.Kind} {o : Operand} {cs : List Check}
    (ho : i.operands[index]? = some o) :
    i.breach? (.kind index k :: cs) =
      if o.isKind k then i.breach? cs else some (i.misfitFault k index o) := by
  rw [breach?_cons, breachOf?_kind, ho]
  dsimp only
  split <;> rfl

theorem breach?_address {o : Operand} {cs : List Check} (ho : i.operands[1]? = some o) :
    i.breach? (.address :: cs) =
      if (Layout.addressSize? o).isSome then i.breach? cs
      else some (.noAddress i.name o.kind) := by
  rw [breach?_cons, breachOf?_address, ho]
  dsimp only
  split <;> rfl

/-- Whether checks pass does not depend on their order. -/
theorem breach?_eq_none_iff_of_perm {cs ds : List Check} (h : cs.Perm ds) :
    i.breach? cs = none ↔ i.breach? ds = none := by
  rw [breach?, breach?, List.findSome?_eq_none_iff, List.findSome?_eq_none_iff]
  exact forall_congr' fun c ↦ imp_congr_left h.mem_iff

/-! ### Taking all operands -/

/-- Checks of the kinds of operands, the first of them at an index. -/
def kindChecks (index : Nat) : List Operand.Kind → List Check
  | [] => []
  | k :: ks => .kind index k :: kindChecks (index + 1) ks

/-- The checks of operands that have to be of given kinds, one by one. -/
def shapeChecks (kinds : List Operand.Kind) : List Check :=
  .arity kinds.length :: kindChecks 0 kinds

/-- Operands fit if there are as many as kinds and none of them is a misfit. -/
theorem fits_iff {kinds : List Operand.Kind} {os : List Operand} :
    fits kinds os = true ↔ os.length = kinds.length ∧ firstMisfit? kinds os = none := by
  induction kinds generalizing os with
  | nil => cases os <;> simp [fits, firstMisfit?]
  | cons k kinds ih =>
    cases os with
    | nil => simp [fits]
    | cons o os =>
      rw [fits, firstMisfit?, Bool.and_eq_true, ih]
      cases o.isKind k <;> simp

/-- The first kind that is not met is that of the first misfit. -/
theorem breach?_kindChecks {before os : List Operand} {kinds : List Operand.Kind}
    (hos : i.operands = before ++ os) (hlen : os.length = kinds.length) :
    i.breach? (kindChecks before.length kinds) =
      (firstMisfit? kinds os).map fun m ↦ i.misfitFault m.2.1 (before.length + m.1) m.2.2 := by
  induction kinds generalizing before os with
  | nil => cases os <;> rfl
  | cons k kinds ih =>
    cases os with
    | nil => cases hlen
    | cons o os =>
      have ho : i.operands[before.length]? = some o := by simp [hos]
      have hrest := @ih (before ++ [o]) os (by simp [hos]) (Nat.succ.inj hlen)
      rw [List.length_append, List.length_singleton] at hrest
      rw [kindChecks, breach?_kind ho, firstMisfit?, hrest]
      by_cases hk : o.isKind k = true
      · rw [if_pos hk, if_pos hk, Option.map_map]
        congr 1
        funext m
        simp [Nat.add_assoc, Nat.add_comm 1]
      · rw [if_neg hk, if_neg hk]
        rfl

/-- The checks of operands one by one find what is wrong with their shape. -/
theorem breach?_shapeChecks (kinds : List Operand.Kind) :
    i.breach? (shapeChecks kinds) =
      if fits kinds i.operands then none else some (i.shapeFault kinds) := by
  rw [shapeChecks, shapeFault]
  by_cases hlen : i.operands.length = kinds.length
  · have hkinds := breach?_kindChecks (List.nil_append i.operands).symm hlen
    rw [List.length_nil] at hkinds
    rw [breach?_arity_of_eq hlen, if_pos hlen, hkinds]
    cases hmisfit : firstMisfit? kinds i.operands with
    | none => rw [if_pos (fits_iff.2 ⟨hlen, hmisfit⟩)]; rfl
    | some m =>
      rw [if_neg fun hfits ↦ by simp [(fits_iff.1 hfits).2] at hmisfit]
      simp
  · rw [breach?_arity_of_ne hlen, if_neg hlen, if_neg fun hfits ↦ hlen (fits_iff.1 hfits).1]

/-- Taking operands of given kinds is a check of their number and of every kind from the left. -/
theorem unpack_eq (kinds : List Operand.Kind) :
    i.unpack kinds =
      match i.breach? (shapeChecks kinds) with
      | none => .ok i.operands
      | some fault => .error fault := by
  rw [unpack, breach?_shapeChecks]
  cases fits kinds i.operands <;> rfl

end Instruction

/-! ### The checks of opcodes -/

open Instruction (shapeChecks)

/-- The checks of a system instruction, by its form. -/
def SystemForm.checks : SystemForm → List Check
  | hint | move => []
  | numberedHint => [.arity 1]
  | barrier | instructionBarrier => shapeChecks [immediate]
  | write => shapeChecks [immediate, immediate, immediate, immediate, register]
  | read => shapeChecks [register, immediate, immediate, immediate, immediate]

/-- The checks of a branch to a register, by its form: the register comes before the number. -/
def BranchRegisterForm.checks : BranchRegisterForm → List Check
  | target | .return => [.kind 0 register, .arity 1]
  | authenticated => [.kind 0 register, .arity 2]
  | exceptionReturn => []

/-- The kind of what a load from a literal has in front: a prefetch names an operation there. -/
def LoadLiteralOp.firstKind : LoadLiteralOp → Operand.Kind
  | prfm => immediate
  | ldr | ldrs => register

/-- The checks of what an access to one register has in front. Only a prefetch makes one. -/
def LoadStoreOp.firstChecks : LoadStoreOp → List Check
  | prfm => [.kind 0 immediate]
  | _ => []

/-- The checks of an opcode, in the order in which they are made. -/
def Opcode.checks : Opcode → List Check
  | .pcRelativeAddressing _ | .moveWideImmediate _ => shapeChecks [register, immediate, shift]
  | .addSubtractImmediate _ => shapeChecks [register, register, immediate, shift]
  | .logicalImmediate _ => shapeChecks [register, register, immediate]
  | .bitfield _ => shapeChecks [register, register, immediate, immediate]
  | .extract => shapeChecks [register, register, register, immediate]
  | .conditionalBranch | .branchImmediate _ | .exceptionGeneration _ => shapeChecks [immediate]
  | .system op => op.form.checks
  | .branchRegister op => op.form.checks
  | .compareAndBranch _ => shapeChecks [register, immediate]
  | .testAndBranch _ => shapeChecks [register, immediate, immediate]
  | .loadStoreExclusive op => [.kind op.transferIndex register]
  | .loadLiteral op => [.arity 2, .kind 1 immediateOffset, .kind 0 op.firstKind]
  | .loadStorePair _ | .dataProcessingTwoSource _ => [.arity 3]
  | .loadStore op => .arity 2 :: .address :: op.firstChecks
  | .dataProcessingOneSource _ => shapeChecks [register, register]
  | .logicalShiftedRegister _ | .addSubtractShiftedRegister _ =>
    shapeChecks [register, register, register, shift]
  | .addSubtractExtendedRegister _ => shapeChecks [register, register, register, extend]
  | .addSubtractWithCarry _ | .conditionalSelect _ => shapeChecks [register, register, register]
  | .conditionalCompare _ => [.arity 3, .kind 0 register]
  | .dataProcessingThreeSource _ => shapeChecks [register, register, register, register]

/-- The kind that a place asks for, if it is one. -/
def Place.kind? : Place → Option Operand.Kind
  | register => some .register
  | immediate => some .immediate
  | shift => some .shift
  | extend => some .extend
  | immediateOffset => some .immediateOffset
  | address => none
  | any => some .operand

theorem Place.accepts_eq_isKind {p : Place} {k : Operand.Kind} (h : p.kind? = some k)
    (o : Operand) : p.accepts o.kind = o.isKind k := by
  cases p <;> cases h <;> cases o <;> rfl

namespace Instruction

variable {i : Instruction} {op : Opcode}

/-- Operands fit kinds exactly if they match the places that ask for them. -/
theorem fits_eq_accepts {ps : List Place} {kinds : List Operand.Kind}
    (h : ps.map Place.kind? = kinds.map some) (os : List Operand) :
    fits kinds os = (Signature.exactly ps).accepts (os.map Operand.kind) := by
  induction ps generalizing kinds os with
  | nil =>
    obtain rfl := List.map_eq_nil_iff.1 h.symm
    cases os <;> rfl
  | cons p ps ih =>
    obtain ⟨k, kinds, rfl, hk, hkinds⟩ := List.map_eq_cons_iff.1 h.symm
    cases os with
    | nil => rfl
    | cons o os =>
      rw [fits, ih hkinds.symm, ← Place.accepts_eq_isKind hk.symm]
      rfl

/-- The checks of operands one by one pass exactly if the operands match the places. -/
theorem breach?_shapeChecks_eq_none_iff {ps : List Place} {kinds : List Operand.Kind}
    (h : ps.map Place.kind? = kinds.map some) :
    i.breach? (shapeChecks kinds) = none ↔ (Signature.exactly ps).accepts i.kinds = true := by
  rw [breach?_shapeChecks, fits_eq_accepts h, Instruction.kinds]
  cases (Signature.exactly ps).accepts (i.operands.map Operand.kind) <;> simp

theorem breach?_arity_eq_none_iff {count : Nat} :
    i.breach? [.arity count] = none ↔
      (Signature.exactly (.replicate count .any)).accepts i.kinds = true := by
  rw [Instruction.kinds, Signature.accepts_replicate_any]
  by_cases h : i.operands.length = count
  · simp [breach?_arity_of_eq h, h]
  · simp [breach?_arity_of_ne h, h]

/-- A register in front, and a number of operands. -/
theorem breach?_register_eq_none_iff {count : Nat} :
    i.breach? [.kind 0 register, .arity (count + 1)] = none ↔
      (Signature.exactly (.register :: .replicate count .any)).accepts i.kinds = true := by
  cases hos : i.operands with
  | nil => simp [breachOf?_kind, Instruction.kinds, hos, Signature.accepts, Signature.fits]
  | cons o rest =>
    have ho : i.operands[0]? = some o := by rw [hos]; rfl
    have haccepts : (Signature.exactly (.register :: .replicate count .any)).accepts i.kinds =
        (o.isKind register && (Signature.exactly (.replicate count .any)).accepts
          (rest.map Operand.kind)) := by
      rw [Instruction.kinds, hos, ← Place.accepts_eq_isKind (p := .register) rfl]
      rfl
    rw [haccepts, Bool.and_eq_true, Signature.accepts_replicate_any, breach?_kind ho]
    cases o.isKind register <;> simp [breachOf?_arity, hos]

/-- A register at an index, and any operands before and behind it. -/
theorem breach?_register_at_eq_none_iff {index : Nat} :
    i.breach? [.kind index register] = none ↔
      ∃ r, i.operands[index]? = some (.register r) := by
  cases ho : i.operands[index]? with
  | none => simp [breachOf?_kind, ho]
  | some o =>
    rw [breach?_kind ho]
    cases o <;> simp [Operand.isKind, Operand.Kind.accepts, Operand.kind]

/-- An operand that further checks look at, and an address behind it. -/
theorem breach?_address_eq_none_iff {p : Place} {cs : List Check}
    (h : ∀ {first second : Operand}, i.operands = [first, second] →
      (i.breach? cs = none ↔ p.accepts first.kind = true)) :
    i.breach? (.arity 2 :: .address :: cs) = none ↔
      (Signature.exactly [p, .address]).accepts i.kinds = true := by
  by_cases hlen : i.operands.length = 2
  · obtain ⟨first, second, hos⟩ := List.length_eq_two.1 hlen
    have hsecond : i.operands[1]? = some second := by rw [hos]; rfl
    have haccepts : (Signature.exactly [p, .address]).accepts i.kinds =
        (p.accepts first.kind && (Layout.addressSize? second).isSome) := by
      rw [Instruction.kinds, hos]
      cases second <;> rfl
    rw [haccepts, Bool.and_eq_true, ← h hos, breach?_arity_of_eq hlen, breach?_address hsecond]
    cases (Layout.addressSize? second).isSome <;> simp
  · rw [breach?_arity_of_ne hlen]
    exact iff_of_false (by simp) fun haccepts ↦ hlen (Signature.length_eq_of_accepts haccepts)

/-- All checks of an opcode pass exactly if the operands match its signature. -/
theorem breach?_eq_none_iff (op : Opcode) :
    i.breach? op.checks = none ↔ op.signature.accepts i.kinds = true := by
  cases op with
  | system op =>
    rw [Opcode.checks, Opcode.signature, op.signature_eq]
    cases op.form with
    | hint | move => exact iff_of_true rfl rfl
    | numberedHint => exact breach?_arity_eq_none_iff
    | barrier | instructionBarrier | write | read => exact breach?_shapeChecks_eq_none_iff rfl
  | branchRegister op =>
    rw [Opcode.checks, Opcode.signature, op.signature_eq]
    cases op.form with
    | exceptionReturn => exact iff_of_true rfl rfl
    | target | «return» | authenticated => exact breach?_register_eq_none_iff
  | loadStoreExclusive op => exact breach?_register_at_eq_none_iff.trans op.accepts_iff.symm
  | loadLiteral op =>
    -- The second kind is checked before the first.
    have hperm : ∀ k, [Check.arity 2, .kind 1 immediateOffset, .kind 0 k].Perm
        (shapeChecks [k, immediateOffset]) := fun k ↦ (List.Perm.swap ..).cons _
    cases op <;>
      exact (breach?_eq_none_iff_of_perm (hperm _)).trans (breach?_shapeChecks_eq_none_iff rfl)
  | loadStorePair op | dataProcessingTwoSource op => exact breach?_arity_eq_none_iff
  | loadStore op =>
    cases op with
    | prfm =>
      refine breach?_address_eq_none_iff fun {first _} hos ↦ ?_
      have hfirst : i.operands[0]? = some first := by rw [hos]; rfl
      rw [LoadStoreOp.firstChecks, breach?_kind hfirst, Place.accepts_eq_isKind rfl]
      cases first.isKind immediate <;> simp
    | _ => exact breach?_address_eq_none_iff fun _ ↦ iff_of_true rfl rfl
  | conditionalCompare op =>
    exact (breach?_eq_none_iff_of_perm (.swap ..)).trans breach?_register_eq_none_iff
  | _ => exact breach?_shapeChecks_eq_none_iff rfl

/-! ### Layouts report the first fault -/

variable {fault : LayoutFault}

/-- Operands in which a check of their shape finds a fault do not fit, and this is the fault of
their shape. -/
theorem shape_of_breach? {kinds : List Operand.Kind}
    (h : i.breach? (shapeChecks kinds) = some fault) :
    fits kinds i.operands = false ∧ i.shapeFault kinds = fault := by
  rw [breach?_shapeChecks] at h
  cases hfits : fits kinds i.operands with
  | false =>
    rw [hfits] at h
    exact ⟨rfl, Option.some.inj h⟩
  | true =>
    rw [hfits] at h
    cases h

theorem arity_of_breach? {count : Nat} (h : i.breach? [.arity count] = some fault) :
    i.operands.length ≠ count ∧ i.arityFault count = fault := by
  by_cases hlen : i.operands.length = count
  · rw [breach?_arity_of_eq hlen] at h
    cases h
  · rw [breach?_arity_of_ne hlen] at h
    exact ⟨hlen, Option.some.inj h⟩

theorem system_of_breach? {op : SystemOp} (hop : i.opcode? = some (.system op))
    (h : i.breach? op.form.checks = some fault) : Layout.system i = .error fault := by
  rw [Layout.system, hop]
  dsimp only
  cases hform : op.form with
  | hint | move =>
    rw [hform] at h
    cases h
  | numberedHint =>
    rw [hform] at h
    obtain ⟨hlen, rfl⟩ := arity_of_breach? h
    dsimp only
    split
    · rename_i hos
      exact absurd (by rw [hos]; rfl) hlen
    · rfl
  | barrier | instructionBarrier | write | read =>
    rw [hform] at h
    obtain ⟨hfits, rfl⟩ := shape_of_breach? h
    dsimp only
    split
    · rename_i hos
      rw [hos] at hfits
      cases hfits
    · rfl

/-- The fault is that of the first operand, or the first operand is a register and the fault is
found behind it. -/
theorem firstRegister_of_breach? {cs : List Check}
    (h : i.breach? (.kind 0 register :: cs) = some fault) :
    Layout.firstRegister i = .error fault ∨
      (∃ rn, Layout.firstRegister i = .ok rn) ∧ i.breach? cs = some fault := by
  rw [Layout.firstRegister]
  cases hos : i.operands with
  | nil =>
    rw [breach?_cons, breachOf?_kind, hos] at h
    exact .inl (congrArg _ (Option.some.inj h))
  | cons o rest =>
    have ho : i.operands[0]? = some o := by rw [hos]; rfl
    rw [breach?_kind ho] at h
    cases o with
    | register rn => exact .inr ⟨⟨rn, rfl⟩, h⟩
    | _ => exact .inl (congrArg _ (Option.some.inj h))

theorem branchRegister_of_breach? {op : BranchRegisterOp}
    (hop : i.opcode? = some (.branchRegister op))
    (h : i.breach? op.form.checks = some fault) : Layout.branchRegister i = .error fault := by
  rw [Layout.branchRegister, hop]
  dsimp only
  cases hform : op.form with
  | exceptionReturn =>
    rw [hform] at h
    cases h
  | target | «return» | authenticated =>
    rw [hform] at h
    dsimp only
    obtain hfirst | ⟨⟨rn, hfirst⟩, h⟩ := firstRegister_of_breach? h
    · rw [hfirst]
    · obtain ⟨hlen, rfl⟩ := arity_of_breach? h
      rw [hfirst]
      split
      · rename_i hos
        exact absurd (by rw [hos]; rfl) hlen
      · rfl
      · rename_i heq
        cases heq

theorem loadStoreExclusive_of_breach? {op : ExclusiveOp}
    (hop : i.opcode? = some (.loadStoreExclusive op))
    (h : i.breach? [.kind op.transferIndex register] = some fault) :
    Layout.loadStoreExclusive i = .error fault := by
  rw [Layout.loadStoreExclusive, hop]
  dsimp only
  cases ho : i.operands[op.transferIndex]? with
  | none =>
    rw [breach?_cons, breachOf?_kind, ho] at h
    exact congrArg _ (Option.some.inj h)
  | some o =>
    rw [breach?_kind ho] at h
    cases o with
    | register => cases h
    | _ => exact congrArg _ (Option.some.inj h)

theorem loadLiteral_of_breach? {op : LoadLiteralOp} (hop : i.opcode? = some (.loadLiteral op))
    (h : i.breach? [.arity 2, .kind 1 immediateOffset, .kind 0 op.firstKind] = some fault) :
    Layout.loadLiteral i = .error fault := by
  rw [Layout.loadLiteral]
  by_cases hlen : i.operands.length = 2
  · obtain ⟨first, second, hos⟩ := List.length_eq_two.1 hlen
    have hfirst : i.operands[0]? = some first := by rw [hos]; rfl
    have hsecond : i.operands[1]? = some second := by rw [hos]; rfl
    rw [breach?_arity_of_eq hlen, breach?_kind hsecond, breach?_kind hfirst] at h
    rw [hos, hop]
    cases second with
    | immediateOffset =>
      cases op with
      | prfm =>
        cases first with
        | immediate => cases h
        | _ => exact congrArg _ (Option.some.inj h)
      | ldr | ldrs =>
        cases first with
        | register => cases h
        | _ => exact congrArg _ (Option.some.inj h)
    | _ => exact congrArg _ (Option.some.inj h)
  · rw [breach?_arity_of_ne hlen] at h
    obtain rfl := Option.some.inj h
    split
    · rename_i hos
      exact absurd (by rw [hos]; rfl) hlen
    · rename_i hos
      exact absurd (by rw [hos]; rfl) hlen
    · rfl

theorem loadStore_of_breach? {op : LoadStoreOp} (hop : i.opcode? = some (.loadStore op))
    (h : i.breach? (.arity 2 :: .address :: op.firstChecks) = some fault) :
    Layout.loadStore i = .error fault := by
  rw [Layout.loadStore]
  by_cases hlen : i.operands.length = 2
  · obtain ⟨first, second, hos⟩ := List.length_eq_two.1 hlen
    have hfirst : i.operands[0]? = some first := by rw [hos]; rfl
    have hsecond : i.operands[1]? = some second := by rw [hos]; rfl
    rw [breach?_arity_of_eq hlen, breach?_address hsecond] at h
    rw [hos, hop]
    dsimp only
    cases hsize : Layout.addressSize? second with
    | none =>
      rw [hsize] at h
      exact congrArg _ (Option.some.inj h)
    | some size =>
      rw [hsize, if_pos Option.isSome_some] at h
      cases op with
      | prfm =>
        rw [LoadStoreOp.firstChecks, breach?_kind hfirst] at h
        cases first with
        | immediate => cases h
        | _ => exact congrArg _ (Option.some.inj h)
      | _ => cases h
  · rw [breach?_arity_of_ne hlen] at h
    obtain rfl := Option.some.inj h
    split
    · rename_i hos
      exact absurd (by rw [hos]; rfl) hlen
    · rfl

theorem conditionalCompare_of_breach?
    (h : i.breach? [.arity 3, .kind 0 register] = some fault) :
    Layout.conditionalCompare i = .error fault := by
  rw [Layout.conditionalCompare]
  by_cases hlen : i.operands.length = 3
  · obtain ⟨first, second, third, hos⟩ := List.length_eq_three.1 hlen
    have hfirst : i.operands[0]? = some first := by rw [hos]; rfl
    rw [breach?_arity_of_eq hlen, breach?_kind hfirst] at h
    rw [hos]
    cases first with
    | register => cases h
    | _ => exact congrArg _ (Option.some.inj h)
  · rw [breach?_arity_of_ne hlen] at h
    obtain rfl := Option.some.inj h
    split
    · rename_i hos
      exact absurd (by rw [hos]; rfl) hlen
    · rename_i hos
      exact absurd (by rw [hos]; rfl) hlen
    · rfl

/-- A family reports the first fault that the checks of the opcode find. -/
theorem layout_of_breach? (hop : i.opcode? = some op) (h : i.breach? op.checks = some fault) :
    op.family.layout i = .error fault := by
  cases op
  case system => exact system_of_breach? hop h
  case branchRegister => exact branchRegister_of_breach? hop h
  case loadStoreExclusive => exact loadStoreExclusive_of_breach? hop h
  case loadLiteral => exact loadLiteral_of_breach? hop h
  case loadStore => exact loadStore_of_breach? hop h
  case conditionalCompare => exact conditionalCompare_of_breach? h
  case loadStorePair | dataProcessingTwoSource =>
    obtain ⟨hlen, rfl⟩ := arity_of_breach? h
    exact if_neg hlen
  -- All other families take operands of fixed kinds at once.
  all_goals
    obtain ⟨hfits, rfl⟩ := shape_of_breach? h
    simp only [Opcode.family, Family.layout, Layout.pcRelativeAddressing,
      Layout.addSubtractImmediate, Layout.logicalImmediate, Layout.moveWideImmediate,
      Layout.bitfield, Layout.extract, Layout.conditionalBranch, Layout.exceptionGeneration,
      Layout.branchImmediate, Layout.compareAndBranch, Layout.testAndBranch,
      Layout.dataProcessingOneSource, Layout.logicalShiftedRegister,
      Layout.addSubtractShiftedRegister, Layout.addSubtractExtendedRegister,
      Layout.addSubtractWithCarry, Layout.conditionalSelect, Layout.dataProcessingThreeSource]
    split
    · rename_i hos
      rw [hos] at hfits
      cases hfits
    · rfl

/-- An instruction with integers fails with the first fault that the checks of its opcode find. If
they find none, it fails as a wide move does that is shifted backwards or too far, or prints. -/
theorem tokens_eq_error_iff_breach? {n : Int} (h : i.hasIntegers = true)
    (hn : i.operation.integer? = some n) (hop : i.opcode? = some op) :
    i.tokens = .error fault ↔
      i.breach? op.checks = some fault ∨
        i.breach? op.checks = none ∧ i.wideFault? = some fault := by
  have hf : Family.ofNumber? n = some op.family := by
    rw [Operation.ofNumber?_eq_family hn]
    exact congrArg (Option.map Opcode.family) hop
  have htokens := tokens_of_family h hn hf hop
  cases hbreach : i.breach? op.checks with
  | none =>
    rw [if_pos ((breach?_eq_none_iff op).1 hbreach)] at htokens
    cases hwide : i.wideFault? with
    | none =>
      rw [hwide] at htokens
      obtain ⟨ts, hts⟩ := htokens
      simp [hts]
    | some wide =>
      rw [hwide] at htokens
      simp [htokens]
  | some breach =>
    have hlayout : i.tokens = .error breach := by
      rw [tokens_of_integer? hn, hf]
      dsimp only
      rw [op.family.tokens_eq h (Operation.isKey_of_integer? hn), layout_of_breach? hop hbreach]
      rfl
    simp [hlayout]

-- A load from a literal looks at its address before the register.
example (imm : Immediate) (s : Shift) :
    breach? ⟨.named (.loadLiteral .ldr), [.immediate imm, .shift s], .bool false, 14⟩
        (Opcode.checks (.loadLiteral .ldr)) =
      some (.misfit "LDR_LITERAL" 2 immediateOffset (.int 1) shift) := rfl

end Instruction

end A64Text
