import A64Text.Instruction

/-!
# Signatures

The operands that an opcode calls for, as a list of places. A place asks for a kind, for an address
of either kind, or for any operand at all, and a signature may leave open what follows its places.
Whether operands match is a question about their kinds only (`Signature.accepts`).

The signatures stand here as a table by opcode, and not by what the layouts check. For every place a
lemma says how operands start that match a signature with this place in front.
-/

namespace A64Text

/-! ### Places -/

/-- What one place of a signature asks for. -/
inductive Place where
  | register
  | immediate
  | shift
  | extend
  | immediateOffset
  /-- An address with an offset of either kind. -/
  | address
  /-- Any operand. -/
  | any
  deriving DecidableEq, Repr

/-- Whether an operand of a kind will do at a place. -/
def Place.accepts : Place → Operand.Kind → Bool
  | register, k => k = .register
  | immediate, k => k = .immediate
  | shift, k => k = .shift
  | extend, k => k = .extend
  | immediateOffset, k => k = .immediateOffset
  | address, k => k = .immediateOffset || k = .registerOffset
  | any, _ => true

/-! ### Signatures -/

/-- The operands that an opcode calls for. -/
structure Signature where
  places : List Place
  /-- Whether any operands may follow those at the places. -/
  openEnded : Bool
  deriving DecidableEq, Repr

namespace Signature

/-- Exactly the operands at some places. -/
abbrev exactly (places : List Place) : Signature := ⟨places, false⟩

/-- At least the operands at some places. -/
abbrev atLeast (places : List Place) : Signature := ⟨places, true⟩

/-- Whether kinds match places one by one. -/
def fits (openEnded : Bool) : List Place → List Operand.Kind → Bool
  | [], ks => openEnded || ks.isEmpty
  | p :: ps, k :: ks => p.accepts k && fits openEnded ps ks
  | _ :: _, [] => false

/-- Whether a signature accepts operands of the given kinds. -/
def accepts (s : Signature) (kinds : List Operand.Kind) : Bool := fits s.openEnded s.places kinds

section

variable {os : List Operand} {ps : List Place} {openEnded : Bool}

theorem accepts_nil :
    accepts ⟨[], openEnded⟩ (os.map Operand.kind) = true ↔ openEnded = true ∨ os = [] := by
  simp [accepts, fits]

theorem accepts_cons {p : Place} :
    accepts ⟨p :: ps, openEnded⟩ (os.map Operand.kind) = true ↔
      ∃ o rest, os = o :: rest ∧ p.accepts o.kind = true ∧
        accepts ⟨ps, openEnded⟩ (rest.map Operand.kind) = true := by
  cases os with
  | nil => simp [accepts, fits]
  | cons o rest =>
    rw [List.map_cons, accepts, fits, Bool.and_eq_true]
    constructor
    · intro h
      exact ⟨o, rest, rfl, h⟩
    · rintro ⟨o', rest', heq, h⟩
      obtain ⟨rfl, rfl⟩ := List.cons.inj heq
      exact h

theorem length_eq_of_accepts (h : (exactly ps).accepts (os.map Operand.kind) = true) :
    os.length = ps.length := by
  induction ps generalizing os with
  | nil => simpa [accepts_nil] using h
  | cons p ps ih =>
    obtain ⟨o, rest, rfl, -, hrest⟩ := accepts_cons.1 h
    rw [List.length_cons, List.length_cons, ih hrest]

/-- Places that ask for nothing count the operands. -/
theorem accepts_replicate_any {n : Nat} :
    (exactly (.replicate n .any)).accepts (os.map Operand.kind) = true ↔ os.length = n := by
  induction n generalizing os with
  | zero => simp [accepts_nil]
  | succ n ih =>
    cases os with
    | nil => simp [List.replicate_succ, accepts, fits]
    | cons o rest =>
      show (exactly (.replicate n .any)).accepts (rest.map Operand.kind) = true ↔ _
      rw [ih, List.length_cons, Nat.add_right_cancel_iff]

/-- A register at a position, and any operands before and behind it. -/
theorem accepts_register_at {n : Nat} :
    (atLeast (.replicate n .any ++ [.register])).accepts (os.map Operand.kind) = true ↔
      ∃ r, os[n]? = some (.register r) := by
  induction n generalizing os with
  | zero =>
    rcases os with _ | ⟨o, rest⟩
    · simp [accepts, fits]
    · cases o <;> simp [accepts, fits, Place.accepts, Operand.kind]
  | succ n ih =>
    cases os with
    | nil => simp [List.replicate_succ, accepts, fits]
    | cons o rest =>
      show (atLeast (.replicate n .any ++ [.register])).accepts (rest.map Operand.kind) = true ↔ _
      rw [ih, List.getElem?_cons_succ]

/-! How operands start that match a signature with a place in front. The hypothesis `h` of each lemma
says what stands behind that place, so that the lemmas compose in the order of the places, with
`ends` for the last of them. -/

section

variable {P : List Operand → Prop}
  (h : ∀ {os : List Operand}, accepts ⟨ps, openEnded⟩ (os.map Operand.kind) = true → P os)

include h

theorem starts {p : Place} {α : Type} {mk : α → Operand}
    (hp : ∀ o, p.accepts (Operand.kind o) = true → ∃ a, o = mk a)
    (haccepts : accepts ⟨p :: ps, openEnded⟩ (os.map Operand.kind) = true) :
    ∃ a rest, os = mk a :: rest ∧ P rest := by
  obtain ⟨o, rest, heq, ho, hrest⟩ := accepts_cons.1 haccepts
  obtain ⟨a, rfl⟩ := hp o ho
  exact ⟨a, rest, heq, h hrest⟩

theorem starts_register :
    accepts ⟨.register :: ps, openEnded⟩ (os.map Operand.kind) = true →
      ∃ r rest, os = .register r :: rest ∧ P rest :=
  starts h fun o ho ↦ by cases o <;> simp_all [Place.accepts, Operand.kind]

theorem starts_immediate :
    accepts ⟨.immediate :: ps, openEnded⟩ (os.map Operand.kind) = true →
      ∃ imm rest, os = .immediate imm :: rest ∧ P rest :=
  starts h fun o ho ↦ by cases o <;> simp_all [Place.accepts, Operand.kind]

theorem starts_shift :
    accepts ⟨.shift :: ps, openEnded⟩ (os.map Operand.kind) = true →
      ∃ s rest, os = .shift s :: rest ∧ P rest :=
  starts h fun o ho ↦ by cases o <;> simp_all [Place.accepts, Operand.kind]

theorem starts_extend :
    accepts ⟨.extend :: ps, openEnded⟩ (os.map Operand.kind) = true →
      ∃ e rest, os = .extend e :: rest ∧ P rest :=
  starts h fun o ho ↦ by cases o <;> simp_all [Place.accepts, Operand.kind]

theorem starts_immediateOffset :
    accepts ⟨.immediateOffset :: ps, openEnded⟩ (os.map Operand.kind) = true →
      ∃ a rest, os = .immediateOffset a :: rest ∧ P rest :=
  starts h fun o ho ↦ by cases o <;> simp_all [Place.accepts, Operand.kind]

theorem starts_any :
    accepts ⟨.any :: ps, openEnded⟩ (os.map Operand.kind) = true →
      ∃ o rest, os = o :: rest ∧ P rest :=
  starts h fun o _ ↦ ⟨o, rfl⟩

end

theorem ends : accepts ⟨[], false⟩ (os.map Operand.kind) = true → os = [] := by
  simp [accepts_nil]

end

end Signature

/-! ### The table -/

open Place Signature

/-- The signature of a system instruction. -/
def SystemOp.signature : SystemOp → Signature
  | .hint => exactly [any]
  | .dmb | .dsb | .isb => exactly [immediate]
  | .sys => exactly [immediate, immediate, immediate, immediate, register]
  | .sysl => exactly [register, immediate, immediate, immediate, immediate]
  | _ => atLeast []

/-- The signature of a branch to a register. -/
def BranchRegisterOp.signature : BranchRegisterOp → Signature
  | .eret | .eretaa | .eretab | .drps => atLeast []
  | .braa | .brab | .blraa | .blrab => exactly [register, any]
  | _ => exactly [register]

/-- The signature of an exclusive access. -/
def ExclusiveOp.signature : ExclusiveOp → Signature
  | .stxr | .stxp | .stlxr | .stlxp => atLeast [any, register]
  | _ => atLeast [register]

/-- The signature of an opcode. -/
def Opcode.signature : Opcode → Signature
  | .pcRelativeAddressing _ | .moveWideImmediate _ => exactly [register, immediate, shift]
  | .addSubtractImmediate _ => exactly [register, register, immediate, shift]
  | .logicalImmediate _ => exactly [register, register, immediate]
  | .bitfield _ => exactly [register, register, immediate, immediate]
  | .extract => exactly [register, register, register, immediate]
  | .conditionalBranch | .branchImmediate _ | .exceptionGeneration _ => exactly [immediate]
  | .system op => op.signature
  | .branchRegister op => op.signature
  | .compareAndBranch _ => exactly [register, immediate]
  | .testAndBranch _ => exactly [register, immediate, immediate]
  | .loadStoreExclusive op => op.signature
  | .loadLiteral .prfm => exactly [immediate, immediateOffset]
  | .loadLiteral _ => exactly [register, immediateOffset]
  | .loadStorePair _ | .dataProcessingTwoSource _ => exactly [any, any, any]
  | .loadStore .prfm => exactly [immediate, address]
  | .loadStore _ => exactly [any, address]
  | .dataProcessingOneSource _ => exactly [register, register]
  | .logicalShiftedRegister _ | .addSubtractShiftedRegister _ =>
    exactly [register, register, register, shift]
  | .addSubtractExtendedRegister _ => exactly [register, register, register, extend]
  | .addSubtractWithCarry _ | .conditionalSelect _ => exactly [register, register, register]
  | .conditionalCompare _ => exactly [register, any, any]
  | .dataProcessingThreeSource _ => exactly [register, register, register, register]

/-- The kinds of an instruction's operands. -/
def Instruction.kinds (i : Instruction) : List Operand.Kind := i.operands.map Operand.kind

theorem Instruction.accepts_of_eq {i : Instruction} {os : List Operand} {s : Signature}
    (hos : i.operands = os) (h : s.accepts (os.map Operand.kind) = true) :
    s.accepts i.kinds = true := by
  rw [kinds, hos, h]

end A64Text
