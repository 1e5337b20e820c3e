import A64Text.Layout.Family
import A64Text.Proofs.FieldTypes
import A64Text.Proofs.ListedNames
import A64Text.Proofs.Signature

/-!
# What a layout can come to

A family that is handed an instruction does one of four things: it lays the instruction out, it
finds no room for a wide immediate, it rejects operands that do not match the signature, or it
rejects an opcode that is not its own. `Outcome` lists the four with all that is known in each case,
and a layout that is made is known to derive from its instruction (`Layout.Derives`): its mnemonic is
a word, and its parts are operands, numbers made from integers, and words.

Every family has one lemma, which says that what it does is one of the four.
-/

namespace A64Text

/-! ### Faults -/

/-- Whether a fault is that of an opcode outside the family. -/
def LayoutFault.isUnhandled : LayoutFault → Bool
  | unhandled .. => true
  | _ => false

namespace Instruction

variable {i : Instruction}

/-- Operands of other kinds than those called for are a breach, and not one of the opcode. -/
theorem isBreach_shapeFault (i : Instruction) (kinds : List Operand.Kind) :
    (i.shapeFault kinds).isBreach = true ∧ (i.shapeFault kinds).isUnhandled = false := by
  rw [shapeFault]
  split
  · split <;> exact ⟨rfl, rfl⟩
  · exact ⟨rfl, rfl⟩

theorem isBreach_notListedFault (h : i.operation.isKey = true) (family : String) :
    (i.notListedFault family).isBreach = true := by
  rw [notListedFault, if_pos h]
  rfl

/-- Why the value of a wide immediate that is shifted into its place is not computed: the count is
negative, or the value finds no room. -/
def wideFault? (i : Instruction) : Option LayoutFault :=
  match i.opcode?, i.operands with
  | some (.moveWideImmediate .movz), [_, .immediate imm, .shift s]
  | some (.moveWideImmediate .movn), [_, .immediate imm, .shift s] =>
    s.count.toInt?.bind fun count ↦
      if count < 0 then some .negativeShift
      else if Room.holdsShift imm.value count.toNat then none
      else some .room
  | _, _ => none

theorem wideFault?_eq_none {op : Opcode} (hop : i.opcode? = some op)
    (hfamily : op.family ≠ .moveWideImmediate) : i.wideFault? = none := by
  rw [wideFault?]
  split
  · rename_i hmovz _
    obtain rfl := Option.some.inj (hop.symm.trans hmovz)
    exact absurd rfl hfamily
  · rename_i hmovn _
    obtain rfl := Option.some.inj (hop.symm.trans hmovn)
    exact absurd rfl hfamily
  · rfl

end Instruction

/-! ### Where a layout comes from -/

/-- A part that is an operand of the instruction, or a number or word made from one. -/
inductive Part.Derives (i : Instruction) : Part → Prop
  | operand {o : Operand} (h : o ∈ i.operands) : Derives i (.operand o)
  | immediate {imm : Immediate} (h : imm.hasIntegers = true) : Derives i imm
  | signed {imm : Immediate} (h : imm.hasIntegers = true) : Derives i (.signed imm)
  | decimal (n : Int) : Derives i (.decimal (.int n))
  | word {s : String} (h : IsName s) : Derives i (.word s)

namespace Part

variable {i : Instruction}

@[simp] theorem derives_operand_iff {o : Operand} :
    Derives i (.operand o) ↔
      o ∈ i.operands ∨ ∃ imm : Immediate, imm.hasIntegers = true ∧ o = .immediate imm := by
  constructor
  · rintro (h | h)
    · exact .inl h
    · exact .inr ⟨_, h, rfl⟩
  · rintro (h | ⟨imm, h, rfl⟩)
    · exact .operand h
    · exact .immediate h

@[simp] theorem derives_signed_iff {imm : Immediate} :
    Derives i (.signed imm) ↔ imm.hasIntegers = true :=
  ⟨fun h ↦ by cases h; assumption, .signed⟩

@[simp] theorem derives_decimal_iff {n : Number} : Derives i (.decimal n) ↔ n.isInt = true := by
  rw [Number.isInt_iff]
  constructor
  · intro h
    cases h with
    | decimal n => exact ⟨n, rfl⟩
  · rintro ⟨n, rfl⟩
    exact .decimal n

@[simp] theorem derives_word_iff {s : String} : Derives i (.word s) ↔ IsName s :=
  ⟨fun h ↦ by cases h; assumption, .word⟩

/-- Whether a part is a number made from an integer, or a name. -/
def isPlain : Part → Bool
  | decimal n => n.isInt
  | word s => IsName s
  | _ => false

theorem derives_of_isPlain {p : Part} (h : p.isPlain = true) : p.Derives i := by
  cases p with
  | operand o => cases h
  | signed imm => cases h
  | decimal n => simpa [isPlain] using h
  | word s => simpa [isPlain] using h

theorem attaches_of_isPlain {p : Part} (h : p.isPlain = true) : p.attaches = false := by
  cases p with
  | operand o => cases h
  | signed imm => rfl
  | decimal n => rfl
  | word s => rfl

end Part

/-- A layout that is made from the operands of an instruction. -/
structure Layout.Derives (i : Instruction) (l : Layout) : Prop where
  /-- The mnemonic is a word, but for the profiling barrier, which is two words alone. -/
  mnemonic : IsMnemonic l.mnemonic ∨ i.opcode? = some (.system .psbCsync) ∧ l = ⟨"psb csync", []⟩
  parts : ∀ p ∈ l.parts, p.Derives i
  /-- Only a first operand that is a modifier comes first as one. -/
  head : l.parts.head?.any Part.attaches = true → i.operands.head?.any Operand.isModifier = true

namespace Layout

variable {i : Instruction} {m : String}

theorem derives_nil (h : IsMnemonic m) : Derives i ⟨m, []⟩ :=
  ⟨.inl h, by simp, by simp⟩

/-- A layout whose first part brings no comma. -/
theorem derives_cons {p : Part} {ps : List Part} (h : IsMnemonic m) (hp : p.attaches = false)
    (hparts : ∀ q ∈ p :: ps, q.Derives i) : Derives i ⟨m, p :: ps⟩ := by
  refine ⟨.inl h, hparts, fun hhead ↦ ?_⟩
  simp [hp] at hhead

/-- A layout that shows all operands as they are. -/
theorem derives_operands (h : IsMnemonic m) : Derives i ⟨m, i.operands.map Part.operand⟩ := by
  refine ⟨.inl h, fun p hp ↦ ?_, fun hhead ↦ ?_⟩
  · obtain ⟨o, ho, rfl⟩ := List.mem_map.1 hp
    exact .operand ho
  · cases hos : i.operands with
    | nil => simp [hos] at hhead
    | cons o rest => simpa [hos, Part.attaches] using hhead

end Layout

/-! ### Outcomes -/

/-- What a family can make of an instruction. -/
inductive Outcome (i : Instruction) (f : Family) : Except LayoutFault Layout → Prop
  /-- The opcode and the operands fit, and the layout derives from them. -/
  | laidOut {op : Opcode} {l : Layout} (hop : i.opcode? = some op) (hfamily : op.family = f)
      (haccepts : op.signature.accepts i.kinds = true) (hwide : i.wideFault? = none)
      (hderives : l.Derives i) : Outcome i f (.ok l)
  /-- The opcode and the operands fit, but a wide immediate is not computed. -/
  | noRoom {op : Opcode} {fault : LayoutFault} (hop : i.opcode? = some op)
      (hfamily : op.family = f) (haccepts : op.signature.accepts i.kinds = true)
      (hwide : i.wideFault? = some fault) : Outcome i f (.error fault)
  /-- The opcode fits, but the operands do not. -/
  | misshapen {op : Opcode} {fault : LayoutFault} (hop : i.opcode? = some op)
      (hfamily : op.family = f) (haccepts : op.signature.accepts i.kinds = false)
      (hbreach : fault.isBreach = true) (hown : fault.isUnhandled = false) :
      Outcome i f (.error fault)
  /-- The opcode is none of the family's. -/
  | foreign {fault : LayoutFault} (hforeign : i.opcode?.map Opcode.family ≠ some f)
      (hbreach : fault.isBreach = true) : Outcome i f (.error fault)

namespace Outcome

variable {i : Instruction} {f : Family}

/-- An opcode outside the wide moves is laid out. -/
theorem ok {op : Opcode} {l : Layout} (hop : i.opcode? = some op) (hfamily : op.family = f)
    (hf : f ≠ .moveWideImmediate) (haccepts : op.signature.accepts i.kinds = true)
    (hderives : l.Derives i) : Outcome i f (.ok l) :=
  .laidOut hop hfamily haccepts (Instruction.wideFault?_eq_none hop (hfamily ▸ hf)) hderives

/-- An opcode outside the wide moves is laid out with a first part that brings no comma. -/
theorem shown {op : Opcode} {m : String} {p : Part} {ps : List Part} (hop : i.opcode? = some op)
    (hfamily : op.family = f) (hf : f ≠ .moveWideImmediate)
    (haccepts : op.signature.accepts i.kinds = true) (hm : IsMnemonic m) (hp : p.attaches = false)
    (hparts : ∀ q ∈ p :: ps, q.Derives i) : Outcome i f (.ok ⟨m, p :: ps⟩) :=
  .ok hop hfamily hf haccepts (Layout.derives_cons hm hp hparts)

/-- Operands that no opcode of the family accepts are rejected, whatever the opcode. -/
theorem rejected {fault : LayoutFault}
    (haccepts : ∀ op : Opcode, op.IsOf f → op.signature.accepts i.kinds ≠ true)
    (h : fault.isBreach = true ∧ fault.isUnhandled = false) : Outcome i f (.error fault) := by
  by_cases hforeign : i.opcode?.map Opcode.family = some f
  · obtain ⟨op, hop, rfl⟩ := Option.map_eq_some_iff.1 hforeign
    exact .misshapen hop rfl (Bool.eq_false_iff.2 (haccepts op op.isOf_family)) h.1 h.2
  · exact .foreign hforeign h.1

/-- An opcode that is in no form of the family's is foreign. -/
theorem unhandled {fault : LayoutFault}
    (hop : ∀ op : Opcode, op.IsOf f → i.opcode? ≠ some op) (hbreach : fault.isBreach = true) :
    Outcome i f (.error fault) := by
  refine .foreign ?_ hbreach
  intro hfamily
  obtain ⟨op, hop', rfl⟩ := Option.map_eq_some_iff.1 hfamily
  exact hop op op.isOf_family hop'

/-- Where a family has one form of opcodes, an opcode that is not in it is foreign. -/
theorem unlisted {α : Type} {mk : α → Opcode} {fault : LayoutFault}
    (hform : ∀ op : Opcode, op.IsOf f → ∃ o, op = mk o) (hop : ∀ o, i.opcode? ≠ some (mk o))
    (hbreach : fault.isBreach = true) : Outcome i f (.error fault) := by
  refine .unhandled ?_ hbreach
  intro op hisOf
  obtain ⟨o, rfl⟩ := hform op hisOf
  exact hop o

end Outcome

end A64Text
