import A64Text.Instruction

/-!
# Fields that hold what they are meant for

An operand keeps widths, amounts, encoding fields and flags as they were given, and a decoder may
give anything. The schema is narrower: a number is an integer and a flag is a truth value. Whether
an operand keeps to it is decided by `Operand.hasIntegers` and `Operand.hasFlags`, one for numbers
and one for flags, because most of what is printed depends on the numbers only.

What integers are good for is said once, here: an operand that holds only integers prints
(`Operand.fault?_eq_none`), and so does an immediate that is read as an offset
(`Immediate.signedFault?_eq_none`).
-/

namespace A64Text

/-! ### Values of a type -/

/-- Whether a value was given as an integer. -/
def Json.isInt : Json → Bool
  | int _ => true
  | _ => false

/-- Whether a value was given as an integer that is not negative. -/
def Json.isNatural : Json → Bool
  | int n => 0 ≤ n
  | _ => false

/-- Whether a value was given as a truth value. -/
def Json.isBool : Json → Bool
  | bool _ => true
  | _ => false

/-- Whether a number was given as an integer. -/
def Number.isInt : Number → Bool
  | int _ => true
  | _ => false

theorem Json.isInt_iff {v : Json} : v.isInt = true ↔ ∃ n, v = .int n := by
  cases v <;> simp [isInt]

theorem Json.isNatural_iff {v : Json} : v.isNatural = true ↔ ∃ n : Nat, v = .int n := by
  cases v with
  | int n =>
    simp only [isNatural, decide_eq_true_eq, int.injEq]
    exact ⟨fun h ↦ ⟨n.toNat, by omega⟩, by rintro ⟨m, rfl⟩; omega⟩
  | _ => simp [isNatural]

theorem Json.isBool_iff {v : Json} : v.isBool = true ↔ ∃ b, v = .bool b := by
  cases v <;> simp [isBool]

theorem Number.isInt_iff {n : Number} : n.isInt = true ↔ ∃ k, n = .int k := by
  cases n <;> simp [isInt]

@[simp] theorem Number.isInt_int (k : Int) : (int k).isInt = true := rfl

/-- Sums of integers are integers. -/
theorem Number.isInt_add {a b : Number} (ha : a.isInt = true) (hb : b.isInt = true) :
    (a.add b).isInt = true := by
  obtain ⟨m, rfl⟩ := isInt_iff.1 ha
  obtain ⟨n, rfl⟩ := isInt_iff.1 hb
  rfl

/-- Differences of integers are integers. -/
theorem Number.isInt_sub {a b : Number} (ha : a.isInt = true) (hb : b.isInt = true) :
    (a.sub b).isInt = true := by
  obtain ⟨m, rfl⟩ := isInt_iff.1 ha
  obtain ⟨n, rfl⟩ := isInt_iff.1 hb
  rfl

/-! ### Operands with integers -/

/-- Whether the width of a register is an integer. -/
def Register.hasIntegers (r : Register) : Bool := r.size.isInt

/-- Whether both numbers of an immediate are integers. -/
def Immediate.hasIntegers (imm : Immediate) : Bool := imm.given.isInt && imm.width.isInt

/-- The low sixteen bits of a number, as an immediate. -/
def Immediate.halfword (n : Nat) : Immediate := truncate n 16 (by decide)

/-- Whether the amount of a shift is an integer. -/
def Shift.hasIntegers (s : Shift) : Bool := s.count.isInt

/-- Whether the amount of an extend is an integer. -/
def Extend.hasIntegers (e : Extend) : Bool := e.count.isInt

/-- Whether the encoding fields of a system register are integers. -/
def SystemRegister.hasIntegers (r : SystemRegister) : Bool :=
  r.op0.isInt && r.op1.isInt && r.crn.isInt && r.crm.isInt && r.op2.isInt

/-- Whether no encoding field of a system register is negative. -/
def SystemRegister.hasNaturals (r : SystemRegister) : Bool :=
  r.op0.isNatural && r.op1.isNatural && r.crn.isNatural && r.crm.isNatural && r.op2.isNatural

/-- Whether the numbers of an address are integers. -/
def ImmediateOffset.hasIntegers (a : ImmediateOffset) : Bool :=
  a.base.hasIntegers && a.offset.hasIntegers && a.shift.hasIntegers && a.size.isInt

/-- Whether the numbers of an address are integers. -/
def RegisterOffset.hasIntegers (a : RegisterOffset) : Bool :=
  a.base.hasIntegers && a.offset.hasIntegers && a.extend.hasIntegers && a.size.isInt

/-- Whether all numbers of an operand are integers. -/
def Operand.hasIntegers : Operand → Bool
  | register r => r.hasIntegers
  | immediate imm => imm.hasIntegers
  | systemRegister r => r.hasIntegers
  | shift s => s.hasIntegers
  | extend e => e.hasIntegers
  | immediateOffset a => a.hasIntegers
  | registerOffset a => a.hasIntegers
  | bare => true

/-- Whether all numbers of an instruction's operands are integers. -/
def Instruction.hasIntegers (i : Instruction) : Bool := i.operands.all Operand.hasIntegers

/-- Whether no encoding field of an operand is negative. -/
def Operand.hasNaturals : Operand → Bool
  | systemRegister r => r.hasNaturals
  | _ => true

/-- Whether no encoding field of an instruction's operands is negative. -/
def Instruction.hasNaturals (i : Instruction) : Bool := i.operands.all Operand.hasNaturals

/-! ### Operands with truth values -/

/-- Whether the flags of an operand are truth values. -/
def Operand.hasFlags : Operand → Bool
  | immediateOffset a => a.writeback.isBool && a.postIndex.isBool
  | registerOffset a => a.writeback.isBool && a.postIndex.isBool
  | _ => true

/-- Whether the flags of an instruction and of its operands are truth values. -/
def Instruction.hasFlags (i : Instruction) : Bool :=
  i.setFlags.isBool && i.operands.all Operand.hasFlags

/-- The integer that an operation is given by, or that its opcode has. -/
def Operation.integer? (o : Operation) : Option Int := o.number?.bind Number.integer?

/-! ### Integers print -/

theorem Immediate.isInt_given {imm : Immediate} (h : imm.hasIntegers = true) :
    imm.given.isInt = true := by
  simp only [hasIntegers, Bool.and_eq_true] at h
  exact h.1

theorem Immediate.given_eq_value {imm : Immediate} (h : imm.hasIntegers = true) :
    imm.given = .int imm.value := by
  simp only [hasIntegers, Bool.and_eq_true] at h
  obtain ⟨v, hv⟩ := Number.isInt_iff.1 h.1
  have hnonneg := imm.given_nonneg
  rw [hv] at hnonneg
  simp only [Number.atMost_int, decide_eq_true_eq] at hnonneg
  simp only [value, hv, Number.integer?_int, Option.getD_some, Number.int.injEq]
  omega

theorem Register.fault?_eq_none {r : Register} (h : r.hasIntegers = true) : r.fault? = none := by
  obtain ⟨n, hn⟩ := Json.isInt_iff.1 h
  simp [fault?, hn]

theorem Immediate.fault?_eq_none {imm : Immediate} (h : imm.hasIntegers = true) :
    imm.fault? = none := by
  rw [fault?, given_eq_value h]
  rfl

/-- An immediate with integers can be read as an offset. -/
theorem Immediate.signedFault?_eq_none {imm : Immediate} (h : imm.hasIntegers = true) :
    imm.signedFault? = none := by
  simp only [hasIntegers, Bool.and_eq_true] at h
  obtain ⟨v, hv⟩ := Number.isInt_iff.1 h.1
  obtain ⟨w, hw⟩ := Number.isInt_iff.1 h.2
  simp [signedFault?, hv, hw]

theorem Shift.fault?_eq_none {s : Shift} (h : s.hasIntegers = true) : s.fault? = none := by
  obtain ⟨n, hn⟩ := Json.isInt_iff.1 h
  rw [fault?]
  split
  · rfl
  · rfl
  · simp [hn]

theorem ImmediateOffset.fault?_eq_none {a : ImmediateOffset} (h : a.hasIntegers = true) :
    a.fault? = none := by
  simp only [hasIntegers, Bool.and_eq_true] at h
  obtain ⟨⟨⟨hbase, hoffset⟩, hshift⟩, -⟩ := h
  simp [fault?, Register.fault?_eq_none hbase, Immediate.signedFault?_eq_none hoffset,
    Shift.fault?_eq_none hshift]

theorem RegisterOffset.fault?_eq_none {a : RegisterOffset} (h : a.hasIntegers = true) :
    a.fault? = none := by
  simp only [hasIntegers, Bool.and_eq_true] at h
  obtain ⟨⟨⟨hbase, hoffset⟩, -⟩, -⟩ := h
  simp [fault?, Register.fault?_eq_none hbase, Register.fault?_eq_none hoffset]

/-- An operand that holds only integers prints. -/
theorem Operand.fault?_eq_none {o : Operand} (h : o.hasIntegers = true) : o.fault? = none := by
  cases o with
  | register r => exact Register.fault?_eq_none h
  | immediate imm => exact Immediate.fault?_eq_none h
  | systemRegister r => rfl
  | shift s => exact Shift.fault?_eq_none h
  | extend e => rfl
  | immediateOffset a => exact ImmediateOffset.fault?_eq_none h
  | registerOffset a => exact RegisterOffset.fault?_eq_none h
  | bare => rfl

theorem Instruction.hasIntegers_of_mem {i : Instruction} (h : i.hasIntegers = true) {o : Operand}
    (ho : o ∈ i.operands) : o.hasIntegers = true :=
  List.all_eq_true.1 h o ho

theorem Instruction.immediate_hasIntegers {i : Instruction} (h : i.hasIntegers = true)
    {imm : Immediate} (himm : .immediate imm ∈ i.operands) : imm.hasIntegers = true :=
  hasIntegers_of_mem h himm

theorem Instruction.register_hasIntegers {i : Instruction} (h : i.hasIntegers = true)
    {r : Register} (hr : .register r ∈ i.operands) : r.hasIntegers = true :=
  hasIntegers_of_mem h hr

end A64Text
