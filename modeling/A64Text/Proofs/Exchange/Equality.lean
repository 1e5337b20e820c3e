import A64Text.Proofs.Exchange.Instructions

/-!
# Equality of instructions that hold what the schema calls for

Equality of instructions is that of the values they hold, where a truth value is a number and a real
number may be whole. On integers in the place of numbers and truth values in the place of flags it
is equality as written (`Operand.same_iff`), but for the operation, which may be given by name or by
number. So two such instructions are equal exactly if they come back as the same one
(`Instruction.same_iff`).
-/

namespace A64Text

/-! ### Fields -/

namespace Json

variable {v w : Json}

theorem same_iff_of_isInt (hv : v.isInt = true) (hw : w.isInt = true) :
    v.same w = true ↔ v = w := by
  obtain ⟨m, rfl⟩ := isInt_iff.1 hv
  obtain ⟨n, rfl⟩ := isInt_iff.1 hw
  simp [same, arrange, leveled]

theorem same_iff_of_isBool (hv : v.isBool = true) (hw : w.isBool = true) :
    v.same w = true ↔ v = w := by
  obtain ⟨a, rfl⟩ := isBool_iff.1 hv
  obtain ⟨b, rfl⟩ := isBool_iff.1 hw
  revert a b
  decide

end Json

theorem Number.equals_iff_of_isInt {a b : Number} (ha : a.isInt = true) (hb : b.isInt = true) :
    a.equals b = true ↔ a = b := by
  obtain ⟨m, rfl⟩ := isInt_iff.1 ha
  obtain ⟨n, rfl⟩ := isInt_iff.1 hb
  simp

theorem Number.whole?_of_integer? {a : Number} {n : Int} (h : a.integer? = some n) :
    a.whole? = some n := by
  cases a with
  | real x => cases h
  | int k => exact h
  | truth b => exact h

/-! ### Operands -/

theorem Register.same_iff {r q : Register} (hr : r.hasIntegers = true) (hq : q.hasIntegers = true) :
    r.same q = true ↔ r = q := by
  rw [same, Bool.and_eq_true, decide_eq_true_iff, Json.same_iff_of_isInt hr hq, Register.mk.injEq]

theorem Immediate.same_iff {a b : Immediate} (ha : a.hasIntegers = true)
    (hb : b.hasIntegers = true) : a.same b = true ↔ a = b := by
  simp only [hasIntegers, Bool.and_eq_true] at ha hb
  rw [same, Bool.and_eq_true, Number.equals_iff_of_isInt ha.1 hb.1,
    Number.equals_iff_of_isInt ha.2 hb.2, Immediate.mk.injEq]

theorem Shift.same_iff {s t : Shift} (hs : s.hasIntegers = true) (ht : t.hasIntegers = true) :
    s.same t = true ↔ s = t := by
  rw [same, Bool.and_eq_true, decide_eq_true_iff, Json.same_iff_of_isInt hs ht, Shift.mk.injEq]

theorem Extend.same_iff {e f : Extend} (he : e.hasIntegers = true) (hf : f.hasIntegers = true) :
    e.same f = true ↔ e = f := by
  rw [same, Bool.and_eq_true, decide_eq_true_iff, Json.same_iff_of_isInt he hf, Extend.mk.injEq]

theorem SystemRegister.same_iff {r q : SystemRegister} (hr : r.hasIntegers = true)
    (hq : q.hasIntegers = true) : r.same q = true ↔ r = q := by
  simp only [hasIntegers, Bool.and_eq_true] at hr hq
  obtain ⟨⟨⟨⟨hr₁, hr₂⟩, hr₃⟩, hr₄⟩, hr₅⟩ := hr
  obtain ⟨⟨⟨⟨hq₁, hq₂⟩, hq₃⟩, hq₄⟩, hq₅⟩ := hq
  simp only [same, Bool.and_eq_true, decide_eq_true_iff, Json.same_iff_of_isInt hr₁ hq₁,
    Json.same_iff_of_isInt hr₂ hq₂, Json.same_iff_of_isInt hr₃ hq₃, Json.same_iff_of_isInt hr₄ hq₄,
    Json.same_iff_of_isInt hr₅ hq₅, and_assoc]
  rw [SystemRegister.mk.injEq]

theorem ImmediateOffset.same_iff {a b : ImmediateOffset} (ha : a.hasIntegers = true)
    (hb : b.hasIntegers = true) (ha' : (Operand.immediateOffset a).hasFlags = true)
    (hb' : (Operand.immediateOffset b).hasFlags = true) : a.same b = true ↔ a = b := by
  simp only [hasIntegers, Operand.hasFlags, Bool.and_eq_true] at ha hb ha' hb'
  simp only [same, Bool.and_eq_true, Register.same_iff ha.1.1.1 hb.1.1.1,
    Immediate.same_iff ha.1.1.2 hb.1.1.2, Shift.same_iff ha.1.2 hb.1.2,
    Json.same_iff_of_isBool ha'.1 hb'.1, Json.same_iff_of_isBool ha'.2 hb'.2,
    Json.same_iff_of_isInt ha.2 hb.2, and_assoc]
  rw [ImmediateOffset.mk.injEq]

theorem RegisterOffset.same_iff {a b : RegisterOffset} (ha : a.hasIntegers = true)
    (hb : b.hasIntegers = true) (ha' : (Operand.registerOffset a).hasFlags = true)
    (hb' : (Operand.registerOffset b).hasFlags = true) : a.same b = true ↔ a = b := by
  simp only [hasIntegers, Operand.hasFlags, Bool.and_eq_true] at ha hb ha' hb'
  simp only [same, Bool.and_eq_true, Register.same_iff ha.1.1.1 hb.1.1.1,
    Register.same_iff ha.1.1.2 hb.1.1.2, Extend.same_iff ha.1.2 hb.1.2,
    Json.same_iff_of_isBool ha'.1 hb'.1, Json.same_iff_of_isBool ha'.2 hb'.2,
    Json.same_iff_of_isInt ha.2 hb.2, and_assoc]
  rw [RegisterOffset.mk.injEq]

/-- Operands with a written form are equal exactly if they hold the same. -/
theorem Operand.same_iff {a b : Operand} (ha : a.hasIntegers = true) (hb : b.hasIntegers = true)
    (ha' : a.hasFlags = true) (hb' : b.hasFlags = true) (hform : a.hasForm = true) :
    a.same b = true ↔ a = b := by
  cases a with
  | register r =>
    cases b with
    | register q => rw [same, Register.same_iff ha hb, register.injEq]
    | _ => simp [same]
  | immediate imm =>
    cases b with
    | immediate imm' => rw [same, Immediate.same_iff ha hb, immediate.injEq]
    | _ => simp [same]
  | systemRegister r =>
    cases b with
    | systemRegister q => rw [same, SystemRegister.same_iff ha hb, systemRegister.injEq]
    | _ => simp [same]
  | shift s =>
    cases b with
    | shift t => rw [same, Shift.same_iff ha hb, shift.injEq]
    | _ => simp [same]
  | extend e =>
    cases b with
    | extend f => rw [same, Extend.same_iff ha hb, extend.injEq]
    | _ => simp [same]
  | immediateOffset a =>
    cases b with
    | immediateOffset b => rw [same, ImmediateOffset.same_iff ha hb ha' hb', immediateOffset.injEq]
    | _ => simp [same]
  | registerOffset a =>
    cases b with
    | registerOffset b => rw [same, RegisterOffset.same_iff ha hb ha' hb', registerOffset.injEq]
    | _ => simp [same]
  | bare => cases hform

/-! ### Instructions -/

/-- Two operations given by integers are the same exactly if the integers are. -/
theorem Operation.same_iff {o p : Operation} {m n : Int} (ho : o.integer? = some m)
    (hp : p.integer? = some n) : o.same p = true ↔ m = n := by
  obtain ⟨a, ha, ham⟩ := Option.bind_eq_some_iff.1 ho
  obtain ⟨b, hb, hbn⟩ := Option.bind_eq_some_iff.1 hp
  have hsame : o.same p = a.equals b := by
    cases o with
    | unnumbered v => cases ha
    | _ => simp only [same, ha, hb]
  rw [hsame, Number.equals, Number.whole?_of_integer? ham, Number.whole?_of_integer? hbn]
  exact decide_eq_true_iff

namespace Instruction

/-- Lists of operands with written forms are equal exactly if they hold the same. -/
theorem sameOperands_iff {as bs : List Operand}
    (has : ∀ o ∈ as, o.hasIntegers = true ∧ o.hasFlags = true)
    (hbs : ∀ o ∈ bs, o.hasIntegers = true ∧ o.hasFlags = true)
    (hform : ∀ o ∈ as, o.hasForm = true) : sameOperands as bs = true ↔ as = bs := by
  induction as generalizing bs with
  | nil =>
    cases bs with
    | nil => simp [sameOperands]
    | cons b bs => simp [sameOperands]
  | cons a as ih =>
    cases bs with
    | nil => simp [sameOperands]
    | cons b bs =>
      obtain ⟨⟨ha, ha'⟩, has⟩ := List.forall_mem_cons.1 has
      obtain ⟨⟨hb, hb'⟩, hbs⟩ := List.forall_mem_cons.1 hbs
      obtain ⟨hforma, hformas⟩ := List.forall_mem_cons.1 hform
      rw [sameOperands, Bool.and_eq_true, Operand.same_iff ha hb ha' hb' hforma,
        ih has hbs hformas, List.cons.injEq]

/-- Instructions are equal exactly if they come back as the same one. -/
theorem same_iff {i j : Instruction} (hi : i.isTyped = true) (hj : j.isTyped = true)
    (hwritable : i.isWritable = true) : i.same j = true ↔ i.restored = j.restored := by
  obtain ⟨⟨n, hn⟩, -, hset, hoperands⟩ := isTyped_iff.1 hi
  obtain ⟨⟨m, hm⟩, -, hset', hoperands'⟩ := isTyped_iff.1 hj
  simp only [isWritable, Bool.and_eq_true, List.all_eq_true] at hwritable
  simp only [same, Bool.and_eq_true, decide_eq_true_eq, Operation.same_iff hn hm,
    sameOperands_iff hoperands hoperands' hwritable.2, Json.same_iff_of_isBool hset hset',
    ← Operation.restored_eq_iff hn hm, restored, Instruction.mk.injEq, and_assoc]

end Instruction

end A64Text
