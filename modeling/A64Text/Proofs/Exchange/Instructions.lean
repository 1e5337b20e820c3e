import A64Text.Proofs.Exchange.Operands

/-!
# Instructions that are written

An instruction comes back from its written form with its operation named, if its opcode has a name,
and otherwise with the number that it was given by (`Instruction.restored`). Nothing else changes
(`restores_instruction`). It has a written form exactly if its condition code is one of the sixteen
and all of its operands have one (`exists_ofInstruction_iff`).

The encoders and decoders of lists go through their items from left to right, and so they all are
`List.mapM`, for which it is said once what it comes to (`mapM_eq_ok_iff`).
-/

namespace A64Text

/-! ### Lists -/

/-- A list is mapped exactly if each of its items is. -/
theorem mapM_eq_ok_iff {ε α β : Type} {f : α → Except ε β} {as : List α} {bs : List β} :
    as.mapM f = .ok bs ↔ List.Forall₂ (fun a b ↦ f a = .ok b) as bs := by
  induction as generalizing bs with
  | nil =>
    constructor
    · intro h
      obtain rfl := Except.ok.inj h
      exact .nil
    · intro h
      cases h
      rfl
  | cons a as ih =>
    rw [List.mapM_cons]
    constructor
    · intro h
      cases ha : f a with
      | error e =>
        rw [ha] at h
        cases h
      | ok b =>
        rw [ha] at h
        cases has : as.mapM f with
        | error e =>
          rw [has] at h
          cases h
        | ok bs' =>
          rw [has] at h
          obtain rfl := Except.ok.inj h
          exact .cons ha (ih.1 has)
    · intro h
      cases h with
      | cons ha has =>
        rw [ha, ih.2 has]
        rfl

/-- A list is mapped to something exactly if each of its items is. -/
theorem exists_mapM_iff {ε α β : Type} {f : α → Except ε β} {as : List α} :
    (∃ bs, as.mapM f = .ok bs) ↔ ∀ a ∈ as, ∃ b, f a = .ok b := by
  induction as with
  | nil => exact ⟨fun _ ↦ by simp, fun _ ↦ ⟨[], rfl⟩⟩
  | cons a as ih =>
    rw [List.forall_mem_cons, ← ih]
    simp only [mapM_eq_ok_iff]
    constructor
    · rintro ⟨_, hab⟩
      cases hab with
      | cons ha has => exact ⟨⟨_, ha⟩, ⟨_, has⟩⟩
    · rintro ⟨⟨b, ha⟩, ⟨bs, has⟩⟩
      exact ⟨b :: bs, .cons ha has⟩

namespace Exchange

theorem ofOperandList_eq_mapM (os : List Operand) : ofOperandList os = os.mapM ofOperand := by
  induction os with
  | nil => rfl
  | cons o os ih => rw [ofOperandList, List.mapM_cons, ih]

theorem operandList_eq_mapM (vs : List Json) : operandList vs = vs.mapM operand := by
  induction vs with
  | nil => rfl
  | cons v vs ih => rw [operandList, List.mapM_cons, ih]

theorem ofInstructionList_eq_mapM (is : List Instruction) :
    ofInstructionList is = is.mapM ofInstruction := by
  induction is with
  | nil => rfl
  | cons i is ih => rw [ofInstructionList, List.mapM_cons, ih]

theorem instructionList_eq_mapM (vs : List Json) : instructionList vs = vs.mapM instruction := by
  induction vs with
  | nil => rfl
  | cons v vs ih => rw [instructionList, List.mapM_cons, ih]

/-- Items that are restored one by one are restored as a list. -/
theorem restores_mapM {ε α : Type} {encode : α → Except ε Json}
    {decode : Json → Except DecodeFault α} {restored : α → α} {as : List α} {vs : List Json}
    (h : ∀ a ∈ as, ∀ v, encode a = .ok v → Restores decode v (restored a))
    (hvs : as.mapM encode = .ok vs) :
    Json.arePlain vs = true ∧ vs.mapM decode = .ok (as.map restored) := by
  rw [mapM_eq_ok_iff] at hvs ⊢
  induction hvs with
  | nil => exact ⟨rfl, .nil⟩
  | @cons a v as vs ha has ih =>
    obtain ⟨hfirst, hothers⟩ := List.forall_mem_cons.1 h
    obtain ⟨hplain, hdecode⟩ := hfirst v ha
    obtain ⟨hplains, hdecodes⟩ := ih hothers
    refine ⟨?_, .cons hdecode hdecodes⟩
    rw [Json.arePlain, hplain, hplains]
    rfl

end Exchange

/-! ### Operations -/

namespace Operation

/-- An operation as it comes back: its opcode by name, or else its number. -/
def restored (o : Operation) : Operation :=
  match o.opcode?, o.integer? with
  | some op, _ => named op
  | none, some n => numbered (.int n)
  | none, none => o

variable {o : Operation} {n : Int}

theorem integer?_restored (h : o.integer? = some n) : o.restored.integer? = some n := by
  rw [restored]
  cases hop : o.opcode? with
  | none =>
    rw [h]
    rfl
  | some op =>
    rw [opcode?_eq h] at hop
    exact congrArg some (Opcode.number_of_ofNumber? hop)

theorem opcode?_restored (h : o.integer? = some n) : o.restored.opcode? = o.opcode? := by
  rw [opcode?_eq h, opcode?_eq (integer?_restored h)]

/-- Operations come back as the same one exactly if they are given by the same integer. -/
theorem restored_eq_iff {p : Operation} {m : Int} (ho : o.integer? = some n)
    (hp : p.integer? = some m) : o.restored = p.restored ↔ n = m := by
  constructor
  · intro h
    have hn := integer?_restored ho
    rw [h, integer?_restored hp] at hn
    exact (Option.some.inj hn).symm
  · rintro rfl
    rw [restored, restored, opcode?_eq ho, opcode?_eq hp, ho, hp]
    cases Opcode.ofNumber? n <;> rfl

end Operation

namespace Exchange

/-- The written form of an operation names its opcode, or is its number. -/
theorem restores_operation {o : Operation} {n : Int} (h : o.integer? = some n) :
    ∃ v, ofOperation o = .ok v ∧ Restores operation v o.restored := by
  rw [ofOperation, Operation.restored]
  cases hop : o.opcode? with
  | some op =>
    obtain ⟨hplain, hlisted⟩ :=
      restores_writtenName "Opcode" op.ofName?_lowerAscii op.isPlainText_name
    refine ⟨_, rfl, hplain, ?_⟩
    show (listed "Opcode" Opcode.ofName? (writtenName op.name)).map Operation.named = _
    rw [hlisted]
    rfl
  | none =>
    obtain ⟨m, hm, hmn⟩ := Option.bind_eq_some_iff.1 h
    rw [hm, h]
    cases m with
    | real x => cases hmn
    | int k =>
      obtain rfl := Option.some.inj hmn
      exact ⟨_, rfl, rfl, rfl⟩
    | truth b =>
      obtain rfl := Option.some.inj hmn
      exact ⟨_, rfl, rfl, rfl⟩

/-- An operation that came back is written as it was. -/
theorem ofOperation_restored {o : Operation} {n : Int} (h : o.integer? = some n) :
    ofOperation o.restored = ofOperation o := by
  obtain ⟨m, hm, hmn⟩ := Option.bind_eq_some_iff.1 h
  have hopcode := Operation.opcode?_restored h
  unfold ofOperation
  rw [hopcode]
  cases hop : o.opcode? with
  | some op => rfl
  | none =>
    have hrestored : o.restored = .numbered (.int n) := by rw [Operation.restored, hop, h]
    rw [hrestored, hm]
    cases m with
    | real x => cases hmn
    | int k => exact congrArg (fun k ↦ Except.ok (Json.int k)) (Option.some.inj hmn).symm
    | truth b => exact congrArg (fun k ↦ Except.ok (Json.int k)) (Option.some.inj hmn).symm

end Exchange

/-! ### Conditions -/

/-- The condition with a code has that code. -/
theorem Condition.code_of_ofCode? {n : Int} {c : Condition} (h : ofCode? n = some c) :
    (c.code : Int) = n := by
  have hnodup : all.Nodup := by decide
  rw [ofCode?] at h
  split at h
  · obtain ⟨hlt, rfl⟩ := List.getElem?_eq_some_iff.1 h
    rw [code, hnodup.idxOf_getElem]
    omega
  · cases h

namespace Exchange

theorem restores_condition {n : Int} {v : Json} (hv : ofCondition n = .ok v) :
    Restores condition v n := by
  rw [ofCondition] at hv
  split at hv
  · rename_i c hc
    obtain rfl := Except.ok.inj hv
    obtain ⟨hplain, hlisted⟩ :=
      restores_writtenName "ConditionCode" c.ofName?_lowerAscii c.isPlainText_name
    refine ⟨hplain, ?_⟩
    rw [condition, hlisted]
    exact congrArg Except.ok (Condition.code_of_ofCode? hc)
  · cases hv

/-- A condition code has a written form exactly if it is one of the sixteen. -/
theorem exists_ofCondition_iff (n : Int) : (∃ v, ofCondition n = .ok v) ↔ 0 ≤ n ∧ n ≤ 15 := by
  have hlength : Condition.all.length = 16 := rfl
  rw [ofCondition, Condition.ofCode?]
  by_cases hn : 0 ≤ n
  · rw [if_pos hn]
    by_cases hle : n ≤ 15
    · have hlt : n.toNat < Condition.all.length := by omega
      rw [List.getElem?_eq_getElem hlt]
      exact ⟨fun _ ↦ ⟨hn, hle⟩, fun _ ↦ ⟨_, rfl⟩⟩
    · have hge : Condition.all.length ≤ n.toNat := by omega
      rw [List.getElem?_eq_none hge]
      exact ⟨fun ⟨_, hv⟩ ↦ (by cases hv), fun h ↦ absurd h.2 hle⟩
  · rw [if_neg hn]
    exact ⟨fun ⟨_, hv⟩ ↦ (by cases hv), fun h ↦ absurd h.1 hn⟩

end Exchange

/-! ### Instructions -/

namespace Instruction

/-- Whether an instruction holds what the schema calls for: an operation given by an integer, integers
for numbers, and truth values for flags. -/
def isTyped (i : Instruction) : Bool :=
  i.operation.integer?.isSome && i.hasIntegers && i.hasFlags

/-- Whether an instruction has a written form: its condition code is one of the sixteen, and all of
its operands have one. -/
def isWritable (i : Instruction) : Bool :=
  0 ≤ i.condition && i.condition ≤ 15 && i.operands.all Operand.hasForm

/-- An instruction as it comes back. -/
def restored (i : Instruction) : Instruction := { i with operation := i.operation.restored }

variable {i : Instruction}

theorem isTyped_iff :
    i.isTyped = true ↔
      (∃ n, i.operation.integer? = some n) ∧ i.hasIntegers = true ∧ i.setFlags.isBool = true ∧
        ∀ o ∈ i.operands, o.hasIntegers = true ∧ o.hasFlags = true := by
  simp only [isTyped, hasIntegers, hasFlags, Bool.and_eq_true, Option.isSome_iff_exists,
    List.all_eq_true]
  constructor
  · rintro ⟨⟨hn, hintegers⟩, hset, hflags⟩
    exact ⟨hn, hintegers, hset, fun o ho ↦ ⟨hintegers o ho, hflags o ho⟩⟩
  · rintro ⟨hn, hintegers, hset, hoperands⟩
    exact ⟨⟨hn, hintegers⟩, hset, fun o ho ↦ (hoperands o ho).2⟩

theorem isTyped_restored (h : i.isTyped = true) : i.restored.isTyped = true := by
  obtain ⟨⟨n, hn⟩, hrest⟩ := isTyped_iff.1 h
  exact isTyped_iff.2 ⟨⟨n, Operation.integer?_restored hn⟩, hrest⟩

theorem restored_restored (h : i.isTyped = true) : i.restored.restored = i.restored := by
  obtain ⟨⟨n, hn⟩, -⟩ := isTyped_iff.1 h
  have hoperation := (Operation.restored_eq_iff (Operation.integer?_restored hn) hn).2 rfl
  rw [restored, restored, hoperation]

end Instruction

namespace Exchange

variable {i : Instruction} {v : Json}

/-- The written form of an instruction is put together from those of its parts. -/
theorem ofInstruction_eq_ok_iff :
    ofInstruction i = .ok v ↔
      ∃ opcode operands cc, ofOperation i.operation = .ok opcode ∧
        i.operands.mapM ofOperand = .ok operands ∧ ofCondition i.condition = .ok cc ∧
        v = .obj [("cc", cc), ("opcode", opcode), ("operands", .arr operands),
          ("set_flags", i.setFlags.sorted)] := by
  rw [← ofOperandList_eq_mapM, ofInstruction]
  cases ofOperation i.operation with
  | error fault => simp [bind, Except.bind]
  | ok opcode =>
    cases ofOperandList i.operands with
    | error fault => simp [bind, Except.bind]
    | ok operands =>
      cases ofCondition i.condition with
      | error fault => simp [bind, Except.bind]
      | ok cc => simp [bind, Except.bind, pure, Except.pure, eq_comm]

/-- The written form of an instruction is decoded as that instruction, as it comes back. -/
theorem restores_instruction (h : i.isTyped = true) (hv : ofInstruction i = .ok v) :
    Restores instruction v i.restored := by
  obtain ⟨⟨n, hn⟩, -, hset, hoperands⟩ := Instruction.isTyped_iff.1 h
  obtain ⟨opcode, operands, cc, hopcode, hos, hcc, rfl⟩ := ofInstruction_eq_ok_iff.1 hv
  obtain ⟨opcode', hopcode', hplain, hoperation⟩ := restores_operation hn
  obtain rfl := Except.ok.inj (hopcode.symm.trans hopcode')
  obtain ⟨hccplain, hcondition⟩ := restores_condition hcc
  have hlist : Json.arePlain operands = true ∧
      operands.mapM operand = .ok (i.operands.map id) :=
    restores_mapM (fun o ho v hv ↦ restores_operand (hoperands o ho).1 (hoperands o ho).2 hv) hos
  rw [List.map_id, ← operandList_eq_mapM] at hlist
  rw [Json.sorted_of_isBool hset]
  constructor
  · simp [Json.isPlain, Json.arePlainMembers, Json.isPlainText, Json.isPlainChar, hplain, hccplain,
      hlist.1, Json.isPlain_of_isBool hset]
  · simp [instruction, members, required, Exchange.operands, Exchange.optional, Json.lookup,
      hoperation, hlist.2, hcondition, Instruction.restored, bind, Except.bind, pure, Except.pure]

/-- An instruction has a written form exactly if its condition and its operands have one. -/
theorem exists_ofInstruction_iff (h : i.isTyped = true) :
    (∃ v, ofInstruction i = .ok v) ↔ i.isWritable = true := by
  obtain ⟨⟨n, hn⟩, -⟩ := Instruction.isTyped_iff.1 h
  obtain ⟨opcode, hopcode, -⟩ := restores_operation hn
  have hoperands : (∃ vs, i.operands.mapM ofOperand = .ok vs) ↔
      i.operands.all Operand.hasForm = true := by
    simp only [exists_mapM_iff, exists_ofOperand_iff, List.all_eq_true]
  have hcondition := exists_ofCondition_iff i.condition
  simp only [Instruction.isWritable, Bool.and_eq_true, decide_eq_true_eq, ← hoperands,
    ← hcondition]
  constructor
  · rintro ⟨v, hv⟩
    obtain ⟨_, operands, cc, -, hos, hcc, -⟩ := ofInstruction_eq_ok_iff.1 hv
    exact ⟨⟨cc, hcc⟩, ⟨operands, hos⟩⟩
  · rintro ⟨⟨cc, hcc⟩, ⟨operands, hos⟩⟩
    exact ⟨_, ofInstruction_eq_ok_iff.2 ⟨opcode, operands, cc, hopcode, hos, hcc, rfl⟩⟩

/-- An instruction that came back is written as it was. -/
theorem ofInstruction_restored (h : i.isTyped = true) :
    ofInstruction i.restored = ofInstruction i := by
  obtain ⟨⟨n, hn⟩, -⟩ := Instruction.isTyped_iff.1 h
  rw [ofInstruction, ofInstruction, Instruction.restored, ofOperation_restored hn]

end Exchange

end A64Text
