import A64Text.Proofs.Exchange.Schema

/-!
# Decoding against the schema

Decoding stops at the first thing that is wrong, and the schema lists all of them. The two meet in
`Finds`: a computation finds a list of faults if it succeeds on the empty list and fails with the
head of any other. Computations one after another find the faults of one after those of the other
(`Finds.bind`), which is how a table of members is followed, and so each decoder reports the faults
of its rule (`Reports`). For instructions this says that decoding accepts exactly the schema and
fails with the first fault (`instruction_accepts_iff`).
-/

namespace A64Text.Exchange

variable {α β : Type} {fs gs : List DecodeFault}

/-! ### The first fault -/

/-- A computation that fails with the first of the faults, and succeeds if there is none. -/
def Finds (x : Except DecodeFault α) (fs : List DecodeFault) : Prop :=
  match x with
  | .ok _ => fs = []
  | .error f => fs.head? = some f

namespace Finds

theorem bind {x : Except DecodeFault α} {k : α → Except DecodeFault β} (hx : Finds x fs)
    (hk : ∀ a, x = .ok a → Finds (k a) gs) : Finds (x >>= k) (fs ++ gs) := by
  cases x with
  | ok a =>
    obtain rfl : fs = [] := hx
    exact hk a rfl
  | error f =>
    obtain ⟨rest, rfl⟩ := List.head?_eq_some_iff.1 hx
    exact rfl

theorem map {x : Except DecodeFault α} (g : α → β) (hx : Finds x fs) : Finds (x.map g) fs := by
  cases x with
  | ok a => exact hx
  | error f => exact hx

theorem exists_ok_iff {x : Except DecodeFault α} (hx : Finds x fs) :
    (∃ a, x = .ok a) ↔ fs = [] := by
  cases x with
  | ok a => exact ⟨fun _ ↦ hx, fun _ ↦ ⟨a, rfl⟩⟩
  | error f =>
    obtain ⟨rest, rfl⟩ := List.head?_eq_some_iff.1 hx
    simp

theorem eq_error_iff {x : Except DecodeFault α} (hx : Finds x fs) (f : DecodeFault) :
    x = .error f ↔ fs.head? = some f := by
  cases x with
  | ok a =>
    obtain rfl : fs = [] := hx
    simp
  | error g =>
    rw [show fs.head? = some g from hx]
    simp

end Finds

/-! ### Rules for values -/

/-- A decoder that finds the faults of a rule in every value of the right type. -/
def Reports (decode : Json → Except DecodeFault α) (rule : Rule) : Prop :=
  ∀ v, rule.isTyped v = true → Finds (decode v) (rule.faults v)

theorem Reports.map {decode : Json → Except DecodeFault α} {rule : Rule} (g : α → β)
    (h : Reports decode rule) : Reports (fun v ↦ (decode v).map g) rule :=
  fun v hv ↦ (h v hv).map g

/-- A name is looked up in the list of the rule. -/
theorem reports_listed {ofName? : String → Option α} {names : List String} (group : String)
    (h : ∀ s, (ofName? s).isSome = true ↔ Text.upperName s ∈ names) :
    Reports (listed group ofName?) (.name group names) := by
  intro v hv
  cases v with
  | str s =>
    simp only [listed, Rule.name, ← h s]
    cases ofName? s with
    | none => rfl
    | some a => rfl
  | unpaired ps => rfl
  | _ => cases hv

theorem isSome_find?_iff {entries : List α} {name : α → String} {s : String} :
    (entries.find? fun a ↦ name a = s).isSome = true ↔ s ∈ entries.map name := by
  simp [List.find?_isSome]

theorem isSome_lookup_iff {entries : List (String × α)} {s : String} :
    (entries.lookup s).isSome = true ↔ s ∈ entries.map Prod.fst := by
  induction entries with
  | nil => simp
  | cons e entries ih =>
    rw [List.lookup_cons, List.map_cons, List.mem_cons, ← ih]
    cases h : s == e.1 with
    | true => simp [eq_of_beq h]
    | false => simp [ne_of_beq_false h]

theorem reports_shiftKind :
    Reports (listed "ShiftType" ShiftKind.ofName?)
      (.name "ShiftType" (ShiftKind.listed.map fun k ↦ Text.upperAscii k.keyword)) :=
  reports_listed _ fun _ ↦ isSome_find?_iff

theorem reports_extendKind :
    Reports (listed "ExtendType" ExtendKind.ofName?)
      (.name "ExtendType" (ExtendKind.listed.map fun k ↦ Text.upperAscii k.keyword)) :=
  reports_listed _ fun _ ↦ isSome_find?_iff

theorem reports_systemRegisterName :
    Reports (listed "SystemRegisterName" SystemRegisterName.ofName?)
      (.name "SystemRegisterName"
        (SystemRegisterName.listed.map fun n ↦ Text.upperAscii n.spelling)) :=
  reports_listed _ fun _ ↦ isSome_find?_iff

theorem reports_registerNumber :
    Reports registerNumber (.nameOr "RegisterName" Register.names) := by
  have hnames : ∀ s, (Register.numberOf? s).isSome = true ↔ Text.upperName s ∈ Register.names := by
    intro s
    rw [Register.numberOf?, List.isSome_idxOf?]
  intro v hv
  cases v with
  | str s => exact ((reports_listed "RegisterName" hnames) (.str s) rfl).map Int.ofNat
  | unpaired ps => exact ((reports_listed "RegisterName" hnames) (.unpaired ps) rfl).map Int.ofNat
  | int n => rfl
  | _ => simp [Rule.nameOr, Json.isText, Json.isInt] at hv

theorem reports_operation :
    Reports operation (.nameOr "Opcode" (Opcode.all.map Opcode.name)) := by
  have hnames : Reports (listed "Opcode" Opcode.ofName?)
      (.name "Opcode" (Opcode.all.map Opcode.name)) :=
    reports_listed _ fun _ ↦ isSome_find?_iff
  intro v hv
  cases v with
  | str s => exact (hnames (.str s) rfl).map Operation.named
  | unpaired ps => exact (hnames (.unpaired ps) rfl).map Operation.named
  | int n => rfl
  | _ => simp [Rule.nameOr, Json.isText, Json.isInt] at hv

theorem reports_condition : Reports condition (.name "ConditionCode" conditionNames) := by
  refine (reports_listed "ConditionCode" fun s ↦ ?_).map _
  rw [Condition.ofName?, Option.isSome_or, Bool.or_eq_true, isSome_find?_iff, conditionNames,
    List.mem_append, isSome_lookup_iff]

/-! ### Rules for members -/

section Members

variable {decode : Json → Except DecodeFault α} {rule : Rule} {key : String}
  {ms : List (String × Json)}

/-- A member that is not looked at has no fault. -/
@[simp] theorem Member.faults_optional_free (key : String) (isType : Json → Bool) :
    (Member.optional key (.free isType)).faults ms = [] := by
  rw [Member.faults]
  split
  · rfl
  · rfl

theorem Finds.free {x : Except DecodeFault α} (isType : Json → Bool) (h : Finds x fs) :
    Finds x ((Member.optional key (.free isType)).faults ms ++ fs) := by
  rwa [Member.faults_optional_free]

theorem Finds.required {k : α → Except DecodeFault β} (h : Reports decode rule)
    (ht : (Member.required key rule).isTyped ms = true) (hk : ∀ a, Finds (k a) fs) :
    Finds (Exchange.required key ms >>= fun v ↦ decode v >>= k)
      ((Member.required key rule).faults ms ++ fs) := by
  rw [Member.faults, Member.value?_required, Exchange.required]
  cases hv : Json.lookup key ms with
  | none => rfl
  | some v => exact (h v (Member.isTyped_of_value? ht (by simpa using hv))).bind fun a _ ↦ hk a

theorem Finds.optional {k : α → Except DecodeFault β} {a : α} (h : Reports decode rule)
    (ht : (Member.optional key rule).isTyped ms = true) (hk : ∀ a, Finds (k a) fs) :
    Finds (match Json.lookup key ms with | some v => decode v >>= k | none => .ok a >>= k)
      ((Member.optional key rule).faults ms ++ fs) := by
  rw [Member.faults, Member.value?_optional]
  cases hv : Json.lookup key ms with
  | none => exact hk a
  | some v => exact (h v (Member.isTyped_of_value? ht (by simpa using hv))).bind fun a _ ↦ hk a

theorem Finds.defaulting {k : α → Except DecodeFault β} {d : Json} (h : Reports decode rule)
    (ht : (Member.defaulting key d rule).isTyped ms = true) (hk : ∀ a, Finds (k a) fs) :
    Finds (decode ((Json.lookup key ms).getD d) >>= k)
      ((Member.defaulting key d rule).faults ms ++ fs) := by
  rw [Member.faults, Member.value?_defaulting]
  exact (h _ (Member.isTyped_of_value? ht (by simp))).bind fun a _ ↦ hk a

/-- A decoder of an object follows the members of its rule. -/
theorem reports_object {members : List Member} {k : List (String × Json) → Except DecodeFault α}
    (h : ∀ ms, (∀ m ∈ members, m.isTyped ms = true) →
      Finds (k ms) (members.flatMap fun m ↦ m.faults ms)) :
    Reports (fun v ↦ Exchange.members v >>= k) (.object members) := by
  intro v hv
  cases v with
  | obj ms => exact h ms (List.all_eq_true.1 hv)
  | _ => cases hv

end Members

/-! ### Operands -/

theorem reports_register : Reports register registerRule := by
  refine reports_object fun ms ht ↦ ?_
  refine Finds.required reports_registerNumber (ht _ (by simp)) fun number ↦ ?_
  simp [integerRule, Finds, pure, Except.pure]

theorem reports_shift : Reports shift shiftRule := by
  refine reports_object fun ms ht ↦ ?_
  refine Finds.required reports_shiftKind (ht _ (by simp)) fun kind ↦ ?_
  simp [integerRule, Finds, pure, Except.pure]

theorem reports_extend : Reports extend extendRule := by
  refine reports_object fun ms ht ↦ ?_
  refine Finds.required reports_extendKind (ht _ (by simp)) fun kind ↦ ?_
  simp [integerRule, Finds, pure, Except.pure]

theorem reports_systemRegister : Reports systemRegister systemRegisterRule := by
  refine reports_object fun ms ht ↦ ?_
  refine Finds.required reports_systemRegisterName (ht _ (by simp)) fun name ↦ ?_
  simp [integerRule, Finds, pure, Except.pure]

/-- Two integers make an immediate unless the value or the width is out of range. -/
theorem finds_ofNumbers (n m : Int) :
    Finds ((Immediate.ofNumbers (.int n) (.int m)).mapError .immediate)
      ((Rule.bounded 0 maxValue .value).faults (.int n) ++
        (Rule.bounded 1 64 .width).faults (.int m)) := by
  simp only [Immediate.ofNumbers, Number.atMost_int, Number.less_int, decide_eq_true_eq,
    Rule.bounded]
  split
  · split
    · rw [if_pos (by omega)]
      rfl
    · rw [if_neg (by omega)]
      rfl
  · rfl

/-- The value of an immediate is looked at before its width, and again together with it. -/
theorem reports_immediate : Reports immediate immediateRule := by
  refine reports_object fun ms ht ↦ ?_
  simp only [List.forall_mem_cons, Member.isTyped, Member.value?_required,
    Member.value?_defaulting, Option.all_some] at ht
  obtain ⟨hvalue, hsize, -⟩ := ht
  obtain ⟨m, hm⟩ := Json.isInt_iff.1 hsize
  rw [List.flatMap_cons, List.flatMap_singleton, Member.faults, Member.faults,
    Member.value?_required, Member.value?_defaulting, required]
  cases hv : Json.lookup "value" ms with
  | none => rfl
  | some v =>
    rw [hv] at hvalue
    obtain ⟨n, rfl⟩ := Json.isInt_iff.1 hvalue
    simp only [optional, hm, number]
    have hfirst : Finds ((Immediate.ofNumbers (.int n) (.int 64)).mapError .immediate)
        ((Rule.bounded 0 maxValue .value).faults (.int n)) := by
      simpa [Rule.bounded] using finds_ofNumbers n 64
    refine hfirst.bind fun imm himm ↦ ?_
    -- The value has passed, so the second look at it finds only the width.
    have hnone := hfirst.exists_ok_iff.1 ⟨imm, himm⟩
    have hboth := finds_ofNumbers n m
    rwa [hnone, List.nil_append] at hboth

theorem reports_immediateOffset : Reports immediateOffset immediateOffsetRule := by
  refine reports_object fun ms ht ↦ ?_
  refine Finds.required reports_register (ht _ (by simp)) fun base ↦ ?_
  refine Finds.required reports_immediate (ht _ (by simp)) fun offset ↦ ?_
  refine Finds.optional reports_shift (ht _ (by simp)) fun modifier ↦ ?_
  simp [integerRule, flagRule, Finds, pure, Except.pure]

theorem reports_registerOffset : Reports registerOffset registerOffsetRule := by
  refine reports_object fun ms ht ↦ ?_
  refine Finds.required reports_register (ht _ (by simp)) fun base ↦ ?_
  refine Finds.required reports_register (ht _ (by simp)) fun offset ↦ ?_
  refine Finds.optional reports_extend (ht _ (by simp)) fun modifier ↦ ?_
  simp [integerRule, flagRule, Finds, pure, Except.pure]

/-- A type selects a decoder as it selects a rule. -/
theorem finds_operandOfType {t v : Json}
    (ht : ∀ rule, Rule.select? operandRules t = some rule → rule.isTyped v = true) :
    Finds (operandOfType t v)
      (match Rule.select? operandRules t with
      | none => [.unknownType t]
      | some rule => rule.faults v) := by
  unfold operandOfType
  split
  · exact (reports_register v (ht _ rfl)).map _
  · exact (reports_immediate v (ht _ rfl)).map _
  · exact (reports_systemRegister v (ht _ rfl)).map _
  · exact (reports_shift v (ht _ rfl)).map _
  · exact (reports_extend v (ht _ rfl)).map _
  · exact (reports_immediateOffset v (ht _ rfl)).map _
  · exact (reports_registerOffset v (ht _ rfl)).map _
  · have hnone : Rule.select? operandRules t = none := by
      cases t with
      | str s =>
        simp_all only [Json.str.injEq, Rule.select?, operandRules, List.lookup_eq_none_iff]
        simp_all
      | _ => rfl
    rw [hnone]
    rfl

theorem reports_operand : Reports operand operandRule := by
  intro v hv
  cases v with
  | obj ms =>
    show Finds (required "type" ms >>= fun t ↦ operandOfType t (.obj ms)) _
    simp only [operandRule, Rule.tagged, required] at hv ⊢
    cases ht : Json.lookup "type" ms with
    | none => rfl
    | some t =>
      simp only [ht, Option.all_some, Bool.and_eq_true, Option.all_eq_true] at hv
      exact finds_operandOfType hv.2
  | _ => cases hv

theorem reports_operandList : ∀ vs : List Json, (∀ v ∈ vs, operandRule.isTyped v = true) →
    Finds (operandList vs) (vs.flatMap operandRule.faults) := by
  intro vs ht
  induction vs with
  | nil => rfl
  | cons v vs ih =>
    obtain ⟨hv, hvs⟩ := List.forall_mem_cons.1 ht
    rw [List.flatMap_cons, ← List.append_nil (vs.flatMap _)]
    exact (reports_operand v hv).bind fun o _ ↦ (ih hvs).bind fun os _ ↦ rfl

theorem reports_operands : Reports operands (.list operandRule) := by
  intro v hv
  cases v with
  | arr vs => exact reports_operandList vs (List.all_eq_true.1 hv)
  | _ => cases hv

/-! ### Instructions -/

theorem reports_instruction : Reports instruction instructionRule := by
  refine reports_object fun ms ht ↦ ?_
  refine Finds.required reports_operation (ht _ (by simp)) fun op ↦ ?_
  refine Finds.optional reports_operands (ht _ (by simp)) fun os ↦ ?_
  refine Finds.free Json.isBool ?_
  exact Finds.defaulting reports_condition (ht _ (by simp [Member.defaulting])) fun cc ↦ rfl

/-- Decoding accepts an object whose members have the types of the schema exactly if the schema
accepts it. It fails with the first thing that is wrong in the order of the schema, and this is an
absent member, a name outside its list, a type of operand that does not exist or a number out of
range. -/
theorem instruction_accepts_iff {v : Json} (h : instructionRule.isTyped v = true) :
    ((∃ i, instruction v = .ok i) ↔ instructionRule.Accepts v) ∧
      (∀ f, instruction v = .error f ↔ (instructionRule.faults v).head? = some f) ∧
      ∀ f, instruction v = .error f → f.isSchematic = true := by
  have hfinds := reports_instruction v h
  refine ⟨?_, hfinds.eq_error_iff, fun f hf ↦ ?_⟩
  · rw [hfinds.exists_ok_iff, instructionRule.accepts_iff h]
  · exact instructionRule.isSchematic_of_mem
      (List.mem_of_mem_head? ((hfinds.eq_error_iff f).1 hf))

/-- An instruction with several faults, of which the opcode and the first operand are free. -/
def crowded : Json :=
  .obj [("cc", .str "never"), ("opcode", .str "aDr"),
    ("operands", .arr [
      .obj [("type", .str "reg"), ("name", .int 7)],
      .obj [("type", .str "imm_offset"), ("base", .obj [("name", .str "sp")]),
        ("offset", .obj [("value", .int 8), ("size", .int 0)]), ("shift", .obj [])],
      .obj [("type", .str "mem")],
      .obj [("name", .str "x0")]])]

/-- The width of the offset is the first of five faults. -/
theorem instruction_accepts_iff_crowded :
    instructionRule.faults crowded =
        [.immediate (.width (.int 0)), .missing "shift", .unknownType (.str "mem"),
          .missing "type", .unknownName "ConditionCode" (.str "never")] ∧
      instruction crowded = .error (.immediate (.width (.int 0))) := by
  have htyped : instructionRule.isTyped crowded = true := by decide +kernel
  have hfaults : instructionRule.faults crowded =
      [.immediate (.width (.int 0)), .missing "shift", .unknownType (.str "mem"),
        .missing "type", .unknownName "ConditionCode" (.str "never")] := by
    decide +kernel
  exact ⟨hfaults, ((instruction_accepts_iff htyped).2.1 _).2 (congrArg List.head? hfaults)⟩

end A64Text.Exchange
