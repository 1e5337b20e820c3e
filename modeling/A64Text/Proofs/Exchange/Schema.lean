import A64Text.Exchange.Decode
import A64Text.Proofs.FieldTypes

/-!
# The schema of instructions

What a JSON value must be like to be an instruction is said here without decoding anything. A `Rule`
tells which values have the right type, which of those it accepts, and every fault that a value of
the right type has, in the order in which the schema lists what it checks. The three belong
together: a value of the right type is accepted exactly if it has no fault (`Rule.accepts_iff`), and
its faults are absent members, names outside their lists, types of operands that do not exist and
numbers out of range (`Rule.isSchematic_of_mem`).

Rules are put together from `Rule.free`, `Rule.bounded`, `Rule.name` and `Rule.nameOr` by
`Rule.object`, `Rule.tagged` and `Rule.list`, so each kind of operand is a table of its members. The
schema of an instruction is `instructionRule`.
-/

namespace A64Text

/-- Whether a value is a text. -/
def Json.isText : Json → Bool
  | str _ | unpaired _ => true
  | _ => false

namespace Exchange

/-- A fault that a value can have although all its members have the right type. -/
def DecodeFault.isSchematic : DecodeFault → Bool
  | missing _ | unknownName _ _ | unknownType _ | immediate _ => true
  | _ => false

/-- What a value has to be like. -/
structure Rule where
  /-- Whether a value has the right type. -/
  isTyped : Json → Bool
  /-- A value of the right type is as it should be. -/
  Accepts : Json → Prop
  /-- All that is wrong with a value of the right type, in the order of the checks. -/
  faults : Json → List DecodeFault
  accepts_iff : ∀ {v : Json}, isTyped v = true → (Accepts v ↔ faults v = [])
  isSchematic_of_mem : ∀ {v : Json} {f : DecodeFault}, f ∈ faults v → f.isSchematic = true

namespace Rule

/-! ### Single values -/

/-- A value of a type, whatever it is. -/
def free (isType : Json → Bool) : Rule where
  isTyped := isType
  Accepts _ := True
  faults _ := []
  accepts_iff _ := by simp
  isSchematic_of_mem h := by simp at h

/-- An integer within bounds. -/
def bounded (lower upper : Int) (fault : Number → Immediate.Fault) : Rule where
  isTyped := Json.isInt
  Accepts v := ∃ n, v = .int n ∧ lower ≤ n ∧ n ≤ upper
  faults
    | .int n => if lower ≤ n ∧ n ≤ upper then [] else [.immediate (fault (.int n))]
    | _ => []
  accepts_iff h := by
    obtain ⟨n, rfl⟩ := Json.isInt_iff.1 h
    simp
  isSchematic_of_mem {v f} h := by
    cases v with
    | int n =>
      simp only [List.mem_ite_nil_left, List.mem_singleton] at h
      rw [h.2]
      rfl
    | _ => simp at h

/-- A text that is one of a list of names in capitals, in any case. -/
def name (group : String) (names : List String) : Rule where
  isTyped := Json.isText
  Accepts v := ∃ s, v = .str s ∧ Text.upperName s ∈ names
  faults
    | .str s => if Text.upperName s ∈ names then [] else [.unknownName group (.str s)]
    | .unpaired ps => [.unknownName group (.unpaired ps)]
    | _ => []
  accepts_iff {v} h := by
    cases v with
    | str s => simp
    | unpaired ps => simp
    | _ => cases h
  isSchematic_of_mem {v f} h := by
    cases v with
    | str s =>
      simp only [List.mem_ite_nil_left, List.mem_singleton] at h
      rw [h.2]
      rfl
    | unpaired ps =>
      rw [List.mem_singleton.1 h]
      rfl
    | _ => simp at h

/-- An integer, whatever it is, or one of a list of names. -/
def nameOr (group : String) (names : List String) : Rule where
  isTyped v := v.isText || v.isInt
  Accepts v := v.isText = true → (name group names).Accepts v
  faults := (name group names).faults
  accepts_iff {v} h := by
    rcases Bool.or_eq_true_iff.1 h with htext | hint
    · rw [← (name group names).accepts_iff htext]
      exact ⟨fun h ↦ h htext, fun h _ ↦ h⟩
    · obtain ⟨n, rfl⟩ := Json.isInt_iff.1 hint
      simp [name, Json.isText]
  isSchematic_of_mem := (name group names).isSchematic_of_mem

end Rule

/-! ### Members -/

/-- A member of an object. -/
structure Member where
  key : String
  /-- What its value has to be like. -/
  rule : Rule
  /-- Whether the member must be there. -/
  isRequired : Bool := false
  /-- The value that counts if the member is absent. -/
  default? : Option Json := none

namespace Member

/-- A member that must be there. -/
def required (key : String) (rule : Rule) : Member := { key, rule, isRequired := true }

/-- A member that may be absent. -/
def optional (key : String) (rule : Rule) : Member := { key, rule }

/-- A member that may be absent, and then counts as a value. -/
def defaulting (key : String) (v : Json) (rule : Rule) : Member := { key, rule, default? := some v }

variable (m : Member) (ms : List (String × Json))

/-- The value that counts as the member. -/
def value? : Option Json := (Json.lookup m.key ms).or m.default?

/-- Whether the member has the right type, if it is there. -/
def isTyped : Bool := (m.value? ms).all m.rule.isTyped

/-- The member is there if it must be, and is as it should be if it is there. -/
def Accepts : Prop :=
  (m.isRequired = true → m.value? ms ≠ none) ∧ ∀ v, m.value? ms = some v → m.rule.Accepts v

/-- All that is wrong with the member. -/
def faults : List DecodeFault :=
  match m.value? ms with
  | some v => m.rule.faults v
  | none => if m.isRequired then [.missing m.key] else []

@[simp] theorem value?_required (key : String) (rule : Rule) :
    (required key rule).value? ms = Json.lookup key ms := Option.or_none

@[simp] theorem value?_optional (key : String) (rule : Rule) :
    (optional key rule).value? ms = Json.lookup key ms := Option.or_none

@[simp] theorem value?_defaulting (key : String) (v : Json) (rule : Rule) :
    (defaulting key v rule).value? ms = some ((Json.lookup key ms).getD v) := Option.or_some

variable {m ms}

theorem isTyped_of_value? (h : m.isTyped ms = true) {v : Json} (hv : m.value? ms = some v) :
    m.rule.isTyped v = true := by
  rwa [isTyped, hv] at h

theorem accepts_iff (h : m.isTyped ms = true) : m.Accepts ms ↔ m.faults ms = [] := by
  rw [Accepts, faults]
  cases hv : m.value? ms with
  | none => simp
  | some v => simp [m.rule.accepts_iff (isTyped_of_value? h hv)]

theorem isSchematic_of_mem {f : DecodeFault} (h : f ∈ m.faults ms) : f.isSchematic = true := by
  rw [faults] at h
  split at h
  · exact m.rule.isSchematic_of_mem h
  · simp only [List.mem_ite_nil_right, List.mem_singleton] at h
    rw [h.2]
    rfl

end Member

/-! ### Objects and lists -/

namespace Rule

/-- An object with these members; other members may be there. -/
def object (members : List Member) : Rule where
  isTyped
    | .obj ms => members.all fun m ↦ m.isTyped ms
    | _ => false
  Accepts
    | .obj ms => ∀ m ∈ members, m.Accepts ms
    | _ => False
  faults
    | .obj ms => members.flatMap fun m ↦ m.faults ms
    | _ => []
  accepts_iff {v} h := by
    cases v with
    | obj ms =>
      rw [List.flatMap_eq_nil_iff]
      exact forall₂_congr fun m hm ↦ Member.accepts_iff (List.all_eq_true.1 h m hm)
    | _ => cases h
  isSchematic_of_mem {v f} h := by
    cases v with
    | obj ms =>
      obtain ⟨m, -, hf⟩ := List.mem_flatMap.1 h
      exact Member.isSchematic_of_mem hf
    | _ => simp at h

/-- The rule that a type selects. -/
def select? (variants : List (String × Rule)) : Json → Option Rule
  | .str s => variants.lookup s
  | _ => none

/-- An object that names its type, and then has to be like an object of this type. Without a type
that exists there is nothing to be said about its other members. -/
def tagged (variants : List (String × Rule)) : Rule where
  isTyped
    | .obj ms =>
      (Json.lookup "type" ms).all fun t ↦
        t.isText && (select? variants t).all fun rule ↦ rule.isTyped (.obj ms)
    | _ => false
  Accepts
    | .obj ms => ∃ t rule, Json.lookup "type" ms = some t ∧ select? variants t = some rule ∧
        rule.Accepts (.obj ms)
    | _ => False
  faults
    | .obj ms =>
      match Json.lookup "type" ms with
      | none => [.missing "type"]
      | some t =>
        match select? variants t with
        | none => [.unknownType t]
        | some rule => rule.faults (.obj ms)
    | _ => []
  accepts_iff {v} h := by
    cases v with
    | obj ms =>
      dsimp only at h ⊢
      cases ht : Json.lookup "type" ms with
      | none => simp
      | some t =>
        cases hr : select? variants t with
        | none => simp [hr]
        | some rule =>
          have htyped : rule.isTyped (.obj ms) = true := by simp_all
          simp [hr, rule.accepts_iff htyped]
    | _ => cases h
  isSchematic_of_mem {v f} h := by
    cases v with
    | obj ms =>
      dsimp only at h
      split at h
      · rw [List.mem_singleton.1 h]
        rfl
      · split at h
        · rw [List.mem_singleton.1 h]
          rfl
        · rename_i rule _
          exact rule.isSchematic_of_mem h
    | _ => simp at h

/-- A list of values of one kind. -/
def list (item : Rule) : Rule where
  isTyped
    | .arr vs => vs.all item.isTyped
    | _ => false
  Accepts
    | .arr vs => ∀ v ∈ vs, item.Accepts v
    | _ => False
  faults
    | .arr vs => vs.flatMap item.faults
    | _ => []
  accepts_iff {v} h := by
    cases v with
    | arr vs =>
      rw [List.flatMap_eq_nil_iff]
      exact forall₂_congr fun v hv ↦ item.accepts_iff (List.all_eq_true.1 h v hv)
    | _ => cases h
  isSchematic_of_mem {v f} h := by
    cases v with
    | arr vs =>
      obtain ⟨w, -, hf⟩ := List.mem_flatMap.1 h
      exact item.isSchematic_of_mem hf
    | _ => simp at h

end Rule

/-! ### Operands -/

/-- A width, an amount or a field of an encoding. -/
def integerRule : Rule := .free Json.isInt

/-- A flag. -/
def flagRule : Rule := .free Json.isBool

/-- A register. -/
def registerRule : Rule :=
  .object [.required "name" (.nameOr "RegisterName" Register.names), .optional "size" integerRule]

/-- An immediate. -/
def immediateRule : Rule :=
  .object [.required "value" (.bounded 0 maxValue .value),
    .defaulting "size" (.int 64) (.bounded 1 64 .width)]

/-- A system register. -/
def systemRegisterRule : Rule :=
  .object [.required "name" (.name "SystemRegisterName"
      (SystemRegisterName.listed.map fun n ↦ Text.upperAscii n.spelling)),
    .optional "op0" integerRule, .optional "op1" integerRule, .optional "crn" integerRule,
    .optional "crm" integerRule, .optional "op2" integerRule]

/-- A shift. -/
def shiftRule : Rule :=
  .object [.required "shift" (.name "ShiftType"
      (ShiftKind.listed.map fun k ↦ Text.upperAscii k.keyword)),
    .optional "count" integerRule]

/-- An extend. -/
def extendRule : Rule :=
  .object [.required "extend" (.name "ExtendType"
      (ExtendKind.listed.map fun k ↦ Text.upperAscii k.keyword)),
    .optional "count" integerRule]

/-- An address with an immediate offset. -/
def immediateOffsetRule : Rule :=
  .object [.required "base" registerRule, .required "offset" immediateRule,
    .optional "shift" shiftRule, .optional "writeback" flagRule, .optional "post_index" flagRule,
    .optional "size" integerRule]

/-- An address with a register offset. -/
def registerOffsetRule : Rule :=
  .object [.required "base" registerRule, .required "offset" registerRule,
    .optional "extend" extendRule, .optional "writeback" flagRule, .optional "post_index" flagRule,
    .optional "size" integerRule]

/-- The types of operands. -/
def operandRules : List (String × Rule) :=
  [("reg", registerRule), ("imm", immediateRule), ("sysreg", systemRegisterRule),
    ("shift", shiftRule), ("extend", extendRule), ("imm_offset", immediateOffsetRule),
    ("reg_offset", registerOffsetRule)]

/-- An operand. -/
def operandRule : Rule := .tagged operandRules

/-! ### Instructions -/

/-- The names of conditions, with the synonyms. -/
def conditionNames : List String :=
  Condition.all.map Condition.name ++ Condition.synonyms.map Prod.fst

/-- An instruction. -/
def instructionRule : Rule :=
  .object [.required "opcode" (.nameOr "Opcode" (Opcode.all.map Opcode.name)),
    .optional "operands" (.list operandRule), .optional "set_flags" flagRule,
    .defaulting "cc" (.str "al") (.name "ConditionCode" conditionNames)]

end Exchange

end A64Text
