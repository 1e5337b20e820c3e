import A64Text.Proofs.Dependence
import A64Text.Proofs.Exchange.Names
import A64Text.Proofs.Recovery.Slots

/-!
# Control flow and the system, told apart by their lines

The opcodes that change the flow of control, and those of the system but the numbered hint and the
moves to and from system registers, have no aliases: each prints under a word of its own
(`Opcode.ofWord?_word`), and what it shows of its operands is what its slots show
(`Instruction.IsControl.shows`). A line says what the word and the terms are, so instructions that
print alike have one opcode, one condition if they branch under one, and operands that agree slot by
slot (`Instruction.control_agrees_of_text`).
-/

namespace A64Text

open Line Signature

/-! ### Opcodes and their slots -/

namespace Opcode

/-- Whether an opcode changes the flow of control or is one of the system's. The numbered hint and
the moves to and from system registers show operands of all kinds, and are left aside. -/
def isControl : Opcode → Bool
  | .conditionalBranch | .exceptionGeneration _ | .branchRegister _ | .branchImmediate _
  | .compareAndBranch _ | .testAndBranch _ => true
  | .system op => op.form ≠ .numberedHint && op.form ≠ .move
  | _ => false

/-- The slots for the operands of an opcode; without slots no operand is shown. -/
def slots : Opcode → List Slot
  | .conditionalBranch | .branchImmediate _ => [.offset]
  | .compareAndBranch _ => [.register none, .offset]
  | .testAndBranch _ => [.register none, .number none, .offset]
  | .exceptionGeneration op => if op.showsNumber then [.number none] else []
  | .branchRegister op =>
    match op.form with
    | .target => [.register none]
    | .return => [.register (some Register.linkNumber)]
    | .authenticated => [.register none, .register none]
    | .exceptionReturn => []
  | .system op =>
    match op.form with
    | .barrier => [.barrier]
    | .instructionBarrier => [.number (some 15)]
    | .write => [.number none, .field, .field, .number none, .register (some Register.zeroNumber)]
    | .read => [.register none, .number none, .field, .field, .number none]
    | _ => []
  | _ => []

theorem optionalLast_slots (op : Opcode) : Slot.optionalLast op.slots = true := by
  cases op with
  | exceptionGeneration op => cases op <;> rfl
  | branchRegister op => cases op <;> rfl
  | system op => cases op <;> rfl
  | _ => rfl

/-- The first word of a line. -/
def word (op : Opcode) (c : Condition) : String :=
  match op with
  | .conditionalBranch => "b." ++ c.text
  | .system .psbCsync => "psb"
  | op => Text.lowerAscii op.name

/-- The opcode with a first word. -/
def ofWord? (s : String) : Option Opcode :=
  if '.' ∈ s.toList then some .conditionalBranch
  else if s = "psb" then some (.system .psbCsync)
  else ofName? s

/-- No point stands in a listed name. -/
theorem point_not_mem_name (op : Opcode) : '.' ∉ (Text.lowerAscii op.name).toList := by
  intro hmem
  rw [Text.lowerAscii, String.toList_ofList] at hmem
  obtain ⟨c, hc, hpoint⟩ := List.mem_map.1 hmem
  have hne : c.toLower ≠ '.' :=
    Text.forall_isNameChar (by decide) (Text.isNameChar_of_mem op.isListedName_name hc)
  exact hne hpoint

/-- The first word of a line determines the opcode. -/
theorem ofWord?_word (op : Opcode) (c : Condition) : ofWord? (op.word c) = some op := by
  unfold word
  split
  · rw [ofWord?, if_pos (by simp)]
  · rfl
  · have hpsb : Text.lowerAscii op.name ≠ "psb" := by
      intro heq
      have hname : ofName? "psb" = some op := heq ▸ op.ofName?_lowerAscii
      have hnone : ofName? "psb" = none := by decide +kernel
      cases hname.symm.trans hnone
    rw [ofWord?, if_neg op.point_not_mem_name, if_neg hpsb, ofName?_lowerAscii]

end Opcode

/-! ### What is laid out -/

/-- An instruction that changes the flow of control or is one of the system's. Its fields hold
integers, its registers are the architecture's, and a branch that authenticates its target does so
with a register. -/
structure Instruction.IsControl (i : Instruction) (op : Opcode) : Prop where
  opcode : i.opcode? = some op
  family : i.operation.family? = some op.family
  control : op.isControl = true
  integers : i.hasIntegers = true
  registers : ∀ o ∈ i.operands, o.kind = .register → o.IsGeneral
  authenticated : ∀ op', op = .branchRegister op' → op'.form = .authenticated →
    ∀ o ∈ i.operands, o.kind = .register

/-- A layout that shows what the slots of an opcode show. -/
structure Layout.Shows (l : Layout) (op : Opcode) (i : Instruction) : Prop where
  mnemonic : op ≠ .system .psbCsync → l.mnemonic = op.word i.conditionOf
  parts : List.Forall₂ Part.ReadsAlone l.parts (Slot.shown op.slots i.operands)
  fits : op.slots ≠ [] → List.Forall₂ Slot.Fits op.slots i.operands

theorem Part.readsAlone_givenField {imm : Immediate} (h : imm.hasIntegers = true) :
    (Part.field "C" (.ofNumber imm.given)).ReadsAlone ⟨some (fieldName imm.value), none⟩ := by
  rw [Immediate.given_eq_value h]
  exact readsAlone_field _

/-- The fields of a system instruction are read one by one. -/
theorem Layout.readsAlone_systemFields {op1 crn crm op2 : Immediate}
    (h : ∀ imm ∈ [op1, crn, crm, op2], imm.hasIntegers = true) :
    List.Forall₂ Part.ReadsAlone (systemFields op1 crn crm op2)
      [⟨none, some op1.value⟩, ⟨some (fieldName crn.value), none⟩,
        ⟨some (fieldName crm.value), none⟩, ⟨none, some op2.value⟩] :=
  .cons (Part.readsAlone_given (h op1 (by simp))) <|
    .cons (Part.readsAlone_givenField (h crn (by simp))) <|
      .cons (Part.readsAlone_givenField (h crm (by simp))) <|
        .cons (Part.readsAlone_given (h op2 (by simp))) .nil

section

variable {i : Instruction} {op : Opcode} {m : String}

/-- A layout of operands by their slots. -/
theorem Layout.shows_of_slots {parts : List Part} {os : List Operand}
    (hos : i.operands = os) (hm : m = op.word i.conditionOf)
    (hparts : List.Forall₂ Part.ReadsAlone parts (Slot.shown op.slots os))
    (hfits : List.Forall₂ Slot.Fits op.slots os) : Shows ⟨m, parts⟩ op i where
  mnemonic _ := hm
  parts := by rwa [hos]
  fits _ := by rwa [hos]

/-- A layout that shows no operand. -/
theorem Layout.shows_nil (hslots : op.slots = [])
    (hm : op ≠ .system .psbCsync → m = op.word i.conditionOf) : Shows ⟨m, []⟩ op i where
  mnemonic := hm
  parts := by
    rw [hslots, Slot.shown_nil]
    exact .nil
  fits h := absurd hslots h

end

namespace Instruction.IsControl

variable {i : Instruction} {l : Layout}

theorem shows_exceptionGeneration {op : ExceptionOp} (h : i.IsControl (.exceptionGeneration op))
    (haccepts : (Opcode.exceptionGeneration op).signature.accepts i.kinds = true)
    (hl : Layout.exceptionGeneration i = .ok l) : l.Shows (.exceptionGeneration op) i := by
  obtain ⟨imm, _, hos, rfl⟩ := starts_immediate ends haccepts
  have himm : imm.hasIntegers = true := i.immediate_hasIntegers h.integers (by simp [hos])
  simp only [Layout.exceptionGeneration, h.opcode, hos] at hl
  obtain rfl := Except.ok.inj hl
  cases hshows : op.showsNumber with
  | false => exact Layout.shows_nil (by simp [Opcode.slots, hshows]) fun _ ↦ rfl
  | true =>
    exact Layout.shows_of_slots hos rfl
      (by simp [Opcode.slots, hshows, Slot.shown, Slot.term?, Part.readsAlone_given himm])
      (by simp [Opcode.slots, hshows])

theorem shows_branchRegister {op : BranchRegisterOp} (h : i.IsControl (.branchRegister op))
    (haccepts : (Opcode.branchRegister op).signature.accepts i.kinds = true)
    (hl : Layout.branchRegister i = .ok l) : l.Shows (.branchRegister op) i := by
  rw [Opcode.signature, op.signature_eq] at haccepts
  simp only [Layout.branchRegister, h.opcode] at hl
  cases hform : op.form with
  | target =>
    rw [hform] at haccepts hl
    obtain ⟨rn, _, hos, rfl⟩ := starts_register ends haccepts
    have hrn : rn.IsGeneral := h.registers (.register rn) (by simp [hos]) rfl
    simp only [Layout.firstRegister, hos] at hl
    obtain rfl := Except.ok.inj hl
    exact Layout.shows_of_slots hos rfl (by simp [Opcode.slots, hform, Slot.shown, Slot.term?])
      (by simp [Opcode.slots, hform, hrn])
  | «return» =>
    rw [hform] at haccepts hl
    obtain ⟨rn, _, hos, rfl⟩ := starts_register ends haccepts
    have hrn : rn.IsGeneral := h.registers (.register rn) (by simp [hos]) rfl
    simp only [Layout.firstRegister, hos] at hl
    obtain rfl := Except.ok.inj hl
    refine Layout.shows_of_slots hos rfl ?_ (by simp [Opcode.slots, hform, hrn])
    by_cases hlink : rn.number = Register.linkNumber
    · simp [Opcode.slots, hform, Slot.shown, Slot.term?, hlink]
    · simp [Opcode.slots, hform, Slot.shown, Slot.term?, hlink, Ne.symm hlink]
  | authenticated =>
    rw [hform] at haccepts hl
    obtain ⟨rn, _, hos, o, _, rfl, rfl⟩ := starts_register (starts_any ends) haccepts
    have hkind : o.kind = .register := h.authenticated op rfl hform o (by simp [hos])
    obtain ⟨rm, rfl⟩ : ∃ rm : Register, o = .register rm := by
      cases o with
      | register rm => exact ⟨rm, rfl⟩
      | _ => cases hkind
    have hrn : rn.IsGeneral := h.registers (.register rn) (by simp [hos]) rfl
    have hrm : rm.IsGeneral := h.registers (.register rm) (by simp [hos]) rfl
    simp only [Layout.firstRegister, hos] at hl
    obtain rfl := Except.ok.inj hl
    exact Layout.shows_of_slots hos rfl (by simp [Opcode.slots, hform, Slot.shown, Slot.term?])
      (by simp [Opcode.slots, hform, hrn, hrm])
  | exceptionReturn =>
    rw [hform] at hl
    obtain rfl := Except.ok.inj hl
    exact Layout.shows_nil (by simp [Opcode.slots, hform]) fun _ ↦ rfl

theorem shows_system {op : SystemOp} (h : i.IsControl (.system op))
    (haccepts : (Opcode.system op).signature.accepts i.kinds = true)
    (hl : Layout.system i = .ok l) : l.Shows (.system op) i := by
  have hpsb : op ≠ .psbCsync → op.mnemonic = (Opcode.system op).word i.conditionOf := by
    intro hpsb
    cases op <;> first | rfl | exact absurd rfl hpsb
  have hm : op.form ≠ .hint → op.mnemonic = (Opcode.system op).word i.conditionOf := by
    refine fun hform ↦ hpsb ?_
    rintro rfl
    exact hform rfl
  rw [Opcode.signature, op.signature_eq] at haccepts
  simp only [Layout.system, h.opcode] at hl
  cases hform : op.form with
  | hint =>
    rw [hform] at hl
    obtain rfl := Except.ok.inj hl
    exact Layout.shows_nil (by simp [Opcode.slots, hform]) fun hne ↦ hpsb (by simpa using hne)
  | numberedHint =>
    have hcontrol := h.control
    simp [Opcode.isControl, hform] at hcontrol
  | move =>
    have hcontrol := h.control
    simp [Opcode.isControl, hform] at hcontrol
  | barrier =>
    rw [hform] at haccepts hl
    obtain ⟨option, _, hos, rfl⟩ := starts_immediate ends haccepts
    have hoption : option.hasIntegers = true := i.immediate_hasIntegers h.integers (by simp [hos])
    obtain ⟨p, hp, halone⟩ := Barrier.readsAlone option.value
    simp only [hos, Immediate.given_eq_value hoption, hp] at hl
    obtain rfl := Except.ok.inj hl
    exact Layout.shows_of_slots hos (hm (by simp [hform]))
      (by simp [Opcode.slots, hform, Slot.shown, Slot.term?, halone])
      (by simp [Opcode.slots, hform])
  | instructionBarrier =>
    rw [hform] at haccepts hl
    obtain ⟨option, _, hos, rfl⟩ := starts_immediate ends haccepts
    have hoption : option.hasIntegers = true := i.immediate_hasIntegers h.integers (by simp [hos])
    simp only [hos, Immediate.given_eq_value hoption, Layout.fullBarrierOption,
      Number.equals_int] at hl
    obtain rfl := Except.ok.inj hl
    refine Layout.shows_of_slots hos (hm (by simp [hform])) ?_ (by simp [Opcode.slots, hform])
    by_cases hfull : option.value = 15
    · simp [Opcode.slots, hform, Slot.shown, Slot.term?, hfull]
    · have hint : (option.value : Int) ≠ 15 := by omega
      simp [Opcode.slots, hform, Slot.shown, Slot.term?, hint, Ne.symm hfull,
        Part.readsAlone_decimal]
  | write =>
    rw [hform] at haccepts hl
    obtain ⟨op1, _, hos, crn, _, rfl, crm, _, rfl, op2, _, rfl, rt, _, rfl, rfl⟩ :=
      starts_immediate (starts_immediate (starts_immediate (starts_immediate
        (starts_register ends)))) haccepts
    have hrt : rt.IsGeneral := h.registers (.register rt) (by simp [hos]) rfl
    have hfields : ∀ imm ∈ [op1, crn, crm, op2], imm.hasIntegers = true :=
      fun imm himm ↦ i.immediate_hasIntegers h.integers (by rw [hos]; simp_all)
    simp only [hos] at hl
    obtain rfl := Except.ok.inj hl
    refine Layout.shows_of_slots hos (hm (by simp [hform])) ?_ (by simp [Opcode.slots, hform, hrt])
    simp only [Opcode.slots, hform]
    refine List.rel_append (Layout.readsAlone_systemFields hfields) ?_
    by_cases hzero : rt.number = Register.zeroNumber
    · simp [Slot.shown, Slot.term?, Register.isZero, hzero]
    · simp [Slot.shown, Slot.term?, Register.isZero, hzero, Ne.symm hzero]
  | read =>
    rw [hform] at haccepts hl
    obtain ⟨rt, _, hos, op1, _, rfl, crn, _, rfl, crm, _, rfl, op2, _, rfl, rfl⟩ :=
      starts_register (starts_immediate (starts_immediate (starts_immediate
        (starts_immediate ends)))) haccepts
    have hrt : rt.IsGeneral := h.registers (.register rt) (by simp [hos]) rfl
    have hfields : ∀ imm ∈ [op1, crn, crm, op2], imm.hasIntegers = true :=
      fun imm himm ↦ i.immediate_hasIntegers h.integers (by rw [hos]; simp_all)
    simp only [hos] at hl
    obtain rfl := Except.ok.inj hl
    refine Layout.shows_of_slots hos (hm (by simp [hform])) ?_ (by simp [Opcode.slots, hform, hrt])
    simp only [Opcode.slots, hform]
    exact .cons (Part.readsAlone_register rt) (Layout.readsAlone_systemFields hfields)

/-- What is laid out of a control instruction is what its slots show. -/
theorem shows {op : Opcode} (h : i.IsControl op) (hkey : i.operation.isKey = true)
    (hl : op.family.layout i = .ok l) : l.Shows op i := by
  obtain ⟨haccepts, -⟩ := Opcode.accepts_of_layout h.integers hkey h.opcode hl
  have hop := h.opcode
  cases op with
  | exceptionGeneration op => exact h.shows_exceptionGeneration haccepts hl
  | branchRegister op => exact h.shows_branchRegister haccepts hl
  | system op => exact h.shows_system haccepts hl
  | conditionalBranch =>
    obtain ⟨offset, _, hos, rfl⟩ := starts_immediate ends haccepts
    simp only [Opcode.family, Family.layout, Layout.conditionalBranch, hop, hos] at hl
    obtain rfl := Except.ok.inj hl
    exact Layout.shows_of_slots hos rfl (by simp [Opcode.slots, Slot.shown, Slot.term?])
      (by simp [Opcode.slots])
  | branchImmediate op =>
    obtain ⟨offset, _, hos, rfl⟩ := starts_immediate ends haccepts
    cases op with
    | _ =>
      simp only [Opcode.family, Family.layout, Layout.branchImmediate, hop, hos] at hl
      obtain rfl := Except.ok.inj hl
      exact Layout.shows_of_slots hos rfl (by simp [Opcode.slots, Slot.shown, Slot.term?])
        (by simp [Opcode.slots])
  | compareAndBranch op =>
    obtain ⟨rt, _, hos, offset, _, rfl, rfl⟩ := starts_register (starts_immediate ends) haccepts
    have hrt : rt.IsGeneral := h.registers (.register rt) (by simp [hos]) rfl
    cases op with
    | _ =>
      simp only [Opcode.family, Family.layout, Layout.compareAndBranch, hop, hos] at hl
      obtain rfl := Except.ok.inj hl
      exact Layout.shows_of_slots hos rfl (by simp [Opcode.slots, Slot.shown, Slot.term?])
        (by simp [Opcode.slots, hrt])
  | testAndBranch op =>
    obtain ⟨rt, _, hos, bit, _, rfl, offset, _, rfl, rfl⟩ :=
      starts_register (starts_immediate (starts_immediate ends)) haccepts
    have hrt : rt.IsGeneral := h.registers (.register rt) (by simp [hos]) rfl
    have hbit : bit.hasIntegers = true := i.immediate_hasIntegers h.integers (by simp [hos])
    cases op with
    | _ =>
      simp only [Opcode.family, Family.layout, Layout.testAndBranch, hop, hos] at hl
      obtain rfl := Except.ok.inj hl
      exact Layout.shows_of_slots hos rfl
        (by simp [Opcode.slots, Slot.shown, Slot.term?, Part.readsAlone_given hbit])
        (by simp [Opcode.slots, hrt])
  | _ => cases h.control

/-- A line says what the word and, if there are slots, what the operands of a control instruction
are. -/
theorem read {op : Opcode} {s : String} (h : i.IsControl op) (htext : i.text = .ok s) :
    ∃ line, Line.read s = .ok line ∧ line.mnemonic = op.word i.conditionOf ∧
      (op.slots ≠ [] → List.Forall₂ Slot.Fits op.slots i.operands ∧
        line.operands = (Slot.shown op.slots i.operands).map .term) := by
  obtain ⟨hkey, l, hl, rfl⟩ := layout_of_text h.integers h.family htext
  obtain ⟨-, hderives⟩ := Opcode.accepts_of_layout h.integers hkey h.opcode hl
  have hshows := h.shows hkey hl
  by_cases hpsb : op = .system .psbCsync
  · subst hpsb
    obtain rfl := Except.ok.inj ((Layout.system_psbCsync h.opcode).symm.trans hl)
    exact ⟨_, read_psbCsync, rfl, fun hslots ↦ absurd rfl hslots⟩
  have hm : IsMnemonic l.mnemonic := by
    refine hderives.mnemonic.resolve_right fun hpsb' ↦ hpsb ?_
    exact Option.some.inj (h.opcode.symm.trans hpsb'.1)
  by_cases hslots : op.slots = []
  · have hparts : l.parts = [] := by
      have hparts := hshows.parts
      rw [hslots, Slot.shown_nil] at hparts
      exact List.forall₂_nil_right_iff.1 hparts
    exact ⟨_, Layout.read_text_nil hparts hm, hshows.mnemonic hpsb, absurd hslots⟩
  · have hfits := hshows.fits hslots
    have hplain := Slot.Fits.forall_plain hfits
    have hnat : i.hasNaturals = true := List.all_eq_true.2 fun o ho ↦ (hplain o ho).1
    have hfirst : i.operands.head?.any Operand.isModifier = false := by
      rw [Option.any_eq_false]
      exact fun o ho ↦ by simp [hplain o (List.mem_of_head? ho)]
    have hread := hderives.read_text h.integers hnat hfirst hm
    rw [Part.ReadsAlone.fuseItems_readings hshows.parts] at hread
    exact ⟨_, hread, hshows.mnemonic hpsb, fun _ ↦ ⟨hfits, rfl⟩⟩

end Instruction.IsControl

/-! ### Instructions that print alike -/

/-- Control instructions that print alike have one opcode, conditions that are spelled alike if they
branch under one, and operands that agree in all that is shown of them. -/
theorem Instruction.control_agrees_of_text {i j : Instruction} {op op' : Opcode} {s : String}
    (hi : i.IsControl op) (hj : j.IsControl op') (htext : i.text = .ok s)
    (htext' : j.text = .ok s) :
    op = op' ∧
      (op = .conditionalBranch → i.condition % 16 = j.condition % 16 ∨
        14 ≤ i.condition % 16 ∧ 14 ≤ j.condition % 16) ∧
      (op.slots ≠ [] → Slot.Agree op.slots i.operands j.operands) := by
  obtain ⟨line, hread, hword, hoperands⟩ := hi.read htext
  obtain ⟨line', hread', hword', hoperands'⟩ := hj.read htext'
  obtain rfl := Except.ok.inj (hread.symm.trans hread')
  have hsame : op.word i.conditionOf = op'.word j.conditionOf := hword.symm.trans hword'
  obtain rfl : op = op' := by
    refine Option.some.inj ?_
    rw [← op.ofWord?_word i.conditionOf, hsame, op'.ofWord?_word]
  refine ⟨rfl, ?_, fun hslots ↦ ?_⟩
  · rintro rfl
    have hcondition : "b." ++ i.conditionOf.text = "b." ++ j.conditionOf.text := hsame
    exact (Condition.text_ofLowBits_eq_iff _ _).1 ((String.append_right_inj _).1 hcondition)
  · obtain ⟨hfits, hshown⟩ := hoperands hslots
    obtain ⟨hfits', hshown'⟩ := hoperands' hslots
    refine Slot.agree_of_shown_eq op.optionalLast_slots hfits hfits' ?_
    exact List.map_injective_iff.2 (fun _ _ ↦ Item.term.inj) (hshown.symm.trans hshown')

/-- A write to the system with the zero register. -/
def systemWrite : Instruction where
  operation := .named (.system .sys)
  operands := [.immediate (.ofNats 3 3 (by decide) (by decide)),
    .immediate (.ofNats 7 4 (by decide) (by decide)),
    .immediate (.ofNats 5 4 (by decide) (by decide)),
    .immediate (.ofNats 1 3 (by decide) (by decide)), .register ⟨31, .int 64⟩]

/-- A write to the system with the narrow zero register, and fields of the full width. -/
def narrowSystemWrite : Instruction where
  operation := .named (.system .sys)
  operands := [.immediate (.ofNats 3 64 (by decide) (by decide)),
    .immediate (.ofNats 7 64 (by decide) (by decide)),
    .immediate (.ofNats 5 64 (by decide) (by decide)),
    .immediate (.ofNats 1 64 (by decide) (by decide)), .register ⟨31, .int 32⟩]
  setFlags := .bool true
  condition := 3

/-- Two writes that differ in all that is not shown of them print alike, and agree. -/
theorem Instruction.control_agrees_of_text_writes :
    systemWrite.IsControl (.system .sys) ∧ narrowSystemWrite.IsControl (.system .sys) ∧
      systemWrite.text = .ok "sys #3, C7, C5, #1" ∧
      narrowSystemWrite.text = .ok "sys #3, C7, C5, #1" ∧
      Slot.Agree (Opcode.system .sys).slots systemWrite.operands narrowSystemWrite.operands := by
  have hi : systemWrite.IsControl (.system .sys) :=
    ⟨rfl, by decide +kernel, rfl, rfl, by decide, by simp⟩
  have hj : narrowSystemWrite.IsControl (.system .sys) :=
    ⟨rfl, by decide +kernel, rfl, rfl, by decide, by simp⟩
  have htext : systemWrite.text = .ok "sys #3, C7, C5, #1" := by decide +kernel
  have htext' : narrowSystemWrite.text = .ok "sys #3, C7, C5, #1" := by decide +kernel
  exact ⟨hi, hj, htext, htext', (control_agrees_of_text hi hj htext htext').2.2 (by decide)⟩

end A64Text
