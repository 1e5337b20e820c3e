import A64Text.Proofs.Layout.Text
import A64Text.Proofs.Recovery.Losses

/-!
# What depends on the flag-setting bit and on the condition

An instruction carries a flag-setting bit and a condition code whatever its opcode is, and most
opcodes print without looking at either. Those that have a form that sets flags show the bit in
their mnemonic (`Opcode.mem_flagMnemonics_iff`), with one exception: an addition or subtraction
of an immediate whose result is for the zero register, or that moves the stack pointer, prints alike
with and without the bit. Those that test a condition show it at the end of the mnemonic or as the
last part (`OpenLayout`), and two codes print alike exactly if they stand for one condition.

Both halves are two-run statements and come from one-run ones: what an instruction prints says what
its bit and its condition were (`Instruction.text_shows_flags_and_condition`).
-/

namespace A64Text

variable {i : Instruction}

/-! ### Instructions that differ in one field -/

namespace Instruction

/-- The same instruction with another flag-setting bit. -/
def withFlags (i : Instruction) (v : Json) : Instruction := { i with setFlags := v }

/-- The same instruction with another condition code. -/
def withCondition (i : Instruction) (c : Int) : Instruction := { i with condition := c }

variable (i) (v : Json) (c : Int)

@[simp] theorem opcode?_withFlags : (i.withFlags v).opcode? = i.opcode? := rfl

@[simp] theorem operands_withFlags : (i.withFlags v).operands = i.operands := rfl

@[simp] theorem setsFlags_withFlags : (i.withFlags v).setsFlags = v.isTruthy := rfl

@[simp] theorem unhandledFault_withFlags (family : String) :
    (i.withFlags v).unhandledFault family = i.unhandledFault family := rfl

@[simp] theorem shapeFault_withFlags (kinds : List Operand.Kind) :
    (i.withFlags v).shapeFault kinds = i.shapeFault kinds := rfl

@[simp] theorem opcode?_withCondition : (i.withCondition c).opcode? = i.opcode? := rfl

@[simp] theorem operands_withCondition : (i.withCondition c).operands = i.operands := rfl

end Instruction

/-- Layouts that are the same in every family make tokens that are. -/
theorem Instruction.tokens_congr {i j : Instruction} (hop : i.operation = j.operation)
    (h : ∀ f : Family, f.layout i = f.layout j) : i.tokens = j.tokens := by
  simp only [tokens, Family.tokens, hop, h]

/-! ### The flag-setting bit -/

/-- An opcode that has no form that sets flags is laid out without a look at the bit. -/
theorem Family.layout_withFlags (f : Family)
    (h : ∀ op, i.opcode? = some op → op.hasFlagForm = false) (v w : Json) :
    f.layout (i.withFlags v) = f.layout (i.withFlags w) := by
  cases f
  case addSubtractImmediate | logicalImmediate | logicalShiftedRegister |
      addSubtractShiftedRegister | addSubtractExtendedRegister | addSubtractWithCarry =>
    simp only [layout, Layout.addSubtractImmediate, Layout.logicalImmediate,
      Layout.logicalShiftedRegister, Layout.addSubtractShiftedRegister,
      Layout.addSubtractExtendedRegister, Layout.addSubtractWithCarry,
      Instruction.opcode?_withFlags, Instruction.operands_withFlags,
      Instruction.unhandledFault_withFlags, Instruction.shapeFault_withFlags]
    split
    · -- The arms that look at the bit are those of opcodes with a form that sets flags.
      split
      all_goals first | rfl | exact absurd (h _ ‹_›) (by simp)
    · rfl
  all_goals rfl

/-- The mnemonics that set flags. -/
def flagMnemonics : List String :=
  ["tst", "ands", "bics", "cmp", "cmn", "negs", "subs", "adds", "ngcs", "sbcs", "adcs"]

/-- An addition or subtraction of an immediate that prints alike with and without flags: its result
is for the zero register, or it moves the stack pointer. -/
def Instruction.HidesFlags (i : Instruction) : Prop :=
  ∃ op rd rn imm s, i.opcode? = some (.addSubtractImmediate op) ∧
    i.operands = [.register rd, .register rn, .immediate imm, .shift s] ∧
    (rd.number = Register.zeroNumber ∨ imm.value = 0 ∧ rn.number = Register.stackNumber)

/-- The ending that sets flags makes a mnemonic one of those that set flags. -/
theorem mem_flagMnemonics_flagSuffix {m : String}
    (h : m ∉ flagMnemonics ∧ m ++ "s" ∈ flagMnemonics) (setsFlags : Bool) :
    m ++ Layout.flagSuffix setsFlags ∈ flagMnemonics ↔ setsFlags = true := by
  cases setsFlags with
  | false => simpa [Layout.flagSuffix] using h.1
  | true => simpa [Layout.flagSuffix] using h.2

namespace Layout

variable {l : Layout}

theorem mem_flagMnemonics_addSubtractImmediate {op : AddSubOp} (h : i.hasIntegers = true)
    (hop : i.opcode? = some (.addSubtractImmediate op)) (hhides : ¬ i.HidesFlags)
    (hl : addSubtractImmediate i = .ok l) : l.mnemonic ∈ flagMnemonics ↔ i.setsFlags = true := by
  simp only [addSubtractImmediate, hop] at hl
  split at hl
  · rename_i rd rn imm s hos
    have himm : imm.hasIntegers = true := i.immediate_hasIntegers h (by simp [hos])
    have hrd : ¬ rd.isZero = true := fun hzero ↦
      hhides ⟨op, rd, rn, imm, s, hop, hos, .inl (of_decide_eq_true hzero)⟩
    have hrn : ¬ (imm.given.isZero = true ∧ rn.isStack = true) := by
      rintro ⟨hgiven, hstack⟩
      refine hhides ⟨op, rd, rn, imm, s, hop, hos, .inr ⟨?_, of_decide_eq_true hstack⟩⟩
      simpa [Immediate.given_eq_value himm] using hgiven
    split at hl
    · rename_i hmove
      obtain rfl := Except.ok.inj hl
      obtain ⟨hflags, -⟩ := hmove.2.resolve_right fun hstack ↦ hrn ⟨hmove.1, hstack⟩
      simpa [flagMnemonics] using hflags
    · obtain rfl := Except.ok.inj hl
      cases op <;> exact mem_flagMnemonics_flagSuffix (by decide) _
  · cases hl

end Layout

/-- An opcode with a form that sets flags is laid out under a mnemonic that sets flags exactly if
its bit is set, unless the instruction hides it. -/
theorem Opcode.mem_flagMnemonics_iff {op : Opcode} {l : Layout} (h : i.hasIntegers = true)
    (hop : i.opcode? = some op) (hflag : op.hasFlagForm = true) (hhides : ¬ i.HidesFlags)
    (hl : op.family.layout i = .ok l) : l.mnemonic ∈ flagMnemonics ↔ i.setsFlags = true := by
  cases op
  case addSubtractImmediate op =>
    exact Layout.mem_flagMnemonics_addSubtractImmediate h hop hhides hl
  case logicalImmediate op | logicalShiftedRegister op | addSubtractShiftedRegister op |
      addSubtractExtendedRegister op | addSubtractWithCarry op =>
    cases op <;> simp only [hasFlagForm, Bool.false_eq_true] at hflag <;>
      simp only [family, Family.layout, Layout.logicalImmediate, Layout.logicalShiftedRegister,
        Layout.addSubtractShiftedRegister, Layout.addSubtractExtendedRegister,
        Layout.addSubtractWithCarry, hop] at hl <;>
      (repeat' split at hl) <;> cases hl
    -- A mnemonic that is no alias has its ending, and an alias is chosen by the bit.
    all_goals first
      | exact mem_flagMnemonics_flagSuffix (by decide) _
      | simp_all [flagMnemonics]
  all_goals cases hflag

/-- What hides its bit is laid out without a look at it. -/
theorem Instruction.HidesFlags.layout_withFlags (hhides : i.HidesFlags) (h : i.hasIntegers = true)
    (v w : Json) :
    Layout.addSubtractImmediate (i.withFlags v) = Layout.addSubtractImmediate (i.withFlags w) := by
  obtain ⟨op, rd, rn, imm, s, hop, hos, hzero | ⟨hvalue, hstack⟩⟩ := hhides
  · have hrd : rd.isZero = true ∧ rd.isStack = false := by
      simp [Register.isZero, Register.isStack, hzero, Register.zeroNumber, Register.stackNumber]
    simp only [Layout.addSubtractImmediate, opcode?_withFlags, operands_withFlags, hop, hos, hrd,
      Bool.false_eq_true, and_false, false_or, if_true]
  · have himm : imm.hasIntegers = true := i.immediate_hasIntegers h (by simp [hos])
    have hrn : rn.isStack = true := by simp [Register.isStack, hstack]
    have hgiven : imm.given.isZero = true := by simp [Immediate.given_eq_value himm, hvalue]
    simp only [Layout.addSubtractImmediate, opcode?_withFlags, operands_withFlags, hop, hos, hrn,
      hgiven, or_true, and_self, if_true]

/-- The mnemonic of an opcode with a form that sets flags is a word. -/
theorem Opcode.isMnemonic_of_hasFlagForm {op : Opcode} {l : Layout} (hop : i.opcode? = some op)
    (hflag : op.hasFlagForm = true) (hderives : l.Derives i) : IsMnemonic l.mnemonic := by
  refine hderives.mnemonic.resolve_right ?_
  rintro ⟨hpsb, -⟩
  obtain rfl := Option.some.inj (hop.symm.trans hpsb)
  cases hflag

/-- With the other bit, an instruction that prints still prints, and as the same text exactly if it
hides its bit. -/
theorem Instruction.text_withFlags {op : Opcode} {n : Int} {v w : Json} {s : String}
    (h : i.hasIntegers = true) (hn : i.operation.integer? = some n) (hop : i.opcode? = some op)
    (hflag : op.hasFlagForm = true) (hne : v.isTruthy ≠ w.isTruthy)
    (htext : (i.withFlags v).text = .ok s) :
    ∃ t, (i.withFlags w).text = .ok t ∧ (s = t ↔ i.HidesFlags) := by
  have hfamily : i.operation.family? = some op.family := Operation.family?_of_opcode? hn hop
  obtain ⟨hkey, l, hl, rfl⟩ := layout_of_text (i := i.withFlags v) h hfamily htext
  obtain ⟨haccepts, hderives⟩ := Opcode.accepts_of_layout (i := i.withFlags v) h hkey hop hl
  have hnarrow : op.family ≠ .moveWideImmediate := by
    intro hwide
    cases op <;> simp_all [Opcode.family]
  obtain ⟨l', hl'⟩ :=
    Family.exists_layout (i := i.withFlags w) h hkey hop rfl hnarrow haccepts
  obtain ⟨-, hderives'⟩ := Opcode.accepts_of_layout (i := i.withFlags w) h hkey hop hl'
  have hmnemonic := Opcode.isMnemonic_of_hasFlagForm (i := i.withFlags v) hop hflag hderives
  have hmnemonic' := Opcode.isMnemonic_of_hasFlagForm (i := i.withFlags w) hop hflag hderives'
  refine ⟨l'.text, text_of_layout (i := i.withFlags w) h hfamily hl', fun heq ↦ ?_, fun hhides ↦ ?_⟩
  · by_contra hhides
    have hv := Opcode.mem_flagMnemonics_iff (i := i.withFlags v) h hop hflag hhides hl
    have hw := Opcode.mem_flagMnemonics_iff (i := i.withFlags w) h hop hflag hhides hl'
    rw [Layout.mnemonic_eq_of_text hmnemonic hmnemonic' heq, hw, setsFlags_withFlags,
      setsFlags_withFlags] at hv
    exact hne (Bool.eq_iff_iff.2 hv.symm)
  · have hsame := hhides.layout_withFlags h v w
    obtain ⟨_, _, _, _, _, hop', -⟩ := hhides
    obtain rfl := Option.some.inj (hop.symm.trans hop')
    obtain rfl : l = l' := Except.ok.inj (hl.symm.trans (hsame.trans hl'))
    rfl

/-! ### The condition -/

/-- Whether an opcode tests the condition of its instruction. -/
def Opcode.testsCondition : Opcode → Bool
  | .conditionalBranch | .conditionalCompare _ | .conditionalSelect _ => true
  | _ => false

/-- An opcode that tests no condition is laid out without a look at it. -/
theorem Family.layout_withCondition (f : Family)
    (h : ∀ op, i.opcode? = some op → op.testsCondition = false) (c c' : Int) :
    f.layout (i.withCondition c) = f.layout (i.withCondition c') := by
  cases f
  case conditionalBranch | conditionalCompare | conditionalSelect =>
    simp only [layout, Layout.conditionalBranch, Layout.conditionalCompare,
      Layout.conditionalSelect, Instruction.opcode?_withCondition,
      Instruction.operands_withCondition]
    split
    · split
      all_goals first | rfl | exact absurd (h _ ‹_›) (by simp [Opcode.testsCondition])
    all_goals rfl
  all_goals rfl

/-- A layout in which the place of the condition is left open. -/
inductive OpenLayout where
  /-- The condition ends the mnemonic. -/
  | branch (parts : List Part)
  /-- The condition is the last part. -/
  | last (mnemonic : String) (parts : List Part)

namespace OpenLayout

/-- The layout with a condition in the place that is left open. -/
def layout (c : Condition) : OpenLayout → Layout
  | branch parts => ⟨"b." ++ c.text, parts⟩
  | last mnemonic parts => ⟨mnemonic, parts ++ [c.part]⟩

/-- No condition keeps a layout from printing. -/
theorem print_layout (F : OpenLayout) (c c' : Condition) {ts : List Token}
    (h : (F.layout c).print = .ok ts) : (F.layout c').print = .ok (F.layout c').tokens := by
  obtain ⟨hparts, -⟩ := Layout.print_eq_ok_iff.1 h
  refine Layout.print_eq_ok_iff.2 ⟨fun p hp ↦ ?_, rfl⟩
  cases F with
  | branch parts => exact hparts p hp
  | last mnemonic parts =>
    rcases List.mem_append.1 hp with hp | hp
    · exact hparts p (List.mem_append_left _ hp)
    · obtain rfl := List.mem_singleton.1 hp
      rfl

/-- The text around the condition is the same, whatever the condition is. -/
theorem exists_context (F : OpenLayout) :
    ∃ before behind, ∀ c : Condition,
      (F.layout c).text.toList = before ++ c.text.toList ++ behind := by
  cases F with
  | branch parts =>
    refine ⟨"b.".toList, Token.chars ((Segment.line "" (parts.map Part.segment))), fun c ↦ ?_⟩
    show Token.chars _ = _
    simp [layout, Layout.tokens, Segment.line]
  | last mnemonic parts =>
    cases parts with
    | nil =>
      refine ⟨Token.chars [.instruction mnemonic, .blank], [], fun c ↦ ?_⟩
      show Token.chars _ = _
      simp [layout, Layout.tokens, Segment.line, Segment.join, Condition.part, Part.segment,
        Part.tokens]
    | cons p ps =>
      refine ⟨Token.chars (Segment.line mnemonic ((p :: ps).map Part.segment) ++ [.comma]), [],
        fun c ↦ ?_⟩
      show Token.chars _ = _
      simp [layout, Layout.tokens, Segment.line, Segment.join, Segment.following, Condition.part,
        Part.segment, Part.tokens, Part.attaches]

/-- Two conditions in one place make one text exactly if they are spelled alike. -/
theorem text_layout_eq_iff (F : OpenLayout) (c c' : Condition) :
    (F.layout c).text = (F.layout c').text ↔ c.text = c'.text := by
  obtain ⟨before, behind, hcontext⟩ := F.exists_context
  rw [← String.toList_inj, hcontext, hcontext, List.append_cancel_right_eq,
    List.append_cancel_left_eq, String.toList_inj]

end OpenLayout

/-- The open layout that a layout of an opcode fills: its condition is taken out again. -/
def Opcode.openLayout (op : Opcode) (l : Layout) : OpenLayout :=
  match op with
  | .conditionalBranch => .branch l.parts
  | _ => .last l.mnemonic l.parts.dropLast

/-- With another condition, an opcode that tests one fills the same open layout, or fails in the
same way. -/
theorem Opcode.layout_withCondition {op : Opcode} (hop : i.opcode? = some op)
    (htests : op.testsCondition = true) (c : Int) :
    op.family.layout (i.withCondition c) =
      (op.family.layout i).map fun l ↦ (op.openLayout l).layout (.ofLowBits c) := by
  cases op
  case conditionalBranch | conditionalCompare op | conditionalSelect op =>
    simp only [family, Family.layout, Layout.conditionalBranch, Layout.conditionalCompare,
      Layout.conditionalSelect, Instruction.opcode?_withCondition,
      Instruction.operands_withCondition, hop]
    repeat' split
    all_goals rfl
  all_goals cases htests

/-- Only the low four bits of a code count, and the last two conditions are spelled alike. -/
theorem Condition.text_ofLowBits_eq_iff (c c' : Int) :
    (ofLowBits c).text = (ofLowBits c').text ↔
      c % 16 = c' % 16 ∨ 14 ≤ c % 16 ∧ 14 ≤ c' % 16 := by
  have hall : ∀ m < 16, ∀ n < 16, (all.getD m al).text = (all.getD n al).text ↔
      m = n ∨ 14 ≤ m ∧ 14 ≤ n := by decide +kernel
  rw [ofLowBits, ofLowBits, hall _ (by omega) _ (by omega)]
  omega

/-- The tokens of an instruction with another condition are those of its open layout. -/
theorem Instruction.tokens_withCondition {op : Opcode} {n : Int}
    (hn : i.operation.integer? = some n) (hop : i.opcode? = some op)
    (htests : op.testsCondition = true) (c : Int) :
    (i.withCondition c).tokens =
      match op.family.layout i with
      | .ok l => ((op.openLayout l).layout (.ofLowBits c)).print
      | .error fault => .error fault := by
  have hfamily : (i.withCondition c).operation.family? = some op.family :=
    Operation.family?_of_opcode? hn hop
  obtain ⟨m, hm, -⟩ := Option.bind_eq_some_iff.1 hn
  rw [tokens_of_number? (i := i.withCondition c) hm, hfamily]
  dsimp only
  rw [Family.tokens, Opcode.layout_withCondition hop htests]
  cases op.family.layout i with
  | ok l => rfl
  | error fault => rfl

/-- With another condition, an instruction that prints still prints, and as the same text exactly if
the two conditions are spelled alike. -/
theorem Instruction.text_withCondition {op : Opcode} {n c c' : Int} {s : String}
    (hn : i.operation.integer? = some n) (hop : i.opcode? = some op)
    (htests : op.testsCondition = true) (htext : (i.withCondition c).text = .ok s) :
    ∃ t, (i.withCondition c').text = .ok t ∧
      (s = t ↔ (Condition.ofLowBits c).text = (Condition.ofLowBits c').text) := by
  have htokens := tokens_withCondition hn hop htests
  cases hl : op.family.layout i with
  | error fault =>
    rw [text, htokens, hl] at htext
    cases htext
  | ok l =>
    simp only [hl] at htokens
    cases hprint : ((op.openLayout l).layout (.ofLowBits c)).print with
    | error fault =>
      rw [text, htokens, hprint] at htext
      cases htext
    | ok ts =>
      obtain ⟨-, rfl⟩ := Layout.print_eq_ok_iff.1 hprint
      rw [text, htokens, hprint] at htext
      refine ⟨((op.openLayout l).layout (.ofLowBits c')).text, ?_, ?_⟩
      · rw [text, htokens, (op.openLayout l).print_layout _ (.ofLowBits c') hprint]
        rfl
      · rw [← (op.openLayout l).text_layout_eq_iff, ← Except.ok.inj htext]
        rfl

/-- **The flag-setting bit and the condition reach a line exactly where they should.** An opcode
without a form that sets flags comes to the same with every bit. One with such a form prints
differently with and without flags, unless it is an addition or subtraction of an immediate whose
result is for the zero register, or that moves the stack pointer. An opcode that tests no condition
comes to the same with every code, and one that does prints alike under two codes exactly if their
low four bits are equal or both mean "always". -/
theorem Instruction.text_shows_flags_and_condition {n : Int}
    (hn : i.operation.integer? = some n) :
    (i.opcode?.any Opcode.hasFlagForm = false → ∀ v w,
        (i.withFlags v).tokens = (i.withFlags w).tokens) ∧
      (i.opcode?.any Opcode.hasFlagForm = true → i.hasIntegers = true → ∀ v w s,
        v.isTruthy ≠ w.isTruthy → (i.withFlags v).text = .ok s →
          ∃ t, (i.withFlags w).text = .ok t ∧ (s = t ↔ i.HidesFlags)) ∧
      (i.opcode?.any Opcode.testsCondition = false → ∀ c c',
        (i.withCondition c).tokens = (i.withCondition c').tokens) ∧
      (i.opcode?.any Opcode.testsCondition = true → ∀ c c' s,
        (i.withCondition c).text = .ok s →
          ∃ t, (i.withCondition c').text = .ok t ∧
            (s = t ↔ c % 16 = c' % 16 ∨ 14 ≤ c % 16 ∧ 14 ≤ c' % 16)) := by
  refine ⟨fun hflag v w ↦ ?_, fun hflag h v w s hne htext ↦ ?_, fun htests c c' ↦ ?_,
    fun htests c c' s htext ↦ ?_⟩
  · refine tokens_congr rfl fun f ↦ f.layout_withFlags (fun op hop ↦ ?_) v w
    simpa [hop] using hflag
  · obtain ⟨op, hop, hflag⟩ := (Option.any_eq_true _ _).1 hflag
    exact text_withFlags h hn hop hflag hne htext
  · refine tokens_congr rfl fun f ↦ f.layout_withCondition (fun op hop ↦ ?_) c c'
    simpa [hop] using htests
  · obtain ⟨op, hop, htests⟩ := (Option.any_eq_true _ _).1 htests
    simpa only [Condition.text_ofLowBits_eq_iff] using text_withCondition hn hop htests htext

/-- A subtraction of zero from the stack pointer, which is printed as a move. -/
def stackCopy : Instruction where
  operation := .named (.addSubtractImmediate .sub)
  operands := [.register ⟨3, .int 64⟩, .register ⟨32, .int 64⟩,
    .immediate (.ofNats 0 12 (by decide) (by decide)), .shift ⟨.lsl, .int 0⟩]

/-- A branch eight bytes back. -/
def branchBack : Instruction where
  operation := .named .conditionalBranch
  operands := [.immediate (.ofNats 0xFFFFFFF8 32 (by decide) (by decide))]

/-- A move from the stack pointer hides its bit, and codes that end in fourteen and fifteen make one
branch. -/
theorem Instruction.text_shows_flags_and_condition_moves :
    (stackCopy.opcode?.any Opcode.hasFlagForm = true ∧ stackCopy.hasIntegers = true ∧
        stackCopy.HidesFlags ∧ (stackCopy.withFlags (.bool true)).text = .ok "mov x3, sp" ∧
        ∃ t, (stackCopy.withFlags (.bool false)).text = .ok t ∧ "mov x3, sp" = t) ∧
      branchBack.opcode?.any Opcode.testsCondition = true ∧
        (branchBack.withCondition (-2)).text = .ok "b.al #-0x8" ∧
        ∃ t, (branchBack.withCondition 47).text = .ok t ∧ "b.al #-0x8" = t := by
  have hcopy : (stackCopy.withFlags (.bool true)).text = .ok "mov x3, sp" := by decide +kernel
  have hhides : stackCopy.HidesFlags := ⟨.sub, _, _, _, _, rfl, rfl, .inr ⟨rfl, rfl⟩⟩
  have hbranch : (branchBack.withCondition (-2)).text = .ok "b.al #-0x8" := by decide +kernel
  obtain ⟨t, ht, hiff⟩ := (text_shows_flags_and_condition (i := stackCopy) rfl).2.1 rfl rfl
    (.bool true) (.bool false) _ (by decide) hcopy
  obtain ⟨t', ht', hiff'⟩ := (text_shows_flags_and_condition (i := branchBack) rfl).2.2.2 rfl
    (-2) 47 _ hbranch
  exact ⟨⟨rfl, rfl, hhides, hcopy, t, ht, hiff.2 hhides⟩, rfl, hbranch, t', ht',
    hiff'.2 (by decide)⟩

end A64Text
