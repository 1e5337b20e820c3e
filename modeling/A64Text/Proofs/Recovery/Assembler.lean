import A64Text.Proofs.Recovery.Losses

/-!
# From mnemonics back to operands

An assembler reads a line back. It looks its mnemonic up in a table of the family (`patterns`),
which says what opcode the mnemonic stands for and where each operand comes from (`Origin`): from the
next argument, or from the alias, which leaves the operand out. The bounds of a bitfield are found
from the place and the width that are shown (`Bounds.solve?`).

Whatever a layout shows, the assembler finds the residue of the form that was laid out
(`Instruction.HasForm.recover?_eq`). No mnemonic stands for two things in a family
(`lookup_of_mem`), and each arm of a layout can be undone.
-/

namespace A64Text

open Line

namespace Recovery

/-! ### Origins -/

/-- How the bounds of a bitfield are shown. -/
inductive Bounds where
  /-- By the place to which a field goes, and its width. -/
  | inserted
  /-- By the place from which a field comes, and its width. -/
  | extracted
  /-- By the place from which a field that reaches the top comes. -/
  | fromPlace
  /-- By the place to which a field goes that then reaches the top. -/
  | toPlace
  /-- Not at all, for a field that starts at the lowest bit and ends at a given one. -/
  | upTo (last : Int)
  deriving DecidableEq, Repr

/-- The bounds that arguments stand for in a word of `bits` bits, with what is behind them. -/
def Bounds.solve? (bits : Int) : Bounds → List Arg → Option ((Int × Int) × List Arg)
  | inserted, .number place :: .number width :: args => some ((bits - place, width - 1), args)
  | extracted, .number place :: .number width :: args => some ((place, place + width - 1), args)
  | fromPlace, .number place :: args => some ((place, bits - 1), args)
  | toPlace, .number place :: args => some ((bits - place, bits - place - 1), args)
  | upTo last, args => some ((0, last), args)
  | _, _ => none

theorem Bounds.solve?_inserted (bits immr imms : Int) :
    inserted.solve? bits [.number (bits - immr), .number (imms + 1)] = some ((immr, imms), []) := by
  simp only [solve?, Option.some.injEq, Prod.mk.injEq, and_true]
  omega

theorem Bounds.solve?_extracted (bits immr imms : Int) :
    extracted.solve? bits [.number immr, .number (imms - immr + 1)] = some ((immr, imms), []) := by
  simp only [solve?, Option.some.injEq, Prod.mk.injEq, and_true, true_and]
  omega

theorem Bounds.solve?_toPlace (bits : Int) {immr imms : Int} (h : imms + 1 = immr) :
    toPlace.solve? bits [.number (bits - immr)] = some ((immr, imms), []) := by
  simp only [solve?, Option.some.injEq, Prod.mk.injEq, and_true]
  omega

/-- Where an operand comes from. -/
inductive Origin where
  /-- The next argument, a register or a number. -/
  | shown
  /-- Left out, the zero register. -/
  | zero
  /-- Left out, the register that was shown before. -/
  | twin
  /-- Left out, a shift that does nothing. -/
  | trivial
  /-- Left out, whatever it is. -/
  | unseen
  /-- All other arguments. -/
  | shift
  /-- All other arguments. -/
  | extend
  /-- Two immediates, the bounds of a bitfield. -/
  | bounds (b : Bounds)
  deriving DecidableEq, Repr

/-- What is known of operands by the arguments of a line, with the arguments that are left. The
number of the register that was shown last is carried along for its twin. -/
@[simp] def fill? (bits : Int) : List Origin → Int → List Arg → Option (List Kept × List Arg)
  | [], _, args => some ([], args)
  | .shown :: origins, _, .register v :: args =>
    (fill? bits origins v.number args).map (·.map (.register v.number (some v.width) :: ·) id)
  | .shown :: origins, last, .number n :: args =>
    (fill? bits origins last args).map (·.map (.immediate n :: ·) id)
  | .shown :: _, _, _ => none
  | .zero :: origins, last, args =>
    (fill? bits origins last args).map (·.map (.register Register.zeroNumber none :: ·) id)
  | .twin :: origins, last, args =>
    (fill? bits origins last args).map (·.map (.register last none :: ·) id)
  | .trivial :: origins, last, args =>
    (fill? bits origins last args).map (·.map (.triviality true :: ·) id)
  | .unseen :: origins, last, args => (fill? bits origins last args).map (·.map (.nothing :: ·) id)
  | .shift :: origins, last, args => (fill? bits origins last []).map (·.map (.shift args :: ·) id)
  | .extend :: origins, last, args =>
    (fill? bits origins last []).map (·.map (.extend args :: ·) id)
  | .bounds b :: origins, last, args =>
    (b.solve? bits args).bind fun ((immr, imms), rest) ↦
      (fill? bits origins last rest).map (·.map ([.immediate immr, .immediate imms] ++ ·) id)

/-! ### Patterns -/

/-- What a mnemonic stands for. -/
structure Pattern where
  opcode : Opcode
  origins : List Origin
  setsFlags? : Option Bool := none
  deriving DecidableEq, Repr

/-- What a mnemonic stands for whose opcode has a form that sets flags. -/
@[simp] def Pattern.flagged (op : Opcode) (origins : List Origin) (setsFlags : Bool) : Pattern where
  opcode := op
  origins := origins
  setsFlags? := some setsFlags

/-- The residue that a pattern finds in arguments; the first one says how wide a word is. -/
@[simp] def Pattern.residue? (p : Pattern) : List Arg → Option Residue
  | .register v :: args =>
    (fill? v.bits p.origins v.number (.register v :: args)).map fun (operands, rest) ↦
      ⟨p.opcode, p.setsFlags?, operands, rest⟩
  | _ => none

/-- The mnemonics of a one-source operation. -/
def oneSourcePatterns (op : OneSourceOp) : List (String × Pattern) :=
  let opcode : Opcode := .dataProcessingOneSource op
  match op.form with
  | .unary => [(op.mnemonic, ⟨opcode, [.shown, .shown], none⟩)]
  | .authenticated zeroMnemonic =>
    [(op.mnemonic, ⟨opcode, [.shown, .shown], none⟩),
      (zeroMnemonic, ⟨opcode, [.shown, .zero], none⟩)]
  | .strip => [(op.mnemonic, ⟨opcode, [.shown, .unseen], none⟩)]

/-- The mnemonics of a conditional selection. -/
def conditionalSelectPatterns (op : ConditionalSelectOp) : List (String × Pattern) :=
  let opcode : Opcode := .conditionalSelect op
  op.zeroSource?.toList.map (·, ⟨opcode, [.shown, .zero, .zero], none⟩) ++
    op.sameSource?.toList.map (·, ⟨opcode, [.shown, .shown, .twin], none⟩) ++
    [(op.mnemonic, ⟨opcode, [.shown, .shown, .shown], none⟩)]

/-- The mnemonics of a multiplication. -/
def threeSourcePatterns (op : ThreeSourceOp) : List (String × Pattern) :=
  let opcode : Opcode := .dataProcessingThreeSource op
  match op.product? with
  | none => [(op.mnemonic, ⟨opcode, [.shown, .shown, .shown, .unseen], none⟩)]
  | some product =>
    [(op.mnemonic, ⟨opcode, [.shown, .shown, .shown, .shown], none⟩),
      (product, ⟨opcode, [.shown, .shown, .shown, .zero], none⟩)]

/-- The mnemonics of a family, with what they stand for. -/
def patterns : Family → List (String × Pattern)
  | .logicalImmediate =>
    [("tst", .flagged (.logicalImmediate .and) [.zero, .shown, .shown] true),
      ("and", .flagged (.logicalImmediate .and) [.shown, .shown, .shown] false),
      ("ands", .flagged (.logicalImmediate .and) [.shown, .shown, .shown] true),
      ("mov", ⟨.logicalImmediate .orr, [.shown, .zero, .shown], none⟩),
      ("orr", ⟨.logicalImmediate .orr, [.shown, .shown, .shown], none⟩),
      ("eor", ⟨.logicalImmediate .eor, [.shown, .shown, .shown], none⟩)]
  | .bitfield =>
    [("bfc", ⟨.bitfield .bfm, [.shown, .zero, .bounds .inserted], none⟩),
      ("bfi", ⟨.bitfield .bfm, [.shown, .shown, .bounds .inserted], none⟩),
      ("bfxil", ⟨.bitfield .bfm, [.shown, .shown, .bounds .extracted], none⟩),
      ("asr", ⟨.bitfield .sbfm, [.shown, .shown, .bounds .fromPlace], none⟩),
      ("sbfiz", ⟨.bitfield .sbfm, [.shown, .shown, .bounds .inserted], none⟩),
      ("sxtb", ⟨.bitfield .sbfm, [.shown, .shown, .bounds (.upTo 7)], none⟩),
      ("sxth", ⟨.bitfield .sbfm, [.shown, .shown, .bounds (.upTo 15)], none⟩),
      ("sxtw", ⟨.bitfield .sbfm, [.shown, .shown, .bounds (.upTo 31)], none⟩),
      ("sbfx", ⟨.bitfield .sbfm, [.shown, .shown, .bounds .extracted], none⟩),
      ("lsl", ⟨.bitfield .ubfm, [.shown, .shown, .bounds .toPlace], none⟩),
      ("lsr", ⟨.bitfield .ubfm, [.shown, .shown, .bounds .fromPlace], none⟩),
      ("ubfiz", ⟨.bitfield .ubfm, [.shown, .shown, .bounds .inserted], none⟩),
      ("uxtb", ⟨.bitfield .ubfm, [.shown, .shown, .bounds (.upTo 7)], none⟩),
      ("uxth", ⟨.bitfield .ubfm, [.shown, .shown, .bounds (.upTo 15)], none⟩),
      ("uxtw", ⟨.bitfield .ubfm, [.shown, .shown, .bounds (.upTo 31)], none⟩),
      ("ubfx", ⟨.bitfield .ubfm, [.shown, .shown, .bounds .extracted], none⟩)]
  | .extract =>
    [("ror", ⟨.extract, [.shown, .shown, .twin, .shown], none⟩),
      ("extr", ⟨.extract, [.shown, .shown, .shown, .shown], none⟩)]
  | .dataProcessingOneSource => OneSourceOp.all.flatMap oneSourcePatterns
  | .logicalShiftedRegister =>
    [("tst", .flagged (.logicalShiftedRegister .and) [.zero, .shown, .shown, .shift] true),
      ("and", .flagged (.logicalShiftedRegister .and) [.shown, .shown, .shown, .shift] false),
      ("ands", .flagged (.logicalShiftedRegister .and) [.shown, .shown, .shown, .shift] true),
      ("bic", .flagged (.logicalShiftedRegister .bic) [.shown, .shown, .shown, .shift] false),
      ("bics", .flagged (.logicalShiftedRegister .bic) [.shown, .shown, .shown, .shift] true),
      ("mov", ⟨.logicalShiftedRegister .orr, [.shown, .zero, .shown, .trivial], none⟩),
      ("orr", ⟨.logicalShiftedRegister .orr, [.shown, .shown, .shown, .shift], none⟩),
      ("mvn", ⟨.logicalShiftedRegister .orn, [.shown, .zero, .shown, .shift], none⟩),
      ("orn", ⟨.logicalShiftedRegister .orn, [.shown, .shown, .shown, .shift], none⟩),
      ("eor", ⟨.logicalShiftedRegister .eor, [.shown, .shown, .shown, .shift], none⟩),
      ("eon", ⟨.logicalShiftedRegister .eon, [.shown, .shown, .shown, .shift], none⟩)]
  | .addSubtractShiftedRegister =>
    [("cmp", .flagged (.addSubtractShiftedRegister .sub) [.zero, .shown, .shown, .shift] true),
      ("neg", .flagged (.addSubtractShiftedRegister .sub) [.shown, .zero, .shown, .shift] false),
      ("negs", .flagged (.addSubtractShiftedRegister .sub) [.shown, .zero, .shown, .shift] true),
      ("sub", .flagged (.addSubtractShiftedRegister .sub) [.shown, .shown, .shown, .shift] false),
      ("subs", .flagged (.addSubtractShiftedRegister .sub) [.shown, .shown, .shown, .shift] true),
      ("cmn", .flagged (.addSubtractShiftedRegister .add) [.zero, .shown, .shown, .shift] true),
      ("add", .flagged (.addSubtractShiftedRegister .add) [.shown, .shown, .shown, .shift] false),
      ("adds", .flagged (.addSubtractShiftedRegister .add) [.shown, .shown, .shown, .shift] true)]
  | .addSubtractExtendedRegister =>
    [("cmp", .flagged (.addSubtractExtendedRegister .sub) [.zero, .shown, .shown, .extend] true),
      ("sub", .flagged (.addSubtractExtendedRegister .sub) [.shown, .shown, .shown, .extend] false),
      ("subs", .flagged (.addSubtractExtendedRegister .sub) [.shown, .shown, .shown, .extend] true),
      ("cmn", .flagged (.addSubtractExtendedRegister .add) [.zero, .shown, .shown, .extend] true),
      ("add", .flagged (.addSubtractExtendedRegister .add) [.shown, .shown, .shown, .extend] false),
      ("adds", .flagged (.addSubtractExtendedRegister .add) [.shown, .shown, .shown, .extend] true)]
  | .addSubtractWithCarry =>
    [("ngc", .flagged (.addSubtractWithCarry .sbc) [.shown, .zero, .shown] false),
      ("ngcs", .flagged (.addSubtractWithCarry .sbc) [.shown, .zero, .shown] true),
      ("sbc", .flagged (.addSubtractWithCarry .sbc) [.shown, .shown, .shown] false),
      ("sbcs", .flagged (.addSubtractWithCarry .sbc) [.shown, .shown, .shown] true),
      ("adc", .flagged (.addSubtractWithCarry .adc) [.shown, .shown, .shown] false),
      ("adcs", .flagged (.addSubtractWithCarry .adc) [.shown, .shown, .shown] true)]
  | .conditionalSelect => ConditionalSelectOp.all.flatMap conditionalSelectPatterns
  | .dataProcessingThreeSource => ThreeSourceOp.all.flatMap threeSourcePatterns
  | _ => []

/-- The residue of what a mnemonic and its arguments stand for in a family. -/
def recover? (f : Family) (mnemonic : String) (args : List Arg) : Option Residue :=
  ((patterns f).lookup mnemonic).bind fun p ↦ p.residue? args

/-- The residue of a layout is found, if the pattern of its mnemonic finds it. -/
theorem recover?_of_layout {f : Family} {m : String} {parts : List Part} {l : Layout} {p : Pattern}
    {r? : Option Residue} (hl : (.ok ⟨m, parts⟩ : Except LayoutFault Layout) = .ok l)
    (hpattern : (patterns f).lookup m = some p) (hp : p.residue? (parts.flatMap Part.args) = r?) :
    recover? f l.mnemonic (l.parts.flatMap Part.args) = r? := by
  obtain rfl := Except.ok.inj hl
  rw [recover?, hpattern, Option.bind_some, hp]

/-- A mnemonic stands for one thing only in a family. -/
theorem lookup_of_mem {f : Family} {m : String} {p : Pattern} (h : (m, p) ∈ patterns f) :
    (patterns f).lookup m = some p := by
  have hall : ∀ f ∈ Family.all, ∀ entry ∈ patterns f,
      (patterns f).lookup entry.1 = some entry.2 := by decide +kernel
  exact hall f (by cases f <;> decide) (m, p) h

theorem mem_oneSource {op : OneSourceOp} {m : String} {p : Pattern}
    (h : (m, p) ∈ oneSourcePatterns op) : (m, p) ∈ patterns .dataProcessingOneSource :=
  List.mem_flatMap.2 ⟨op, by cases op <;> decide, h⟩

theorem mem_conditionalSelect {op : ConditionalSelectOp} {m : String} {p : Pattern}
    (h : (m, p) ∈ conditionalSelectPatterns op) : (m, p) ∈ patterns .conditionalSelect :=
  List.mem_flatMap.2 ⟨op, by cases op <;> decide, h⟩

theorem mem_threeSource {op : ThreeSourceOp} {m : String} {p : Pattern}
    (h : (m, p) ∈ threeSourcePatterns op) : (m, p) ∈ patterns .dataProcessingThreeSource :=
  List.mem_flatMap.2 ⟨op, by cases op <;> decide, h⟩

/-- The bounds of a bitfield are found, if those that are shown can be solved for them. -/
theorem residue?_bitfield {op : BitfieldOp} {rd rn : Register} {immr imms : Immediate} {b : Bounds}
    {args : List Arg} {setsFlags : Bool} {c : Condition}
    (hshown : op = .bfm → ¬ (imms.value < immr.value ∧ rn.isZero = true))
    (hsolve : b.solve? rd.view.bits args = some (((immr.value : Int), (imms.value : Int)), [])) :
    Pattern.residue? ⟨.bitfield op, [.shown, .shown, .bounds b], none⟩
        (.register rd.view :: .register rn.view :: args) =
      some (Form.residue setsFlags c (.bitfield op rd rn immr imms)) := by
  cases op with
  | bfm => simp [Loss.omitting, hsolve, hshown rfl]
  | _ => simp [hsolve]

end Recovery

/-- The bits of a bitfield's word are those of the view of its destination. -/
theorem Register.IsGeneral.registerBits_eq {r : Register} (h : r.IsGeneral) :
    ∃ size, r.size.toNumber? = some size ∧ registerBits size = r.view.bits := by
  rcases h.2 with hsize | hsize <;> rw [view, hsize] <;> exact ⟨_, rfl, rfl⟩

/-! ### One family after the other -/

open Recovery

namespace Instruction.HasForm

variable {i : Instruction} {l : Layout} {rd rn rm ra : Register}

theorem recover?_logicalImmediate {op : LogicalImmediateOp} {imm : Immediate}
    (hF : i.HasForm (.logicalImmediate op rd rn imm)) (hl : Layout.logicalImmediate i = .ok l) :
    recover? .logicalImmediate l.mnemonic (l.parts.flatMap Part.args) =
      some (Form.residue i.setsFlags i.conditionOf (.logicalImmediate op rd rn imm)) := by
  have hop := hF.opcode
  have hos := hF.operands
  cases op <;> simp only [Form.opcode, Form.operands] at hop hos <;>
    simp only [Layout.logicalImmediate, hop, hos] at hl
  case and =>
    cases hflags : i.setsFlags with
    | false =>
      simp only [hflags, Bool.not_false, if_true] at hl
      exact recover?_of_layout hl rfl (by simp [Loss.omitting])
    | true =>
      simp only [hflags, Bool.not_true, Bool.false_eq_true, if_false] at hl
      split at hl
      · rename_i hzero
        refine recover?_of_layout hl rfl ?_
        simp [Loss.omitting, hzero, Register.number_of_isZero hzero]
      · rename_i hzero
        exact recover?_of_layout hl rfl (by simp [Loss.omitting, hzero])
  case orr =>
    split at hl
    · rename_i hzero
      refine recover?_of_layout hl rfl ?_
      simp [Loss.omitting, hzero, Register.number_of_isZero hzero]
    · rename_i hzero
      exact recover?_of_layout hl rfl (by simp [Loss.omitting, hzero])
  case eor => exact recover?_of_layout hl rfl (by simp)

theorem recover?_bitfield {op : BitfieldOp} {immr imms : Immediate}
    (hF : i.HasForm (.bitfield op rd rn immr imms)) (hrd : rd.IsGeneral)
    (himmr : immr.hasIntegers = true) (himms : imms.hasIntegers = true)
    (hl : Layout.bitfield i = .ok l) :
    recover? .bitfield l.mnemonic (l.parts.flatMap Part.args) =
      some (Form.residue i.setsFlags i.conditionOf (.bitfield op rd rn immr imms)) := by
  have hop := hF.opcode
  have hos := hF.operands
  obtain ⟨size, hsize, hbits⟩ := hrd.registerBits_eq
  cases op <;> simp only [Form.opcode, Form.operands] at hop hos <;>
    simp only [Layout.bitfield, Layout.insertedField, Layout.extractedField, hop, hos, hsize, hbits,
      Immediate.given_eq_value himmr, Immediate.given_eq_value himms, Number.less_int,
      Number.equals_int, Number.add_int, Number.sub_int, decide_eq_true_eq] at hl
  case bfm =>
    split at hl
    · rename_i hless
      split at hl
      · rename_i hzero
        have hless : imms.value < immr.value := by omega
        refine recover?_of_layout hl rfl ?_
        simp [Loss.omitting, hzero, hless, Register.number_of_isZero hzero,
          Bounds.solve?_inserted]
      · rename_i hzero
        exact recover?_of_layout hl rfl
          (residue?_bitfield (fun _ halias ↦ hzero halias.2) (Bounds.solve?_inserted _ _ _))
    · rename_i hless
      exact recover?_of_layout hl rfl
        (residue?_bitfield (fun _ halias ↦ by omega) (Bounds.solve?_extracted _ _ _))
  case sbfm =>
    have hshown : BitfieldOp.sbfm = .bfm → ¬ (imms.value < immr.value ∧ rn.isZero = true) := by simp
    split at hl
    · rename_i hfull
      exact recover?_of_layout hl rfl (residue?_bitfield hshown (by simp [Bounds.solve?, hfull]))
    · split at hl
      · exact recover?_of_layout hl rfl (residue?_bitfield hshown (Bounds.solve?_inserted _ _ _))
      · split at hl
        · rename_i hextension
          obtain ⟨hzero, hlast⟩ := Layout.extension?_cases hextension
          rcases hlast with ⟨hlast, rfl⟩ | ⟨hlast, rfl⟩ | ⟨hlast, rfl⟩ <;>
            exact recover?_of_layout hl rfl
              (residue?_bitfield hshown (by simp [Bounds.solve?, hzero, hlast]))
        · exact recover?_of_layout hl rfl (residue?_bitfield hshown (Bounds.solve?_extracted _ _ _))
  case ubfm =>
    have hshown : BitfieldOp.ubfm = .bfm → ¬ (imms.value < immr.value ∧ rn.isZero = true) := by simp
    split at hl
    · rename_i hnext
      simp only [Bool.and_eq_true, decide_eq_true_eq] at hnext
      exact recover?_of_layout hl rfl
        (residue?_bitfield hshown (Bounds.solve?_toPlace _ hnext.2))
    · split at hl
      · rename_i hfull
        exact recover?_of_layout hl rfl (residue?_bitfield hshown (by simp [Bounds.solve?, hfull]))
      · split at hl
        · exact recover?_of_layout hl rfl (residue?_bitfield hshown (Bounds.solve?_inserted _ _ _))
        · split at hl
          · rename_i hextension
            obtain ⟨hzero, hlast⟩ := Layout.extension?_cases hextension
            rcases hlast with ⟨hlast, rfl⟩ | ⟨hlast, rfl⟩ | ⟨hlast, rfl⟩ <;>
              exact recover?_of_layout hl rfl
                (residue?_bitfield hshown (by simp [Bounds.solve?, hzero, hlast]))
          · exact recover?_of_layout hl rfl
              (residue?_bitfield hshown (Bounds.solve?_extracted _ _ _))

theorem recover?_extract {lsb : Immediate} (hF : i.HasForm (.extract rd rn rm lsb))
    (hlsb : lsb.hasIntegers = true) (hl : Layout.extract i = .ok l) :
    recover? .extract l.mnemonic (l.parts.flatMap Part.args) =
      some (Form.residue i.setsFlags i.conditionOf (.extract rd rn rm lsb)) := by
  have hop := hF.opcode
  have hos := hF.operands
  simp only [Form.opcode, Form.operands] at hop hos
  simp only [Layout.extract, hop, hos, Immediate.given_eq_value hlsb] at hl
  split at hl <;> rename_i hsame <;>
    exact recover?_of_layout hl rfl (by simp [Loss.omitting, hsame])

theorem recover?_oneSource {op : OneSourceOp} (hF : i.HasForm (.oneSource op rd rn))
    (hl : Layout.dataProcessingOneSource i = .ok l) :
    recover? .dataProcessingOneSource l.mnemonic (l.parts.flatMap Part.args) =
      some (Form.residue i.setsFlags i.conditionOf (.oneSource op rd rn)) := by
  have hop := hF.opcode
  have hos := hF.operands
  simp only [Form.opcode, Form.operands] at hop hos
  simp only [Layout.dataProcessingOneSource, hop, hos] at hl
  split at hl
  · rename_i hform
    have hmem : (op.mnemonic, ⟨.dataProcessingOneSource op, [.shown, .shown], none⟩) ∈
        oneSourcePatterns op := by simp [oneSourcePatterns, hform]
    refine recover?_of_layout hl (lookup_of_mem (mem_oneSource hmem)) ?_
    simp [hform]
  · rename_i zeroMnemonic hform
    split at hl
    · rename_i hzero
      have hmem : (zeroMnemonic, ⟨.dataProcessingOneSource op, [.shown, .zero], none⟩) ∈
          oneSourcePatterns op := by simp [oneSourcePatterns, hform]
      refine recover?_of_layout hl (lookup_of_mem (mem_oneSource hmem)) ?_
      simp [Loss.omitting, hform, hzero, Register.number_of_isZero hzero]
    · rename_i hzero
      have hmem : (op.mnemonic, ⟨.dataProcessingOneSource op, [.shown, .shown], none⟩) ∈
          oneSourcePatterns op := by simp [oneSourcePatterns, hform]
      refine recover?_of_layout hl (lookup_of_mem (mem_oneSource hmem)) ?_
      simp [Loss.omitting, hform, hzero]
  · rename_i hform
    have hmem : (op.mnemonic, ⟨.dataProcessingOneSource op, [.shown, .unseen], none⟩) ∈
        oneSourcePatterns op := by simp [oneSourcePatterns, hform]
    refine recover?_of_layout hl (lookup_of_mem (mem_oneSource hmem)) ?_
    simp [hform]

theorem recover?_logicalShifted {op : LogicalShiftedOp} {s : Shift}
    (hF : i.HasForm (.logicalShifted op rd rn rm s))
    (hl : Layout.logicalShiftedRegister i = .ok l) :
    recover? .logicalShiftedRegister l.mnemonic (l.parts.flatMap Part.args) =
      some (Form.residue i.setsFlags i.conditionOf (.logicalShifted op rd rn rm s)) := by
  have hop := hF.opcode
  have hos := hF.operands
  cases op <;> simp only [Form.opcode, Form.operands] at hop hos <;>
    simp only [Layout.logicalShiftedRegister, hop, hos] at hl
  case and =>
    split at hl
    · rename_i halias
      refine recover?_of_layout hl rfl ?_
      simp [Loss.omitting, halias, Register.number_of_isZero halias.2]
    · rename_i halias
      refine recover?_of_layout hl (Layout.lookup_flagSuffix ⟨rfl, rfl⟩ _) ?_
      simp [Loss.omitting, halias]
  case bic =>
    exact recover?_of_layout hl (Layout.lookup_flagSuffix ⟨rfl, rfl⟩ _)
      (by simp)
  case orr =>
    split at hl
    · rename_i halias
      refine recover?_of_layout hl rfl ?_
      simp [halias, Register.number_of_isZero halias.1]
    · rename_i halias
      exact recover?_of_layout hl rfl (by simp [halias])
  case orn =>
    split at hl
    · rename_i hzero
      refine recover?_of_layout hl rfl ?_
      simp [Loss.omitting, hzero, Register.number_of_isZero hzero]
    · rename_i hzero
      exact recover?_of_layout hl rfl (by simp [Loss.omitting, hzero])
  case eor => exact recover?_of_layout hl rfl (by simp)
  case eon => exact recover?_of_layout hl rfl (by simp)

theorem recover?_addSubtractShifted {op : AddSubOp} {s : Shift}
    (hF : i.HasForm (.addSubtractShifted op rd rn rm s))
    (hl : Layout.addSubtractShiftedRegister i = .ok l) :
    recover? .addSubtractShiftedRegister l.mnemonic (l.parts.flatMap Part.args) =
      some (Form.residue i.setsFlags i.conditionOf (.addSubtractShifted op rd rn rm s)) := by
  have hop := hF.opcode
  have hos := hF.operands
  cases op <;> simp only [Form.opcode, Form.operands] at hop hos <;>
    simp only [Layout.addSubtractShiftedRegister, hop, hos] at hl
  case add =>
    split at hl
    · rename_i halias
      refine recover?_of_layout hl rfl ?_
      simp [Loss.omitting, halias, Register.number_of_isZero halias.2]
    · rename_i halias
      refine recover?_of_layout hl (Layout.lookup_flagSuffix ⟨rfl, rfl⟩ _) ?_
      simp [Loss.omitting, halias]
  case sub =>
    split at hl
    · rename_i halias
      refine recover?_of_layout hl rfl ?_
      simp [halias, Register.number_of_isZero halias.2]
    · rename_i halias
      split at hl
      · rename_i hzero
        refine recover?_of_layout hl (Layout.lookup_flagSuffix ⟨rfl, rfl⟩ _) ?_
        simp [Loss.omitting, halias, hzero,
          Register.number_of_isZero hzero]
      · rename_i hzero
        refine recover?_of_layout hl (Layout.lookup_flagSuffix ⟨rfl, rfl⟩ _) ?_
        simp [Loss.omitting, halias, hzero]

theorem recover?_addSubtractExtended {op : AddSubOp} {e : Extend}
    (hF : i.HasForm (.addSubtractExtended op rd rn rm e))
    (hl : Layout.addSubtractExtendedRegister i = .ok l) :
    recover? .addSubtractExtendedRegister l.mnemonic (l.parts.flatMap Part.args) =
      some (Form.residue i.setsFlags i.conditionOf (.addSubtractExtended op rd rn rm e)) := by
  have hop := hF.opcode
  have hos := hF.operands
  simp only [Form.opcode, Form.operands] at hop hos
  simp only [Layout.addSubtractExtendedRegister, hop, hos] at hl
  split at hl
  · rename_i halias
    cases op <;> refine recover?_of_layout hl rfl ?_ <;>
      simp [Loss.omitting, halias, Register.number_of_isZero halias.2]
  · rename_i halias
    cases op <;> refine recover?_of_layout hl (Layout.lookup_flagSuffix ⟨rfl, rfl⟩ _) ?_ <;>
      simp [Loss.omitting, halias]

theorem recover?_addSubtractCarry {op : CarryOp} (hF : i.HasForm (.addSubtractCarry op rd rn rm))
    (hl : Layout.addSubtractWithCarry i = .ok l) :
    recover? .addSubtractWithCarry l.mnemonic (l.parts.flatMap Part.args) =
      some (Form.residue i.setsFlags i.conditionOf (.addSubtractCarry op rd rn rm)) := by
  have hop := hF.opcode
  have hos := hF.operands
  cases op <;> simp only [Form.opcode, Form.operands] at hop hos <;>
    simp only [Layout.addSubtractWithCarry, hop, hos] at hl
  case adc =>
    exact recover?_of_layout hl (Layout.lookup_flagSuffix ⟨rfl, rfl⟩ _)
      (by simp)
  case sbc =>
    split at hl
    · rename_i hzero
      refine recover?_of_layout hl (Layout.lookup_flagSuffix ⟨rfl, rfl⟩ _) ?_
      simp [Loss.omitting, hzero, Register.number_of_isZero hzero]
    · rename_i hzero
      refine recover?_of_layout hl (Layout.lookup_flagSuffix ⟨rfl, rfl⟩ _) ?_
      simp [Loss.omitting, hzero]

theorem recover?_conditionalSelect {op : ConditionalSelectOp}
    (hF : i.HasForm (.conditionalSelect op rd rn rm)) (hl : Layout.conditionalSelect i = .ok l) :
    recover? .conditionalSelect l.mnemonic (l.parts.flatMap Part.args) =
      some (Form.residue i.setsFlags i.conditionOf (.conditionalSelect op rd rn rm)) := by
  have hop := hF.opcode
  have hos := hF.operands
  simp only [Form.opcode, Form.operands] at hop hos
  simp only [Layout.conditionalSelect, hop, hos] at hl
  split at hl
  · rename_i mnemonic hsource
    obtain ⟨⟨hn, hm⟩, hsource⟩ := Option.ite_none_right_eq_some.1 hsource
    have hmem : (mnemonic, ⟨.conditionalSelect op, [.shown, .zero, .zero], none⟩) ∈
        conditionalSelectPatterns op := by simp [conditionalSelectPatterns, hsource]
    refine recover?_of_layout hl (lookup_of_mem (mem_conditionalSelect hmem)) ?_
    simp [Condition.part, hn, hm, hsource, Register.number_of_isZero hn,
      Register.number_of_isZero hm]
  · rename_i hsource
    have hnonzero : (rn.isZero && rm.isZero && op.zeroSource?.isSome) = false := by
      refine Bool.eq_false_iff.2 fun halias ↦ ?_
      simp only [Bool.and_eq_true] at halias
      rw [if_pos halias.1] at hsource
      simp [hsource] at halias
    split at hl
    · rename_i mnemonic hsource
      obtain ⟨hsame, hsource⟩ := Option.ite_none_right_eq_some.1 hsource
      have hmem : (mnemonic, ⟨.conditionalSelect op, [.shown, .shown, .twin], none⟩) ∈
          conditionalSelectPatterns op := by simp [conditionalSelectPatterns, hsource]
      refine recover?_of_layout hl (lookup_of_mem (mem_conditionalSelect hmem)) ?_
      simp [Loss.omitting, Condition.part, hnonzero, hsame, hsource]
    · rename_i hsource
      have hdifferent : (decide (rn.number = rm.number) && op.sameSource?.isSome) = false := by
        refine Bool.eq_false_iff.2 fun halias ↦ ?_
        simp only [Bool.and_eq_true, decide_eq_true_eq] at halias
        rw [if_pos halias.1] at hsource
        simp [hsource] at halias
      have hmem : (op.mnemonic, ⟨.conditionalSelect op, [.shown, .shown, .shown], none⟩) ∈
          conditionalSelectPatterns op := by simp [conditionalSelectPatterns]
      refine recover?_of_layout hl (lookup_of_mem (mem_conditionalSelect hmem)) ?_
      simp [Loss.omitting, Condition.part, hnonzero, hdifferent]

theorem recover?_threeSource {op : ThreeSourceOp} (hF : i.HasForm (.threeSource op rd rn rm ra))
    (hl : Layout.dataProcessingThreeSource i = .ok l) :
    recover? .dataProcessingThreeSource l.mnemonic (l.parts.flatMap Part.args) =
      some (Form.residue i.setsFlags i.conditionOf (.threeSource op rd rn rm ra)) := by
  have hop := hF.opcode
  have hos := hF.operands
  simp only [Form.opcode, Form.operands] at hop hos
  simp only [Layout.dataProcessingThreeSource, hop, hos] at hl
  split at hl
  · rename_i hproduct
    have hmem : (op.mnemonic,
        ⟨.dataProcessingThreeSource op, [.shown, .shown, .shown, .unseen], none⟩) ∈
          threeSourcePatterns op := by simp [threeSourcePatterns, hproduct]
    refine recover?_of_layout hl (lookup_of_mem (mem_threeSource hmem)) ?_
    simp [hproduct]
  · rename_i product hproduct
    split at hl
    · rename_i hzero
      have hmem : (product,
          ⟨.dataProcessingThreeSource op, [.shown, .shown, .shown, .zero], none⟩) ∈
            threeSourcePatterns op := by simp [threeSourcePatterns, hproduct]
      refine recover?_of_layout hl (lookup_of_mem (mem_threeSource hmem)) ?_
      simp [Loss.omitting, hproduct, hzero,
        Register.number_of_isZero hzero]
    · rename_i hzero
      have hmem : (op.mnemonic,
          ⟨.dataProcessingThreeSource op, [.shown, .shown, .shown, .shown], none⟩) ∈
            threeSourcePatterns op := by simp [threeSourcePatterns, hproduct]
      refine recover?_of_layout hl (lookup_of_mem (mem_threeSource hmem)) ?_
      simp [Loss.omitting, hproduct, hzero]

/-! ### All families -/

/-- What is laid out of a form is read back as its residue. -/
theorem recover?_eq {F : Form} (hF : i.HasForm F) (h : i.IsGeneral)
    (hl : F.opcode.family.layout i = .ok l) :
    recover? F.opcode.family l.mnemonic (l.parts.flatMap Part.args) =
      some (F.residue i.setsFlags i.conditionOf) := by
  have hgeneral := h.operands
  have hintegers := fun o (ho : o ∈ i.operands) ↦ hasIntegers_of_mem h.integers ho
  rw [hF.operands] at hgeneral hintegers
  cases F with
  | logicalImmediate op rd rn imm => exact hF.recover?_logicalImmediate hl
  | bitfield op rd rn immr imms =>
    have hrd : rd.IsGeneral := hgeneral (.register rd) (by simp)
    have himmr : immr.hasIntegers = true := hintegers (.immediate immr) (by simp)
    have himms : imms.hasIntegers = true := hintegers (.immediate imms) (by simp)
    exact hF.recover?_bitfield hrd himmr himms hl
  | extract rd rn rm lsb =>
    exact hF.recover?_extract (hintegers (.immediate lsb) (by simp)) hl
  | oneSource op rd rn => exact hF.recover?_oneSource hl
  | logicalShifted op rd rn rm s => exact hF.recover?_logicalShifted hl
  | addSubtractShifted op rd rn rm s => exact hF.recover?_addSubtractShifted hl
  | addSubtractExtended op rd rn rm e => exact hF.recover?_addSubtractExtended hl
  | addSubtractCarry op rd rn rm => exact hF.recover?_addSubtractCarry hl
  | conditionalSelect op rd rn rm => exact hF.recover?_conditionalSelect hl
  | threeSource op rd rn rm ra => exact hF.recover?_threeSource hl

end Instruction.HasForm

end A64Text
