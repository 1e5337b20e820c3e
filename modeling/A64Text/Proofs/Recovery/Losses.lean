import Mathlib.Data.List.Forall2
import A64Text.Proofs.Forms

/-!
# What a line leaves out

A preferred alias leaves out operands, and a reader can supply most of what they were: a register
that is left out is the zero register or the one before it, only its width is not known. The losses
of a form (`Form.losses`) say, operand by operand, what is not known from the line. Operands that
differ by a loss only agree (`Operand.Agrees`).

What is left of a form is its residue (`Form.residue`): the opcode, the flag-setting bit if the
opcode has one, and of each operand what is not lost. Forms of which the same is kept agree in their
operands (`Form.agree_of_kept_eq`).
-/

namespace A64Text

/-! ### Losses -/

/-- What is not known of an operand. -/
inductive Loss where
  /-- Nothing is lost that makes a difference. -/
  | none
  /-- The width of a register. -/
  | width
  /-- How a shift that does nothing was given. -/
  | triviality
  /-- The operand as a whole. -/
  | everything
  deriving DecidableEq, Repr

/-- The width is lost of a register that is left out. -/
def Loss.omitting (omitted : Bool) : Loss := if omitted then .width else .none

/-- The losses of a form, by the alias that is preferred for it. -/
@[simp] def Form.losses (setsFlags : Bool) : Form → List Loss
  | logicalImmediate .and rd .. => [.omitting (setsFlags && rd.isZero), .none, .none]
  | logicalImmediate .orr _ rn _ => [.none, .omitting rn.isZero, .none]
  | logicalImmediate .eor .. => [.none, .none, .none]
  | bitfield .bfm _ rn immr imms =>
    [.none, .omitting (imms.value < immr.value && rn.isZero), .none, .none]
  | bitfield .. => [.none, .none, .none, .none]
  | extract _ rn rm _ => [.none, .none, .omitting (rn.number = rm.number), .none]
  | oneSource op _ rn =>
    match op.form with
    | .unary => [.none, .none]
    | .authenticated _ => [.none, .omitting rn.isZero]
    | .strip => [.none, .everything]
  | logicalShifted .and rd .. => [.omitting (setsFlags && rd.isZero), .none, .none, .none]
  | logicalShifted .orr _ rn _ s =>
    if rn.isZero && s.isTrivial then [.none, .width, .none, .triviality]
    else [.none, .none, .none, .none]
  | logicalShifted .orn _ rn .. => [.none, .omitting rn.isZero, .none, .none]
  | logicalShifted .. => [.none, .none, .none, .none]
  | addSubtractShifted .add rd .. | addSubtractExtended _ rd .. =>
    [.omitting (setsFlags && rd.isZero), .none, .none, .none]
  | addSubtractShifted .sub rd rn .. =>
    -- A comparison leaves out its destination and shows a first source that is zero.
    if setsFlags && rd.isZero then [.width, .none, .none, .none]
    else [.none, .omitting rn.isZero, .none, .none]
  | addSubtractCarry .sbc _ rn _ => [.none, .omitting rn.isZero, .none]
  | addSubtractCarry .adc .. => [.none, .none, .none]
  | conditionalSelect op _ rn rm =>
    if rn.isZero && rm.isZero && op.zeroSource?.isSome then [.none, .width, .width]
    else [.none, .none, .omitting (rn.number = rm.number && op.sameSource?.isSome)]
  | threeSource op _ _ _ ra =>
    [.none, .none, .none,
      if op.product?.isSome then .omitting ra.isZero else .everything]

/-! ### Agreement -/

/-- Whether an extend does nothing: it is of no kind, or a left shift by nothing. -/
def Extend.isTrivial (e : Extend) : Bool :=
  e.kind = .none || (e.kind = .lsl && e.count.whole? = some 0)

/-- Two operands that are the same but for a loss. Of an immediate the width of its field is never
shown, of a modifier of no kind its amount is not, and an extend that does nothing is not shown. -/
def Operand.Agrees : Loss → Operand → Operand → Prop
  | .everything, _, _ => True
  | .width, .register r, .register q => r.number = q.number
  | .triviality, .shift s, .shift t => s.isTrivial = true ∧ t.isTrivial = true
  | .none, .register r, .register q => r.number = q.number ∧ r.size = q.size
  | .none, .immediate imm, .immediate imm' => imm.value = imm'.value
  | .none, .shift s, .shift t => s.kind = t.kind ∧ (s.kind ≠ .none → s.count = t.count)
  | .none, .extend e, .extend f =>
    e.isTrivial = true ∧ f.isTrivial = true ∨ e.kind = f.kind ∧ e.count = f.count
  | _, _, _ => False

/-- Operands that agree one by one. -/
def Operand.Agree : List Loss → List Operand → List Operand → Prop
  | [], [], [] => True
  | loss :: losses, o :: os, p :: ps => Agrees loss o p ∧ Agree losses os ps
  | _, _, _ => False

/-! ### Residues -/

/-- What is kept of an operand. -/
inductive Kept where
  | register (number : Int) (width? : Option Width)
  | immediate (value : Int)
  /-- A shift as it is read. -/
  | shift (args : List Arg)
  /-- An extend as it is read. -/
  | extend (args : List Arg)
  /-- Only whether a shift does nothing. -/
  | triviality (isTrivial : Bool)
  | nothing
  deriving DecidableEq, Repr

/-- What a loss leaves of an operand. -/
@[simp] def Operand.keep : Loss → Operand → Kept
  | .none, .register r => .register r.number (some r.view.width)
  | .none, .immediate imm => .immediate imm.value
  | .none, .shift s => .shift (modifierArgs s.reading)
  | .none, .extend e => .extend (modifierArgs e.reading)
  | .width, .register r => .register r.number none
  | .triviality, .shift s => .triviality s.isTrivial
  | _, _ => .nothing

/-- Whether an opcode has a form that sets flags. -/
@[simp] def Opcode.hasFlagForm : Opcode → Bool
  | .logicalImmediate .and | .logicalShiftedRegister .and | .logicalShiftedRegister .bic
  | .addSubtractImmediate _ | .addSubtractShiftedRegister _ | .addSubtractExtendedRegister _
  | .addSubtractWithCarry _ => true
  | _ => false

/-- What a line keeps of an instruction. -/
structure Residue where
  opcode : Opcode
  /-- The flag-setting bit, if the opcode has a form that sets flags. -/
  setsFlags? : Option Bool
  operands : List Kept
  /-- What stands behind the operands. -/
  rest : List Arg
  deriving DecidableEq, Repr

/-- What is kept of the operands of a form. -/
@[simp] def Form.kept (setsFlags : Bool) (F : Form) : List Kept :=
  List.zipWith Operand.keep (F.losses setsFlags) F.operands

/-- The condition of a form, as it is read. -/
@[simp] def Form.conditionArgs (c : Condition) : Form → List Arg
  | conditionalSelect .. => [.named (Text.lowerAscii c.text) none]
  | _ => []

/-- The residue of a form. -/
@[simp] def Form.residue (setsFlags : Bool) (c : Condition) (F : Form) : Residue where
  opcode := F.opcode
  setsFlags? := if F.opcode.hasFlagForm then some setsFlags else none
  operands := F.kept setsFlags
  rest := F.conditionArgs c

/-! ### Equal residues -/

/-- A loss that an operand can have; how a shift was given is lost only if it does nothing. -/
inductive Loss.Fits : Loss → Operand → Prop
  | everything (o : Operand) : Fits .everything o
  | width (r : Register) : Fits .width (.register r)
  | triviality {s : Shift} (h : s.isTrivial = true) : Fits .triviality (.shift s)
  | register (r : Register) : Fits .none (.register r)
  | immediate (imm : Immediate) : Fits .none (.immediate imm)
  | shift (s : Shift) : Fits .none (.shift s)
  | extend (e : Extend) : Fits .none (.extend e)

attribute [simp] Loss.Fits.everything Loss.Fits.width Loss.Fits.register Loss.Fits.immediate
  Loss.Fits.shift Loss.Fits.extend

@[simp] theorem Loss.omitting_fits (omitted : Bool) (r : Register) :
    (omitting omitted).Fits (.register r) := by
  cases omitted
  · exact .register r
  · exact .width r

theorem Register.size_eq_of_width {r q : Register} (hr : r.IsGeneral) (hq : q.IsGeneral)
    (h : r.view.width = q.view.width) : r.size = q.size := by
  rcases hr.2 with hsize | hsize <;> rcases hq.2 with hsize' | hsize' <;>
    simp_all [Register.view]

theorem ShiftKind.keyword_injective {k k' : ShiftKind} (hk : k.isListed = true)
    (hk' : k'.isListed = true) (h : k.keyword = k'.keyword) : k = k' := by
  have hall : ∀ k ∈ listed, ∀ k' ∈ listed, k.keyword = k'.keyword → k = k' := by decide
  refine hall k ?_ k' ?_ h
  · cases k <;> first | decide | cases hk
  · cases k' <;> first | decide | cases hk'

theorem ExtendKind.keyword_injective {k k' : ExtendKind} (hk : k.isListed = true)
    (hk' : k'.isListed = true) (h : k.keyword = k'.keyword) : k = k' := by
  have hall : ∀ k ∈ listed, ∀ k' ∈ listed, k.keyword = k'.keyword → k = k' := by decide
  exact hall k (mem_listed hk) k' (mem_listed hk') h

/-- Shifts that are read alike are of one kind, and by one amount unless they are of no kind. -/
theorem Shift.agree_of_reading {s t : Shift} (hs : s.kind.isListed = true)
    (ht : t.kind.isListed = true) (hsi : s.hasIntegers = true) (hti : t.hasIntegers = true)
    (h : modifierArgs s.reading = modifierArgs t.reading) :
    s.kind = t.kind ∧ (s.kind ≠ .none → s.count = t.count) := by
  rw [reading_eq hs, reading_eq ht] at h
  by_cases hsnone : s.kind = .none <;> by_cases htnone : t.kind = .none <;>
    simp only [hsnone, htnone, if_true, if_false, modifierArgs, List.map_nil, List.map_cons,
      reduceCtorEq, List.cons.injEq, Arg.named.injEq, Option.getD_some, Option.some.injEq,
      and_true] at h
  · exact ⟨hsnone.trans htnone.symm, fun hne ↦ absurd hsnone hne⟩
  · obtain ⟨hkeyword, hamount⟩ := h
    obtain ⟨m, hm⟩ := Json.isInt_iff.1 hsi
    obtain ⟨n, hn⟩ := Json.isInt_iff.1 hti
    refine ⟨ShiftKind.keyword_injective hs ht hkeyword, fun _ ↦ ?_⟩
    simp only [amount, hm, hn, Json.toInt?_int, Option.getD_some] at hamount
    rw [hm, hn, hamount]

/-- Extends that are read alike both do nothing, or are the same. -/
theorem Extend.agree_of_reading {e f : Extend} (he : e.kind.isListed = true)
    (hf : f.kind.isListed = true) (hei : e.hasIntegers = true) (hfi : f.hasIntegers = true)
    (h : modifierArgs e.reading = modifierArgs f.reading) :
    e.isTrivial = true ∧ f.isTrivial = true ∨ e.kind = f.kind ∧ e.count = f.count := by
  obtain ⟨m, hm⟩ := Json.isInt_iff.1 hei
  obtain ⟨n, hn⟩ := Json.isInt_iff.1 hfi
  have htrivial : ∀ {g : Extend} {k : Int}, g.count = .int k →
      ((g.kind = .none ∨ g.kind = .lsl ∧ g.amount = 0) ↔ g.isTrivial = true) := by
    intro g k hk
    simp [isTrivial, amount, hk]
  rw [reading_eq he, reading_eq hf] at h
  simp only [htrivial hm, htrivial hn] at h
  cases hetrivial : e.isTrivial <;> cases hftrivial : f.isTrivial <;>
    simp only [hetrivial, hftrivial, if_true, if_false, modifierArgs, List.map_nil, List.map_cons,
      reduceCtorEq, List.cons.injEq, Arg.named.injEq, Option.getD_some, Bool.false_eq_true,
      and_true] at h
  · obtain ⟨hkeyword, hamount⟩ := h
    refine .inr ⟨ExtendKind.keyword_injective he hf hkeyword, ?_⟩
    -- An amount is shown exactly if it is not zero.
    simp only [amount, hm, hn, Json.toInt?_int, Option.getD_some] at hamount
    rw [hm, hn]
    split at hamount <;> split at hamount <;> simp_all
  · exact .inl ⟨rfl, rfl⟩

/-- What is kept of an operand of the architecture determines it up to its loss. -/
theorem Operand.agrees_of_keep_eq {la lb : Loss} {o p : Operand} (ha : la.Fits o) (hb : lb.Fits p)
    (ho : o.IsGeneral ∧ o.hasIntegers = true) (hp : p.IsGeneral ∧ p.hasIntegers = true)
    (h : o.keep la = p.keep lb) : Agrees la o p := by
  -- What is kept says from which loss and from which kind of operand it comes.
  cases ha <;> cases hb <;>
    simp only [keep, reduceCtorEq, Kept.register.injEq, Kept.immediate.injEq, Kept.shift.injEq,
      Kept.extend.injEq, Option.some.injEq, and_true, and_false, Int.natCast_inj] at h
  case width.width => exact h
  case triviality.triviality hs _ ht => exact ⟨hs, ht⟩
  case register.register => exact ⟨h.1, Register.size_eq_of_width ho.1 hp.1 h.2⟩
  case immediate.immediate => exact h
  case shift.shift => exact Shift.agree_of_reading ho.1 hp.1 ho.2 hp.2 h
  case extend.extend => exact Extend.agree_of_reading ho.1 hp.1 ho.2 hp.2 h
  all_goals trivial

/-- What is kept of operands of the architecture determines them up to their losses. -/
theorem Operand.agree_of_keep_eq {las lbs : List Loss} {os ps : List Operand}
    (ha : List.Forall₂ Loss.Fits las os) (hb : List.Forall₂ Loss.Fits lbs ps)
    (hos : ∀ o ∈ os, o.IsGeneral ∧ o.hasIntegers = true)
    (hps : ∀ p ∈ ps, p.IsGeneral ∧ p.hasIntegers = true)
    (h : List.zipWith keep las os = List.zipWith keep lbs ps) : Agree las os ps := by
  induction ha generalizing lbs ps with
  | nil =>
    cases hb with
    | nil => trivial
    | cons _ _ => cases h
  | cons hfirst _ ih =>
    cases hb with
    | nil => cases h
    | cons hfirst' hrest' =>
      simp only [List.zipWith_cons_cons, List.cons.injEq, List.forall_mem_cons] at h hos hps
      exact ⟨agrees_of_keep_eq hfirst hfirst' hos.1 hps.1 h.1, ih hrest' hos.2 hps.2 h.2⟩

/-- The losses of a form are losses that its operands can have. -/
theorem Form.losses_fit (setsFlags : Bool) (F : Form) :
    List.Forall₂ Loss.Fits (F.losses setsFlags) F.operands := by
  cases F with
  | logicalImmediate op rd rn imm => cases op <;> simp [losses, operands]
  | bitfield op rd rn immr imms => cases op <;> simp [losses, operands]
  | extract rd rn rm lsb => simp [losses, operands]
  | oneSource op rd rn =>
    simp only [losses, operands]
    split <;> simp
  | logicalShifted op rd rn rm s =>
    cases op with
    | orr =>
      simp only [losses, operands]
      split
      · rename_i halias
        simp [Loss.Fits.triviality (Bool.and_eq_true_iff.1 halias).2]
      · simp
    | _ => simp [losses, operands]
  | addSubtractShifted op rd rn rm s =>
    cases op with
    | add => simp [losses, operands]
    | sub =>
      simp only [losses, operands]
      split <;> simp
  | addSubtractExtended op rd rn rm e => simp [losses, operands]
  | addSubtractCarry op rd rn rm => cases op <;> simp [losses, operands]
  | conditionalSelect op rd rn rm =>
    simp only [losses, operands]
    split <;> simp
  | threeSource op rd rn rm ra =>
    simp only [losses, operands]
    split <;> simp

/-- Forms of which the same operands are kept agree in their operands. -/
theorem Form.agree_of_kept_eq {F G : Form} {setsFlags setsFlags' : Bool}
    (hF : ∀ o ∈ F.operands, o.IsGeneral ∧ o.hasIntegers = true)
    (hG : ∀ o ∈ G.operands, o.IsGeneral ∧ o.hasIntegers = true)
    (h : F.kept setsFlags = G.kept setsFlags') :
    Operand.Agree (F.losses setsFlags) F.operands G.operands :=
  Operand.agree_of_keep_eq (F.losses_fit _) (G.losses_fit _) hF hG h

end A64Text
