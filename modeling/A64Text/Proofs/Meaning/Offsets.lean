import Mathlib.Data.Int.ModEq
import A64Text.Proofs.Layout.Text

/-!
# Offsets from the program counter

A branch, and the address of a label, show an immediate as an offset. The offset is the number that
the field stands for as a two's complement number (`Immediate.isSigned_iff`): the only one in the
range of the field that is congruent to the value. The address of a page shows its offset in bytes,
in a field that has twelve bits more, if a word holds them (`Immediate.isSigned_pageOffset_iff`).

The offset is the last operand of the line, in base sixteen, and it is read back as the number that
it is (`Instruction.ShowsOffset`).
-/

namespace A64Text

open Line

/-! ### Two's complement numbers -/

/-- A two's complement number of `bits` bits that is congruent to `n`. -/
structure IsSigned (bits : Nat) (n r : Int) : Prop where
  lower : -(fieldSpan (bits - 1) : Int) ≤ r
  upper : r < fieldSpan (bits - 1)
  modEq : r ≡ n [ZMOD fieldSpan bits]

/-- A field has twice the values of one that is a bit shorter. -/
theorem fieldSpan_pred {bits : Nat} (h : 0 < bits) :
    (fieldSpan bits : Int) = 2 * fieldSpan (bits - 1) := by
  obtain ⟨bits, rfl⟩ := Nat.exists_eq_succ_of_ne_zero h.ne'
  rw [Nat.succ_eq_add_one, fieldSpan_succ, Nat.add_sub_cancel]
  omega

theorem fieldSpan_add (m n : Nat) : fieldSpan (m + n) = fieldSpan m * fieldSpan n :=
  Nat.pow_add 2 m n

theorem natCast_fieldSpan (bits : Nat) : (fieldSpan bits : Int) = 2 ^ bits :=
  Nat.cast_pow 2 bits

/-- Congruent numbers of one range are the same. -/
theorem IsSigned.unique {bits : Nat} {n r r' : Int} (hbits : 0 < bits) (h : IsSigned bits n r)
    (h' : IsSigned bits n r') : r = r' := by
  have hspan := fieldSpan_pred hbits
  have hdvd : (fieldSpan bits : Int) ∣ r' - r := (h.modEq.trans h'.modEq.symm).dvd
  have hlt : |r' - r| < fieldSpan bits := by
    have := h.lower
    have := h.upper
    have := h'.lower
    have := h'.upper
    rw [abs_lt]
    omega
  have hzero := Int.eq_zero_of_abs_lt_dvd hdvd hlt
  omega

theorem IsSigned.congr {bits : Nat} {m n r : Int} (hmn : m ≡ n [ZMOD fieldSpan bits]) :
    IsSigned bits m r ↔ IsSigned bits n r :=
  ⟨fun h ↦ ⟨h.lower, h.upper, h.modEq.trans hmn⟩,
    fun h ↦ ⟨h.lower, h.upper, h.modEq.trans hmn.symm⟩⟩

/-- What a bit vector stands for is a two's complement number of its width. -/
theorem isSigned_toInt {w : Nat} (x : BitVec w) : IsSigned w x.toNat x.toInt where
  lower := by
    rw [natCast_fieldSpan]
    exact x.le_toInt
  upper := by
    rw [natCast_fieldSpan]
    exact BitVec.toInt_lt
  modEq := by
    rw [BitVec.toInt_eq_toNat_bmod]
    exact Int.bmod_emod

namespace Immediate

variable (imm : Immediate)

/-- The top bit of a field is set if its low bits make at least half of its span. -/
theorem isNegative_iff :
    imm.isNegative = true ↔ fieldSpan (imm.size - 1) ≤ imm.value % fieldSpan imm.size := by
  have hpos := fieldSpan_pos (imm.size - 1)
  have hspan : fieldSpan imm.size = fieldSpan (imm.size - 1) * 2 := by
    rw [← fieldSpan_succ, Nat.sub_add_cancel imm.size_pos]
  have hbit : imm.value % fieldSpan imm.size / fieldSpan (imm.size - 1) =
      imm.value / fieldSpan (imm.size - 1) % 2 := by
    rw [hspan, Nat.mod_mul_right_div_self]
  have hhalf : fieldSpan (imm.size - 1) ≤ imm.value % fieldSpan imm.size ↔
      1 ≤ imm.value % fieldSpan imm.size / fieldSpan (imm.size - 1) := by
    rw [Nat.le_div_iff_mul_le hpos, Nat.one_mul]
  rw [isNegative, Nat.testBit_eq_decide_div_mod_eq, decide_eq_true_eq, hhalf, hbit]
  show imm.value / fieldSpan (imm.size - 1) % 2 = 1 ↔ _
  omega

/-- The number that a field stands for is a two's complement number congruent to its value. -/
theorem isSigned_signed : IsSigned imm.size imm.value imm.signed := by
  have hspan := fieldSpan_pred imm.size_pos
  have hlow : imm.value % fieldSpan imm.size < fieldSpan imm.size :=
    Nat.mod_lt _ (fieldSpan_pos _)
  have hnegative := imm.isNegative_iff
  have hlow_modEq : ((imm.value % fieldSpan imm.size : Nat) : Int) ≡ imm.value
      [ZMOD fieldSpan imm.size] := by
    rw [Int.natCast_mod]
    exact Int.mod_modEq _ _
  rw [signed]
  split
  · rename_i htop
    have hhalf := hnegative.1 htop
    refine ⟨by omega, by omega, ?_⟩
    exact (Int.sub_modulus_modEq_iff.2 Int.ModEq.rfl).trans hlow_modEq
  · rename_i htop
    have hhalf := mt hnegative.2 htop
    exact ⟨by omega, by omega, hlow_modEq⟩

/-- No other number is one. -/
theorem isSigned_iff {r : Int} : IsSigned imm.size imm.value r ↔ r = imm.signed := by
  constructor
  · exact fun h ↦ h.unique imm.size_pos imm.isSigned_signed
  · rintro rfl
    exact imm.isSigned_signed

/-- The top bit of a field is set if it stands for a number below zero. -/
theorem isNegative_iff_signed_neg : imm.isNegative = true ↔ imm.signed < 0 := by
  have hlow : imm.value % fieldSpan imm.size < fieldSpan imm.size :=
    Nat.mod_lt _ (fieldSpan_pos _)
  cases htop : imm.isNegative with
  | true =>
    rw [signed, if_pos htop]
    simp only [true_iff]
    omega
  | false =>
    rw [signed, if_neg (Bool.eq_false_iff.1 htop)]
    simp only [Bool.false_eq_true, false_iff]
    omega

/-- A field stands for the same number when it is read as a bit vector. -/
theorem toInt_ofNat : (BitVec.ofNat imm.size imm.value).toInt = imm.signed := by
  refine imm.isSigned_iff.1 ((IsSigned.congr ?_).1 (isSigned_toInt _))
  rw [BitVec.toNat_ofNat, Int.natCast_mod]
  exact Int.mod_modEq _ _

/-- A field stands for the same number when it is extended by its sign to the width of a word, and
read in any width from its own on. -/
theorem signed_of_signExtend {imm imm' : Immediate} (hsize : imm.size ≤ imm'.size)
    (hvalue : imm'.value = ((BitVec.ofNat imm.size imm.value).signExtend 64).toNat) :
    imm'.signed = imm.signed := by
  have hword := isSigned_toInt ((BitVec.ofNat imm.size imm.value).signExtend 64)
  rw [BitVec.toInt_signExtend_of_le imm.size_le, toInt_ofNat, ← hvalue] at hword
  have hspan : (fieldSpan (imm.size - 1) : Int) ≤ fieldSpan (imm'.size - 1) :=
    Int.ofNat_le.2 (fieldSpan_le (Nat.sub_le_sub_right hsize 1))
  have hdvd : (fieldSpan imm'.size : Int) ∣ fieldSpan 64 :=
    Int.natCast_dvd_natCast.2 (Nat.pow_dvd_pow 2 imm'.size_le)
  have hfield := imm.isSigned_signed
  have hwide : IsSigned imm'.size imm'.value imm.signed :=
    ⟨(Int.neg_le_neg hspan).trans hfield.lower, hfield.upper.trans_le hspan,
      hword.modEq.of_dvd hdvd⟩
  exact (imm'.isSigned_iff.1 hwide).symm

theorem pageWidth_bounds : 0 < min (imm.size + 12) 64 ∧ min (imm.size + 12) 64 ≤ 64 := by
  omega

/-- The offset of a page in bytes. Its field has twelve bits more, if a word holds them. -/
def pageOffset : Immediate :=
  truncate (imm.value * Layout.pageSize) (min (imm.size + 12) 64) imm.pageWidth_bounds

/-- The offset of a page is the only two's complement number of its field that is congruent to the
value in bytes. -/
theorem isSigned_pageOffset_iff {r : Int} :
    IsSigned (min (imm.size + 12) 64) (4096 * imm.value) r ↔ r = imm.pageOffset.signed := by
  rw [← isSigned_iff]
  refine IsSigned.congr ?_
  have hvalue : (imm.pageOffset.value : Int) =
      (4096 * imm.value : Int) % fieldSpan (min (imm.size + 12) 64) := by
    rw [mul_comm]
    rfl
  rw [hvalue]
  exact (Int.mod_modEq _ _).symm

/-- Where a word holds the twelve bits, the offset of a page is exact. -/
theorem signed_pageOffset (h : imm.size ≤ 52) : imm.pageOffset.signed = 4096 * imm.signed := by
  have hwidth : min (imm.size + 12) 64 = imm.size + 12 := by omega
  have hspan : fieldSpan (imm.size + 12) = fieldSpan imm.size * 4096 := fieldSpan_add _ 12
  have hhalf : fieldSpan (imm.size + 12 - 1) = fieldSpan (imm.size - 1) * 4096 := by
    rw [Nat.sub_add_comm imm.size_pos]
    exact fieldSpan_add _ 12
  obtain ⟨hlower, hupper, hmodEq⟩ := imm.isSigned_signed
  refine (imm.isSigned_pageOffset_iff.1 ?_).symm
  rw [hwidth]
  refine ⟨by omega, by omega, ?_⟩
  rw [hspan, Int.natCast_mul, mul_comm (fieldSpan imm.size : Int)]
  exact hmodEq.mul_left'

end Immediate

/-! ### Lines that show an offset -/

/-- An instruction with an opcode that is given by an integer, and with integers in its fields. -/
structure Instruction.HasOpcode (i : Instruction) (op : Opcode) : Prop where
  opcode : i.opcode? = some op
  given : i.operation.integer?.isSome = true
  integers : i.hasIntegers = true

/-- The instruction prints, the last token is a number in base sixteen, and the last operand of the
line that the text is read as is that number. -/
def Instruction.ShowsOffset (i : Instruction) (n : Int) : Prop :=
  ∃ ts line, i.tokens = .ok ts ∧ i.text = .ok (Token.concat ts) ∧
    ts.getLast? = some (Immediate.hexToken n) ∧ Line.read (Token.concat ts) = .ok line ∧
    line.operands.getLast? = some (.term ⟨none, some n⟩)

/-- The operands of an opcode that shows an immediate as an offset, with that immediate: those of
the branches, and those of the address of a label. -/
inductive Opcode.Targets : Opcode → List Operand → Immediate → Prop
  | label (rd : Register) (imm : Immediate) (s : Shift) :
    Targets (.pcRelativeAddressing .adr) [.register rd, .immediate imm, .shift s] imm
  | conditionalBranch (imm : Immediate) : Targets .conditionalBranch [.immediate imm] imm
  | branchImmediate (op : BranchImmediateOp) (imm : Immediate) :
    Targets (.branchImmediate op) [.immediate imm] imm
  | compareAndBranch (op : CompareBranchOp) (rt : Register) (imm : Immediate) :
    Targets (.compareAndBranch op) [.register rt, .immediate imm] imm
  | testAndBranch (op : TestBranchOp) (rt : Register) (bit imm : Immediate) :
    Targets (.testAndBranch op) [.register rt, .immediate bit, .immediate imm] imm

/-- The last token of a layout is that of its last part. -/
theorem Layout.getLast?_tokens (m : String) (ps : List Part) (imm : Immediate) :
    (tokens ⟨m, ps ++ [.signed imm]⟩).getLast? = some (Immediate.hexToken imm.signed) := by
  cases ps with
  | nil => rfl
  | cons p ps =>
    have hlast : (tokens ⟨m, p :: ps ++ [.signed imm]⟩) =
        (.instruction m :: .blank :: p.tokens ++ (ps.map Part.segment).flatMap Segment.following ++
          [.comma]) ++ [Immediate.hexToken imm.signed] := by
      simp [tokens, Segment.line, Segment.join, Part.segment, Segment.following, Part.attaches,
        Part.tokens, Immediate.signedTokens]
    rw [hlast, List.getLast?_concat]

/-- An instruction shows the offset that its layout ends in. -/
theorem Instruction.HasOpcode.showsOffset {i : Instruction} {op : Opcode} {os : List Operand}
    {m : String} {ps : List Part} {terms : List Term} {imm : Immediate} (h : i.HasOpcode op)
    (hos : i.operands = os) (hnat : os.all Operand.hasNaturals = true)
    (hfirst : os.head?.any Operand.isModifier = false)
    (hl : op.family.layout i = .ok ⟨m, ps ++ [.signed imm]⟩)
    (hps : List.Forall₂ Part.ReadsAlone ps terms) : i.ShowsOffset imm.signed := by
  subst hos
  obtain ⟨n, hn⟩ := Option.isSome_iff_exists.1 h.given
  have hfamily := Operation.family?_of_opcode? hn h.opcode
  have htokens := Instruction.tokens_of_layout h.integers hfamily hl
  obtain ⟨-, hderives⟩ :=
    Opcode.accepts_of_layout h.integers (Operation.isKey_of_integer? hn) h.opcode hl
  have hm : IsMnemonic m := hderives.mnemonic.resolve_right fun hpsb ↦ by simp at hpsb
  have hread := hderives.read_text h.integers hnat hfirst hm
  have hall : List.Forall₂ Part.ReadsAlone (ps ++ [.signed imm])
      (terms ++ [⟨none, some imm.signed⟩]) :=
    List.rel_append hps (.cons (Part.readsAlone_signed imm) .nil)
  rw [Part.ReadsAlone.fuseItems_readings hall] at hread
  refine ⟨_, _, htokens, ?_, Layout.getLast?_tokens m ps imm, hread, ?_⟩
  · rw [text, htokens]
    rfl
  · simp

/-- The branches and the address of a label show the offset that their immediate stands for. -/
theorem Instruction.HasOpcode.showsOffset_of_targets {i : Instruction} {op : Opcode}
    {imm : Immediate} (h : i.HasOpcode op) (htargets : op.Targets i.operands imm) :
    i.ShowsOffset imm.signed := by
  have hop := h.opcode
  generalize hos : i.operands = os at htargets
  cases htargets with
  | label rd imm s =>
    have hl : Layout.pcRelativeAddressing i = .ok ⟨"adr", [(rd : Part)] ++ [.signed imm]⟩ := by
      simp only [Layout.pcRelativeAddressing, hop, hos]
      rfl
    exact h.showsOffset hos rfl rfl hl (.cons (Part.readsAlone_register rd) .nil)
  | conditionalBranch imm =>
    have hl : Layout.conditionalBranch i =
        .ok ⟨"b." ++ i.conditionOf.text, [] ++ [.signed imm]⟩ := by
      simp only [Layout.conditionalBranch, hop, hos]
      rfl
    exact h.showsOffset hos rfl rfl hl .nil
  | branchImmediate op imm =>
    obtain ⟨m, hl⟩ : ∃ m, Layout.branchImmediate i = .ok ⟨m, [] ++ [.signed imm]⟩ := by
      cases op <;> simp only [Layout.branchImmediate, hop, hos] <;> exact ⟨_, rfl⟩
    exact h.showsOffset hos rfl rfl hl .nil
  | compareAndBranch op rt imm =>
    obtain ⟨m, hl⟩ : ∃ m,
        Layout.compareAndBranch i = .ok ⟨m, [(rt : Part)] ++ [.signed imm]⟩ := by
      cases op <;> simp only [Layout.compareAndBranch, hop, hos] <;> exact ⟨_, rfl⟩
    exact h.showsOffset hos rfl rfl hl (.cons (Part.readsAlone_register rt) .nil)
  | testAndBranch op rt bit imm =>
    have hbit : bit.hasIntegers = true := i.immediate_hasIntegers h.integers (by simp [hos])
    obtain ⟨m, hl⟩ : ∃ m, Layout.testAndBranch i =
        .ok ⟨m, [(rt : Part), .decimal bit.given] ++ [.signed imm]⟩ := by
      cases op <;> simp only [Layout.testAndBranch, hop, hos] <;> exact ⟨_, rfl⟩
    exact h.showsOffset hos rfl rfl hl
      (.cons (Part.readsAlone_register rt) (.cons (Part.readsAlone_given hbit) .nil))

/-- The address of a page shows its offset in bytes. -/
theorem Instruction.HasOpcode.showsOffset_page {i : Instruction} {rd : Register} {imm : Immediate}
    {s : Shift} (h : i.HasOpcode (.pcRelativeAddressing .adrp))
    (hos : i.operands = [.register rd, .immediate imm, .shift s]) :
    i.ShowsOffset imm.pageOffset.signed := by
  have hop := h.opcode
  have himm : imm.hasIntegers = true := i.immediate_hasIntegers h.integers (by simp [hos])
  have hl : Layout.pcRelativeAddressing i =
      .ok ⟨"adrp", [(rd : Part)] ++ [.signed imm.pageOffset]⟩ := by
    simp only [Layout.pcRelativeAddressing, hop, hos, Layout.pageFault?_eq_none himm]
    rfl
  exact h.showsOffset hos rfl rfl hl (.cons (Part.readsAlone_register rd) .nil)

/-- Offsets from the program counter are exact. What an immediate stands for is the only two's
complement number of its field that is congruent to its value; its top bit is set exactly if it is
below zero, and it stays what it is if the value is extended by its sign. The branches and the
address of a label show this number in base sixteen, and it is read back from what they print. The
address of a page always prints, and shows the only two's complement number of a field with twelve
bits more, up to the width of a word, that is congruent to the value in bytes. For a field of at
most 52 bits this is what the immediate stands for, in bytes, whatever bits the value has above the
field. -/
theorem Immediate.signed_exact (imm : Immediate) :
    (∀ r, IsSigned imm.size imm.value r ↔ r = imm.signed) ∧
    (imm.isNegative = true ↔ imm.signed < 0) ∧
    (∀ imm' : Immediate, imm.size ≤ imm'.size →
      imm'.value = ((BitVec.ofNat imm.size imm.value).signExtend 64).toNat →
        imm'.signed = imm.signed) ∧
    (∀ (i : Instruction) (op : Opcode), i.HasOpcode op → op.Targets i.operands imm →
      i.ShowsOffset imm.signed) ∧
    ∀ (i : Instruction) (rd : Register) (s : Shift), i.HasOpcode (.pcRelativeAddressing .adrp) →
      i.operands = [.register rd, .immediate imm, .shift s] →
        ∃ r, i.ShowsOffset r ∧
          (∀ r', IsSigned (min (imm.size + 12) 64) (4096 * imm.value) r' ↔ r' = r) ∧
          (imm.size ≤ 52 → r = 4096 * imm.signed) := by
  refine ⟨fun r ↦ imm.isSigned_iff, imm.isNegative_iff_signed_neg,
    fun imm' hsize hvalue ↦ signed_of_signExtend hsize hvalue,
    fun i op h htargets ↦ h.showsOffset_of_targets htargets, fun i rd s h hos ↦ ?_⟩
  exact ⟨imm.pageOffset.signed, h.showsOffset_page hos, fun r' ↦ imm.isSigned_pageOffset_iff,
    imm.signed_pageOffset⟩

/-- The address of the page before, in a field of 20 bits with a bit above them. -/
def previousPage : Instruction where
  operation := .named (.pcRelativeAddressing .adrp)
  operands := [.register ⟨0, .int 64⟩, .immediate (.ofNats 0x1FFFFF 20 (by decide) (by decide)),
    .shift {}]

/-- The previous page is 4096 bytes in front. -/
theorem Immediate.signed_exact_page :
    previousPage.text = .ok "adrp x0, #-0x1000" ∧ ∃ r, previousPage.ShowsOffset r ∧ r = -4096 := by
  have htext : previousPage.text = .ok "adrp x0, #-0x1000" := by decide +kernel
  obtain ⟨-, -, -, -, hpage⟩ := signed_exact (.ofNats 0x1FFFFF 20 (by decide) (by decide))
  obtain ⟨r, hshows, -, hexact⟩ := hpage previousPage ⟨0, .int 64⟩ {} ⟨rfl, rfl, rfl⟩ rfl
  refine ⟨htext, r, hshows, ?_⟩
  rw [hexact (by decide)]
  decide

end A64Text
