import Mathlib.Data.Int.Bitwise
import A64Text.Proofs.Meaning.Offsets

/-!
# The value that a wide move puts into a register

A wide immediate is shifted to the left inside the register (`zeroedValue`), and the inverting move
takes the complement of that (`invertedValue`). Both are the bits that the register keeps of the
unbounded shift and of its unbounded complement, which is below zero (`land_shiftLeft`,
`land_lnot_shiftLeft`), however far the shift goes. The register has 32 or 64 bits by its own width,
and the width of the immediate's field plays no part.

The moves that zero and invert print that value, and the move that keeps prints the immediate in
front of its shift (`Instruction.tokens_wideMove`). There is one limit: the immediate is shifted as
a whole before the bits of the register are taken, and so it must not get more digits than can be
counted (`wideMoveTokens_eq_error_iff`).
-/

namespace A64Text

/-! ### Values -/

/-- The value `v` shifted to the left by `k` bits, inside a register of `bits` bits. -/
def zeroedValue (bits v k : Nat) : Nat := v * fieldSpan k % fieldSpan bits

/-- The complement, inside the register, of the value `v` shifted to the left by `k` bits. -/
def invertedValue (bits v k : Nat) : Nat := fieldSpan bits - 1 - zeroedValue bits v k

section Values

variable (bits v k : Nat)

theorem zeroedValue_lt : zeroedValue bits v k < fieldSpan bits := Nat.mod_lt _ (fieldSpan_pos bits)

theorem invertedValue_lt : invertedValue bits v k < fieldSpan bits := by
  have hpos := fieldSpan_pos bits
  unfold invertedValue
  omega

/-- Every bit of the register is in one of the two values. -/
theorem zeroedValue_add_invertedValue :
    zeroedValue bits v k + invertedValue bits v k = fieldSpan bits - 1 := by
  have hlt := zeroedValue_lt bits v k
  unfold invertedValue
  omega

variable {bits k} in
/-- A shift past the register leaves nothing. -/
theorem zeroedValue_of_le (h : bits ≤ k) : zeroedValue bits v k = 0 := by
  obtain ⟨d, rfl⟩ := Nat.exists_eq_add_of_le h
  rw [zeroedValue, fieldSpan_add, Nat.mul_left_comm, Nat.mul_mod_right]

/-- What is computed for counts inside the register only is the value for every count. -/
theorem shiftedWord_eq : Layout.shiftedWord bits v k = zeroedValue bits v k := by
  unfold Layout.shiftedWord
  split
  · rfl
  · rename_i hk
    exact (zeroedValue_of_le v (Nat.not_lt.1 hk)).symm

/-- The register keeps the low bits of the unbounded shift. -/
theorem land_shiftLeft :
    Int.land (v <<< k : Nat) (fieldSpan bits - 1 : Nat) = zeroedValue bits v k := by
  show ((v <<< k &&& (2 ^ bits - 1) : Nat) : Int) = _
  rw [Nat.and_two_pow_sub_one_eq_mod, Nat.shiftLeft_eq]
  rfl

/-- The register keeps the low bits of the unbounded complement. -/
theorem land_lnot_shiftLeft :
    Int.land (Int.lnot (v <<< k : Nat)) (fieldSpan bits - 1 : Nat) = invertedValue bits v k := by
  have hvalue : zeroedValue bits v k = v <<< k % 2 ^ bits := by
    rw [Nat.shiftLeft_eq]
    rfl
  show ((Nat.ldiff (2 ^ bits - 1) (v <<< k) : Nat) : Int) = _
  congr 1
  apply Nat.eq_of_testBit_eq
  intro j
  have hlt : zeroedValue bits v k < 2 ^ bits := zeroedValue_lt bits v k
  have hinverted : invertedValue bits v k = 2 ^ bits - (zeroedValue bits v k + 1) := by
    show 2 ^ bits - 1 - _ = _
    omega
  rw [Nat.testBit_ldiff, Nat.testBit_two_pow_sub_one, hinverted,
    Nat.testBit_two_pow_sub_succ hlt, hvalue, Nat.testBit_mod_two_pow]
  cases decide (j < bits) <;> rfl

end Values

/-- A number of 64 bits makes an immediate of every width that an immediate can have. -/
theorem Immediate.exists_ofNumbers {n : Nat} {width : Number} (hn : n < fieldSpan 64)
    (hpos : (Number.int 0).less width = true) (hle : width.atMost (.int 64) = true) :
    ∃ built, ofNumbers (.int n) width = .ok built := by
  have hbounds : (Number.int 0).atMost (.int n) = true ∧
      (Number.int n).atMost (.int maxValue) = true := by
    rw [fieldSpan_64] at hn
    simp only [Number.atMost_int, maxValue, decide_eq_true_eq]
    omega
  exact ⟨_, by rw [ofNumbers, dif_pos hbounds, dif_pos ⟨hpos, hle⟩]⟩

/-! ### Lines -/

/-- A shift to the left by `k` bits, or the shift that is left out. -/
inductive Shift.LeftBy : Shift → Nat → Prop
  | lsl (k : Nat) : LeftBy ⟨.lsl, .int k⟩ k
  | empty : LeftBy {} 0

theorem Shift.LeftBy.toInt?_count {s : Shift} {k : Nat} (h : s.LeftBy k) :
    s.count.toInt? = some (k : Int) := by
  cases h <;> rfl

/-- The tokens of a move of a number to a register. -/
def moveTokens (rd : Register) (n : Nat) : List Token :=
  [.instruction "mov", .blank, .register rd.text, .comma, Immediate.hexToken n]

/-- What needs the value `v` shifted to the left by `k` bits fails if that finds no room. -/
def withRoom {α : Type} (v k : Nat) (a : α) : Except LayoutFault α :=
  if Room.holdsShift v k then .ok a else .error .room

theorem map_withRoom {α β : Type} (f : α → β) (v k : Nat) (a : α) :
    (withRoom v k a).map f = withRoom v k (f a) := by
  unfold withRoom
  split <;> rfl

/-- What a wide move of the value `v` prints, if its shift moves `v` to the left by `k` bits. -/
def wideMoveTokens (op : MoveWideOp) (rd : Register) (bits v k : Nat) (s : Shift) :
    Except LayoutFault (List Token) :=
  match op with
  | .movk => .ok ([.instruction "movk", .blank, .register rd.text, .comma,
      Immediate.hexToken (v % fieldSpan bits : Nat)] ++ s.tokens)
  | .movz => withRoom v k (moveTokens rd (zeroedValue bits v k))
  | .movn => withRoom v k (moveTokens rd (invertedValue bits v k))

theorem withRoom_eq_error_iff {α : Type} {v k : Nat} {a : α} :
    withRoom v k a = .error .room ↔ v ≠ 0 ∧ Room.maxLimbs < Room.shiftedLimbs v k := by
  rw [← Room.holdsShift_eq_false_iff, withRoom]
  cases Room.holdsShift v k <;> simp

/-- A wide move prints nothing if and only if it shifts a value that is not zero, and the shifted
value has more digits than can be counted. -/
theorem wideMoveTokens_eq_error_iff {op : MoveWideOp} {rd : Register} {bits v k : Nat} {s : Shift} :
    wideMoveTokens op rd bits v k s = .error .room ↔
      op ≠ .movk ∧ v ≠ 0 ∧ Room.maxLimbs < Room.shiftedLimbs v k := by
  cases op with
  | movk => simp [wideMoveTokens]
  | movz => simp only [wideMoveTokens, withRoom_eq_error_iff, ne_eq, reduceCtorEq,
      not_false_eq_true, true_and]
  | movn => simp only [wideMoveTokens, withRoom_eq_error_iff, ne_eq, reduceCtorEq,
      not_false_eq_true, true_and]

/-- A wide move prints if it has room for the shift. -/
theorem exists_wideMoveTokens {v k : Nat} (h : Room.holdsShift v k = true) (op : MoveWideOp)
    (rd : Register) (bits : Nat) (s : Shift) : ∃ ts, wideMoveTokens op rd bits v k s = .ok ts := by
  cases op with
  | movk => exact ⟨_, rfl⟩
  | movz => exact ⟨_, if_pos h⟩
  | movn => exact ⟨_, if_pos h⟩

namespace Layout

theorem shiftedImmediate_eq {imm : Immediate} {s : Shift} {k : Nat}
    (himm : imm.hasIntegers = true) (hs : s.LeftBy k) (bits : Nat) :
    shiftedImmediate bits imm s = withRoom imm.value k (zeroedValue bits imm.value k) := by
  rw [shiftedImmediate, hs.toInt?_count, Immediate.given_eq_value himm]
  simp only [Number.integer?_int, if_neg (Int.not_lt.2 (Int.natCast_nonneg k)),
    Int.toNat_natCast, shiftedWord_eq]
  rfl

/-- A move of a number that fits into the register shows the number. -/
theorem tokens_move {rd : Register} {n bits : Nat} (hn : n < fieldSpan bits)
    (hbits : 0 < bits ∧ bits ≤ 64) :
    tokens ⟨"mov", [rd, Immediate.truncate n bits hbits]⟩ = moveTokens rd n := by
  show moveTokens rd (n % fieldSpan bits) = _
  rw [Nat.mod_eq_of_lt hn]

end Layout

namespace Instruction

variable {i : Instruction}

/-- An instruction with an opcode prints what the family of the opcode lays out. -/
theorem HasOpcode.tokens_eq {op : Opcode} (h : i.HasOpcode op) :
    i.tokens = (op.family.layout i).map Layout.tokens := by
  obtain ⟨n, hn⟩ := Option.isSome_iff_exists.1 h.given
  have hfamily := Operation.family?_of_opcode? hn h.opcode
  obtain ⟨m, hm, -⟩ := Option.bind_eq_some_iff.1 hfamily
  rw [tokens_of_number? hm, hfamily]
  exact Family.tokens_eq _ h.integers (Operation.isKey_of_number? hm)

theorem HasOpcode.tokens_wide {op : MoveWideOp} {rd : Register} {imm : Immediate} {s : Shift}
    {size : Int} {k : Nat} (h : i.HasOpcode (.moveWideImmediate op))
    (hos : i.operands = [.register rd, .immediate imm, .shift s]) (hsize : rd.size = .int size)
    (hs : s.LeftBy k) :
    i.tokens = wideMoveTokens op rd (registerBits (.int size)) imm.value k s := by
  have himm : imm.hasIntegers = true := i.immediate_hasIntegers h.integers (by simp [hos])
  have hop := h.opcode
  rw [h.tokens_eq]
  show (Layout.moveWideImmediate i).map _ = _
  cases op with
  | movk =>
    simp only [Layout.moveWideImmediate, hos, hop, hsize, Json.toNumber?_int,
      Immediate.given_eq_value himm]
    exact congrArg Except.ok (congrArg (_ :: _ :: _ :: _ :: _ :: ·) (List.append_nil s.tokens))
  | movz =>
    simp only [Layout.moveWideImmediate, hos, hop, hsize, Json.toNumber?_int,
      Layout.shiftedImmediate_eq himm hs, map_withRoom, Layout.tokens_move (zeroedValue_lt _ _ _)]
    rfl
  | movn =>
    simp only [Layout.moveWideImmediate, hos, hop, hsize, Json.toNumber?_int,
      Layout.shiftedImmediate_eq himm hs, map_withRoom]
    exact congrArg (withRoom _ _) (Layout.tokens_move (invertedValue_lt _ _ _) _)

/-- **A wide move prints the value that the register receives, if it has room for the shift.** The
register has 32 or 64 bits by its own width. The moves that zero and invert show the value shifted
to the left inside the register and its complement there, and the move that keeps shows the low bits
of the value in front of the shift. The two values are the bits that the register keeps of the
unbounded shift and of the complement of that; they add up to the largest value of the register, and
a shift past the register leaves nothing of the one and everything of the other. Building the
immediate that is shown never fails, and the width of the given immediate plays no part. Only a
value that is not zero, shifted by the other two moves so far that it has more digits than can be
counted, finds no room, and then nothing is printed. -/
theorem tokens_wideMove {op : MoveWideOp} {rd : Register} {imm : Immediate} {s : Shift}
    {size : Int} {bits k : Nat} (h : i.HasOpcode (.moveWideImmediate op))
    (hos : i.operands = [.register rd, .immediate imm, .shift s]) (hsize : rd.size = .int size)
    (hbits : bits = if size ≤ 32 then 32 else 64) (hs : s.LeftBy k) :
    i.tokens = wideMoveTokens op rd bits imm.value k s ∧
      (i.tokens = .error .room ↔
        op ≠ .movk ∧ imm.value ≠ 0 ∧ Room.maxLimbs < Room.shiftedLimbs imm.value k) ∧
      (imm.value = 0 ∨ k ≤ 69175290276410818260 → ∃ ts, i.tokens = .ok ts) ∧
      (zeroedValue bits imm.value k < fieldSpan bits ∧
        invertedValue bits imm.value k < fieldSpan bits ∧
        zeroedValue bits imm.value k + invertedValue bits imm.value k = fieldSpan bits - 1) ∧
      (bits ≤ k → zeroedValue bits imm.value k = 0 ∧
        invertedValue bits imm.value k = fieldSpan bits - 1) ∧
      Int.land (imm.value <<< k : Nat) (fieldSpan bits - 1 : Nat) =
        zeroedValue bits imm.value k ∧
      Int.land (Int.lnot (imm.value <<< k : Nat)) (fieldSpan bits - 1 : Nat) =
        invertedValue bits imm.value k ∧
      (∃ built, Immediate.ofNumbers (.int (zeroedValue bits imm.value k)) (.int bits) =
        .ok built) ∧
      (∃ built, Immediate.ofNumbers (.int (invertedValue bits imm.value k)) (.int bits) =
        .ok built) ∧
      (∃ built, Immediate.ofNumbers (.int (imm.value % fieldSpan bits : Nat)) imm.width =
        .ok built) ∧
      ∀ (j : Instruction) (imm' : Immediate), j.HasOpcode (.moveWideImmediate op) →
        j.operands = [.register rd, .immediate imm', .shift s] → imm'.value = imm.value →
          j.tokens = i.tokens := by
  obtain rfl : bits = registerBits (.int size) := by
    rw [hbits, registerBits, Number.atMost_int]
    simp
  have hwidth := Layout.registerBits_bounds (.int size)
  have hspan : fieldSpan (registerBits (.int size)) ≤ fieldSpan 64 := fieldSpan_le hwidth.2
  have hzeroed := zeroedValue_lt (registerBits (.int size)) imm.value k
  have hinverted := invertedValue_lt (registerBits (.int size)) imm.value k
  have hbuilt : ∀ n < fieldSpan (registerBits (.int size)),
      ∃ built, Immediate.ofNumbers (.int n) (.int (registerBits (.int size))) = .ok built :=
    fun n hn ↦ Immediate.exists_ofNumbers (hn.trans_le hspan) (by simp; omega) (by simp; omega)
  have htokens := h.tokens_wide hos hsize hs
  refine ⟨htokens, ?_, fun hsmall ↦ ?_, ⟨hzeroed, hinverted,
    zeroedValue_add_invertedValue _ _ _⟩, fun hk ↦ ?_, land_shiftLeft _ _ _,
    land_lnot_shiftLeft _ _ _, hbuilt _ hzeroed, hbuilt _ hinverted, ?_,
    fun j imm' hj hosj hvalue ↦ ?_⟩
  · rw [htokens]
    exact wideMoveTokens_eq_error_iff
  · have hroom : Room.holdsShift imm.value k = true := by
      rcases hsmall with hzero | hk
      · exact Room.holdsShift_iff.2 (.inl hzero)
      · exact Room.holdsShift_of_le imm.value_lt hk
    rw [htokens]
    exact exists_wideMoveTokens hroom op rd _ s
  · have hzero := zeroedValue_of_le imm.value hk
    rw [invertedValue, hzero]
    exact ⟨rfl, rfl⟩
  · exact Immediate.exists_ofNumbers ((Nat.mod_le _ _).trans_lt imm.value_lt) imm.width_pos
      imm.width_le
  · rw [htokens, hj.tokens_wide hosj hsize hs, hvalue]

end Instruction

/-- An inverting move of a value of 33 bits to a register of 32 bits. -/
def narrowInversion : Instruction where
  operation := .named (.moveWideImmediate .movn)
  operands := [.register ⟨1, .int 32⟩,
    .immediate (.ofNats 0x100000001 40 (by decide) (by decide)), .shift ⟨.lsl, .int 16⟩]

/-- The top bit of the value is lost in the register. -/
theorem Instruction.tokens_wideMove_narrowInversion :
    narrowInversion.HasOpcode (.moveWideImmediate .movn) ∧ Shift.LeftBy ⟨.lsl, .int 16⟩ 16 ∧
      narrowInversion.text = .ok "mov w1, #0xfffeffff" ∧
      narrowInversion.tokens = .ok (moveTokens ⟨1, .int 32⟩ 0xFFFEFFFF) := by
  have hopcode : narrowInversion.HasOpcode (.moveWideImmediate .movn) := ⟨rfl, rfl, rfl⟩
  have hshift : Shift.LeftBy ⟨.lsl, .int 16⟩ 16 := .lsl 16
  refine ⟨hopcode, hshift, by decide +kernel, ?_⟩
  rw [(tokens_wideMove hopcode rfl rfl rfl hshift).1]
  decide +kernel

/-- A zeroing move whose shift goes far past the register. -/
def enormousMove : Instruction where
  operation := .named (.moveWideImmediate .movz)
  operands := [.register ⟨3, .int 64⟩, .immediate (.halfword 0xFFFF),
    .shift ⟨.lsl, .int 1000000000000000000000000000000⟩]

/-- The register would receive zero, but the shift finds no room and nothing is printed. -/
theorem Instruction.enormousMove_prints_nothing :
    enormousMove.HasOpcode (.moveWideImmediate .movz) ∧
      Shift.LeftBy ⟨.lsl, .int 1000000000000000000000000000000⟩ 1000000000000000000000000000000 ∧
      zeroedValue 64 0xFFFF 1000000000000000000000000000000 = 0 ∧
      enormousMove.tokens = .error .room ∧
      enormousMove.tokens ≠ .ok (moveTokens ⟨3, .int 64⟩ 0) := by
  have htokens : enormousMove.tokens = .error .room := by decide +kernel
  refine ⟨⟨rfl, rfl, rfl⟩, .lsl _, zeroedValue_of_le _ (by decide), htokens, ?_⟩
  rw [htokens]
  exact fun h ↦ by cases h

end A64Text
