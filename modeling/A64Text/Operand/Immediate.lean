import A64Text.Token

/-!
# Immediates

An immediate is an unsigned value of at most 64 bits together with the width of the encoding field
that it was read from. Both bounds are part of the type. The field width matters for offsets only:
`signed` reads the low `size` bits as a two's complement number and ignores the bits above them.

Both numbers are kept as they were given, and `value` and `size` are the integers that bits are
taken from. A real number is within the bounds as well as an integer, but has no bits: as a value it
is only shown in base ten, and `fault?` and `signedFault?` tell when an immediate does not print.
-/

namespace A64Text

/-! ### Fields -/

/-- How many values a field of `bits` bits can hold. -/
def fieldSpan (bits : Nat) : Nat := Nat.pow 2 bits

@[simp] theorem fieldSpan_zero : fieldSpan 0 = 1 := rfl

/-- One more bit doubles the number of values. -/
theorem fieldSpan_succ (bits : Nat) : fieldSpan (bits + 1) = fieldSpan bits * 2 := rfl

theorem fieldSpan_pos (bits : Nat) : 0 < fieldSpan bits := Nat.pow_pos (by decide)

theorem fieldSpan_le {m n : Nat} (h : m ≤ n) : fieldSpan m ≤ fieldSpan n :=
  Nat.pow_le_pow_right (by decide) h

/-- The number of 64-bit values. -/
theorem fieldSpan_64 : fieldSpan 64 = 0x10000000000000000 := rfl

/-! ### Immediates -/

/-- The largest value of 64 bits. -/
def maxValue : Int := 0xFFFFFFFFFFFFFFFF

/-- An unsigned value and the width of its field. -/
structure Immediate where
  /-- The value as it was given. -/
  given : Number
  /-- The width of the field as it was given. -/
  width : Number
  given_nonneg : (Number.int 0).atMost given = true
  given_le : given.atMost (.int maxValue) = true
  width_pos : (Number.int 0).less width = true
  width_le : width.atMost (.int 64) = true
  deriving DecidableEq, Repr

namespace Immediate

/-- The value in bits; a real number has none. -/
def value (imm : Immediate) : Nat := (imm.given.integer?.getD 0).toNat

/-- The width of the field in bits; for a real number it is the largest one. -/
def size (imm : Immediate) : Nat := (imm.width.integer?.getD 64).toNat

theorem value_lt (imm : Immediate) : imm.value < 0x10000000000000000 := by
  have h := imm.given_le
  unfold value
  unfold Number.atMost maxValue at h
  cases hg : imm.given.integer? with
  | none => decide
  | some n =>
    simp only [hg, Number.integer?_int, decide_eq_true_eq] at h
    simp only [Option.getD_some]
    omega

theorem size_pos (imm : Immediate) : 0 < imm.size := by
  have h := imm.width_pos
  unfold size
  unfold Number.less at h
  cases hw : imm.width.integer? with
  | none => decide
  | some n =>
    simp only [hw, Number.integer?_int, decide_eq_true_eq] at h
    simp only [Option.getD_some]
    omega

theorem size_le (imm : Immediate) : imm.size ≤ 64 := by
  have h := imm.width_le
  unfold size
  unfold Number.atMost at h
  cases hw : imm.width.integer? with
  | none => decide
  | some n =>
    simp only [hw, Number.integer?_int, decide_eq_true_eq] at h
    simp only [Option.getD_some]
    omega

/-- Whether two immediates are equal, in whatever form they were given. -/
def same (imm imm' : Immediate) : Bool :=
  imm.given.equals imm'.given && imm.width.equals imm'.width

/-! ### Building -/

/-- Why two numbers make no immediate. -/
inductive Fault where
  | value (given : Number)
  | width (given : Number)
  deriving DecidableEq, Repr

/-- The wording of a fault. A value is shown in base sixteen, which a real number has no form in. -/
def Fault.message : Fault → String
  | value given =>
    match given.integer? with
    | some n => "Immediate out of range: " ++ Numeral.hex n
    | none => PrintFault.message (.noBaseSixteen "float")
  | width given => "Immediate width out of range: " ++ given.display

/-- Builds an immediate; the value is checked before the width. -/
def ofNumbers (given width : Number) : Except Fault Immediate :=
  if hv : (Number.int 0).atMost given = true ∧ given.atMost (.int maxValue) = true then
    if hw : (Number.int 0).less width = true ∧ width.atMost (.int 64) = true then
      .ok ⟨given, width, hv.1, hv.2, hw.1, hw.2⟩
    else .error (.width width)
  else .error (.value given)

/-- A number and a field width as an immediate. -/
def ofNats (value size : Nat) (hv : value < 0x10000000000000000) (hs : 0 < size ∧ size ≤ 64) :
    Immediate where
  given := .int value
  width := .int size
  given_nonneg := by simp
  given_le := by
    simp only [Number.atMost_int, maxValue, decide_eq_true_eq]
    omega
  width_pos := by
    simp only [Number.less_int, decide_eq_true_eq]
    omega
  width_le := by
    simp only [Number.atMost_int, decide_eq_true_eq]
    omega

@[simp] theorem value_ofNats (value size : Nat) (hv : value < 0x10000000000000000)
    (hs : 0 < size ∧ size ≤ 64) : (ofNats value size hv hs).value = value := rfl

@[simp] theorem size_ofNats (value size : Nat) (hv : value < 0x10000000000000000)
    (hs : 0 < size ∧ size ≤ 64) : (ofNats value size hv hs).size = size := rfl

/-- The low `size` bits of a number, as an immediate of that width. -/
def truncate (n size : Nat) (h : 0 < size ∧ size ≤ 64) : Immediate :=
  ofNats (n % fieldSpan size) size
    (Nat.lt_of_lt_of_le (Nat.mod_lt _ (fieldSpan_pos size)) (fieldSpan_le h.2)) h

/-- The same field with only the low `bits` bits of its value. -/
def lowBits (bits : Nat) (imm : Immediate) : Immediate :=
  ofNats (imm.value % fieldSpan bits) imm.size
    (Nat.lt_of_le_of_lt (Nat.mod_le _ _) imm.value_lt) ⟨imm.size_pos, imm.size_le⟩

/-! ### Reading the field as a signed number -/

/-- The mask of the low bits of a word, of at least one bit. -/
def lowMask (bits : Int) : Nat := fieldSpan (max bits 1).toNat - 1

/-- The mask of the low bits of a word, if it finds room. -/
def lowMask? (bits : Int) : Option Nat :=
  if Room.holdsShift 1 (max bits 1).toNat then some (lowMask bits) else none

/-- Masking a value with the low bits of its field leaves the residue that `signed` starts from. -/
theorem and_lowMask (imm : Immediate) :
    imm.value &&& lowMask imm.size = imm.value % fieldSpan imm.size := by
  have h : (max (imm.size : Int) 1).toNat = imm.size := by
    have := imm.size_pos
    omega
  rw [lowMask, h]
  exact Nat.and_two_pow_sub_one_eq_mod imm.value imm.size

/-- Whether the top bit of the field is set. -/
def isNegative (imm : Immediate) : Bool := imm.value.testBit (imm.size - 1)

/-- The field as a two's complement number. -/
def signed (imm : Immediate) : Int :=
  if imm.isNegative then ((imm.value % fieldSpan imm.size : Nat) : Int) - fieldSpan imm.size
  else (imm.value % fieldSpan imm.size : Nat)

/-! ### Printing -/

/-- A number in base sixteen behind its mark. -/
def hexToken (n : Int) : Token := .integer ("#" ++ Numeral.hex n)

/-- A number in base ten, as it was given, behind its mark. -/
def decimalToken (n : Number) : Token := .integer ("#" ++ n.display)

/-- The tokens of an immediate operand: its unsigned value in base sixteen. -/
def tokens (imm : Immediate) : List Token := [hexToken imm.value]

/-- The tokens of an immediate read as an offset. -/
def signedTokens (imm : Immediate) : List Token := [hexToken imm.signed]

/-- Why an immediate does not print in base sixteen. -/
def fault? (imm : Immediate) : Option PrintFault :=
  PrintFault.ofBaseSixteen? (.ofNumber imm.given)

/-- Why an immediate cannot be read as an offset: it needs bits, and one of its numbers is real. -/
def signedFault? (imm : Immediate) : Option PrintFault :=
  if imm.given.integer?.isSome && imm.width.integer?.isSome then none else some .notANumber

/-- The tokens of an immediate shown in base ten. -/
def decimalTokens (imm : Immediate) : List Token := [decimalToken imm.given]

end Immediate

end A64Text
