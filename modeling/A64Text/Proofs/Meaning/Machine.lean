import A64Text.Proofs.Forms
import Mathlib.Data.BitVec

/-!
# The machine behind the text

What data processing can see and change: the registers, of which number 31 reads as zero and takes
no values, and the carry flag. A register is seen through a view of 32 or 64 bits. Executing an
instruction has an `Effect`: a value for a view, new flags, or both.

Sums and differences come with their flags (`Result`). The architecture adds the complement where it
subtracts, and a difference with a borrow is what that comes to (`sum_not`). Likewise, extracting
from a register that stands twice is a rotation (`extracted_self`).
-/

namespace A64Text.Meaning

/-! ### States and effects -/

/-- The condition flags. -/
structure Flags where
  negative : Bool
  zero : Bool
  carry : Bool
  overflow : Bool
  deriving DecidableEq, Repr

/-- What an instruction can see. -/
structure Machine where
  registers : Int → BitVec 64
  carry : Bool

namespace Machine

variable (σ : Machine)

/-- What is seen through a view, with zeros above it. -/
def value (v : View) : BitVec 64 :=
  if v.number = Register.zeroNumber then 0 else ((σ.registers v.number).setWidth v.bits).setWidth 64

/-- What is seen through a view, in a word of `n` bits. -/
def operand (v : View) (n : Nat) : BitVec n := (σ.value v).setWidth n

/-- What is seen through a view, as an integer. -/
def integer (signed : Bool) (v : View) : Int :=
  if signed then (σ.operand v v.bits).toInt else ((σ.operand v v.bits).toNat : Int)

variable {σ} {v : View} (hv : v.number = Register.zeroNumber)

include hv

theorem operand_of_zero (n : Nat) : σ.operand v n = 0#n := by
  rw [operand, value, if_pos hv]
  exact BitVec.setWidth_zero _ _

theorem integer_of_zero (signed : Bool) : σ.integer signed v = 0 := by
  rw [integer, operand_of_zero hv]
  cases signed <;> simp

end Machine

/-- A value for a register. -/
structure Write where
  view : View
  value : BitVec view.bits

/-- What an instruction changes. -/
structure Effect where
  write? : Option Write
  flags? : Option Flags

/-- A number of `n` bits and the flags that it was computed with. -/
structure Result (n : Nat) where
  value : BitVec n
  flags : Flags

namespace Effect

/-- A value for a register, and flags if there are any; the zero register takes no values. -/
def assign (d : View) (value : BitVec d.bits) (flags? : Option Flags) : Effect :=
  ⟨if d.number = Register.zeroNumber then none else some ⟨d, value⟩, flags?⟩

/-- New flags alone. -/
def compare (flags : Flags) : Effect := ⟨none, some flags⟩

/-- A result for a register, with its flags if the instruction sets them. -/
def ofResult (d : View) (r : Result d.bits) (setsFlags : Bool) : Effect :=
  assign d r.value (if setsFlags then some r.flags else none)

@[simp] theorem ofResult_false (d : View) (r : Result d.bits) :
    ofResult d r false = assign d r.value none := rfl

/-- A result for the zero register is a comparison, if the flags are set. -/
theorem ofResult_of_zero (d : View) (hd : d.number = Register.zeroNumber) (r : Result d.bits) :
    ofResult d r true = compare r.flags := by
  rw [ofResult, assign, if_pos hd, if_pos rfl, compare]

end Effect

/-! ### Results -/

section

variable {n : Nat}

/-- The result of a logical operation. -/
def logical (value : BitVec n) : Result n := ⟨value, value.msb, value = 0, false, false⟩

@[simp] theorem logical_value (value : BitVec n) : (logical value).value = value := rfl

/-- A sum with a carry. The flags tell whether the sum of the unsigned numbers is carried out of the
word, and whether the sum of the signed ones is not the value. -/
def sum (x y : BitVec n) (carry : Bool) : Result n :=
  let value := BitVec.ofNat n (x.toNat + y.toNat + carry.toNat)
  ⟨value, value.msb, value = 0, 2 ^ n ≤ x.toNat + y.toNat + carry.toNat,
    x.toInt + y.toInt + carry.toNat ≠ value.toInt⟩

/-- A difference. The carry flag tells that nothing is borrowed. -/
def difference (x y : BitVec n) : Result n :=
  ⟨x - y, (x - y).msb, x - y = 0, y.toNat ≤ x.toNat, x.toInt - y.toInt ≠ (x - y).toInt⟩

/-- A difference that a clear carry makes smaller by one. -/
def borrowed (x y : BitVec n) (carry : Bool) : Result n :=
  let value := x - y - 1#n + BitVec.ofNat n carry.toNat
  ⟨value, value.msb, value = 0, y.toNat + 1 ≤ x.toNat + carry.toNat,
    x.toInt - y.toInt - 1 + carry.toNat ≠ value.toInt⟩

/-- The complement is what is missing to minus one. -/
theorem toInt_not (hn : 0 < n) (y : BitVec n) : (~~~y).toInt = -y.toInt - 1 := by
  obtain ⟨m, rfl⟩ := Nat.exists_eq_add_of_le' hn
  have hlt := y.isLt
  rw [BitVec.toInt_eq_toNat_cond, BitVec.toInt_eq_toNat_cond, BitVec.toNat_not]
  rw [Nat.pow_succ] at hlt ⊢
  split <;> split <;> omega

/-- Adding the complement with a carry is subtracting with a borrow. -/
theorem sum_not (hn : 0 < n) (x y : BitVec n) (carry : Bool) :
    sum x (~~~y) carry = borrowed x y carry := by
  have hvalue : BitVec.ofNat n (x.toNat + (~~~y).toNat + carry.toNat) =
      x - y - 1#n + BitVec.ofNat n carry.toNat := by
    rw [BitVec.ofNat_add, BitVec.ofNat_add, BitVec.ofNat_toNat, BitVec.ofNat_toNat,
      BitVec.setWidth_eq, BitVec.setWidth_eq, BitVec.not_eq_neg_add]
    simp only [BitVec.sub_eq_add_neg, BitVec.add_assoc]
  have hcarry : 2 ^ n ≤ x.toNat + (~~~y).toNat + carry.toNat ↔
      y.toNat + 1 ≤ x.toNat + carry.toNat := by
    have := y.isLt
    rw [BitVec.toNat_not]
    omega
  have hoverflow : x.toInt + (~~~y).toInt + (carry.toNat : Int) =
      x.toInt - y.toInt - 1 + carry.toNat := by
    rw [toInt_not hn]
    omega
  rw [sum, borrowed, hvalue, hoverflow]
  simp only [hcarry]

/-- With the carry set nothing is borrowed. -/
theorem borrowed_true (x y : BitVec n) : borrowed x y true = difference x y := by
  have hvalue : x - y - 1#n + BitVec.ofNat n true.toNat = x - y := BitVec.sub_add_cancel _ _
  rw [borrowed, difference, hvalue]
  simp [sub_add_cancel]

/-- Adding the complement with the carry set is subtracting. -/
theorem sum_not_true (hn : 0 < n) (x y : BitVec n) : sum x (~~~y) true = difference x y := by
  rw [sum_not hn, borrowed_true]

end

/-! ### Modified operands -/

/-- What a modifier does to an operand. -/
inductive Modification where
  | lsl
  | lsr
  | asr
  | ror
  /-- The low bits are extended, with zeros or with their sign, and then shifted to the left. -/
  | extend (signed : Bool) (bits : Nat)
  deriving DecidableEq, Repr

/-- An operand modified by an amount, in a word of `n` bits. -/
def Modification.apply (m : Modification) (amount : Int) (n : Nat) (x : BitVec 64) : BitVec n :=
  match m with
  | lsl => x.setWidth n <<< amount.toNat
  | lsr => x.setWidth n >>> amount.toNat
  | asr => (x.setWidth n).sshiftRight amount.toNat
  | ror => (x.setWidth n).rotateRight amount.toNat
  | extend signed bits =>
    (if signed then (x.setWidth bits).signExtend n else (x.setWidth bits).setWidth n) <<<
      amount.toNat

/-- A left shift by nothing does nothing. -/
theorem Modification.apply_lsl_zero (n : Nat) (x : BitVec 64) : lsl.apply 0 n x = x.setWidth n :=
  BitVec.shiftLeft_zero _

/-! ### Extraction -/

/-- A word of `n` bits out of two, counted from the lowest bit of the second one. -/
def extracted {n : Nat} (x y : BitVec n) (lowest : Nat) : BitVec n :=
  (x ++ y).extractLsb' lowest n

/-- Extracting from a word that stands twice is a rotation. -/
theorem extracted_self {n k : Nat} (hk : k < n) (x : BitVec n) :
    extracted x x k = x.rotateRight k := by
  refine BitVec.eq_of_getLsbD_eq fun i hi ↦ ?_
  rw [extracted, BitVec.getLsbD_extractLsb', BitVec.getLsbD_append, BitVec.getLsbD_rotateRight,
    Nat.mod_eq_of_lt hk]
  by_cases hlow : i < n - k
  · have hfirst : k + i < n := by omega
    simp [hi, hlow, hfirst]
  · have hsecond : ¬ k + i < n := by omega
    have hplace : k + i - n = i - (n - k) := by omega
    simp [hi, hlow, hsecond, hplace]

end A64Text.Meaning
