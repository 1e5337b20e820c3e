import A64Text.Binary64.Shortest

/-!
# Numbers as they are given

A decoder gives a number as an integer, as a truth value, which counts as one or zero, or as a real
number. The three compare and add up with one another. Where bits are counted only an integer will
do, and a real number is none, even if it is whole (`integer?`); as a number it is equal to the
integer that it is (`whole?`). A number is shown in base ten as it was given, and a truth value then
appears as a word, so a number keeps the form it was given in.

What is computed from integers may have more digits than can be counted (`Room`).
-/

namespace A64Text

/-- A number in the form in which it was given. -/
inductive Number where
  | int (n : Int)
  | truth (b : Bool)
  | real (x : Binary64)
  deriving DecidableEq, Repr, Inhabited

namespace Number

instance : Coe Int Number := ⟨.int⟩

/-! ### Integers -/

/-- The integer that a number was given as. -/
def integer? : Number → Option Int
  | int n => some n
  | truth b => some (if b then 1 else 0)
  | real _ => none

/-- The integer that a number is equal to. -/
def whole? : Number → Option Int
  | real x => x.whole?
  | n => n.integer?

/-- The integral part of a number, which is cut off toward zero. -/
def truncated? : Number → Option Int
  | real x => x.truncated?
  | n => n.integer?

@[simp] theorem integer?_int (n : Int) : (int n).integer? = some n := rfl

@[simp] theorem integer?_real (x : Binary64) : (real x).integer? = none := rfl

@[simp] theorem whole?_int (n : Int) : (int n).whole? = some n := rfl

@[simp] theorem truncated?_int (n : Int) : (int n).truncated? = some n := rfl

/-! ### Comparison -/

/-- The exact value of a number beside real ones. -/
def exact : Number → Binary64
  | int n => .finite (n * Binary64.one)
  | truth b => .finite ((if b then 1 else 0) * Binary64.one)
  | real x => x

/-- Whether one number is less than another. -/
def less (a b : Number) : Bool :=
  match a.integer?, b.integer? with
  | some m, some n => m < n
  | _, _ => a.exact.less b.exact

/-- Whether one number is at most another. -/
def atMost (a b : Number) : Bool :=
  match a.integer?, b.integer? with
  | some m, some n => m ≤ n
  | _, _ => a.exact.atMost b.exact

/-- Whether two numbers are equal. -/
def equals (a b : Number) : Bool :=
  match a.whole?, b.whole? with
  | some m, some n => m = n
  | none, none => a = b
  | _, _ => false

/-- Whether a number is zero. -/
def isZero (a : Number) : Bool := a.whole? = some 0

@[simp] theorem less_int (m n : Int) : (int m).less (int n) = decide (m < n) := rfl

@[simp] theorem atMost_int (m n : Int) : (int m).atMost (int n) = decide (m ≤ n) := rfl

@[simp] theorem equals_int (m n : Int) : (int m).equals (int n) = decide (m = n) := rfl

@[simp] theorem isZero_int (n : Int) : (int n).isZero = decide (n = 0) := by simp [isZero]

/-! ### Sums and differences -/

/-- A number as a real one. -/
def toReal : Number → Binary64
  | int n => .ofInt n
  | truth b => .ofInt (if b then 1 else 0)
  | real x => x

/-- The sum of two numbers: an integer if both are, and a real number otherwise. -/
def add (a b : Number) : Number :=
  match a.integer?, b.integer? with
  | some m, some n => int (m + n)
  | _, _ => real (a.toReal.add b.toReal)

/-- The difference of two numbers: an integer if both are, and a real number otherwise. -/
def sub (a b : Number) : Number :=
  match a.integer?, b.integer? with
  | some m, some n => int (m - n)
  | _, _ => real (a.toReal.add b.toReal.neg)

@[simp] theorem add_int (m n : Int) : (int m).add (int n) = int (m + n) := rfl

@[simp] theorem sub_int (m n : Int) : (int m).sub (int n) = int (m - n) := rfl

/-! ### Showing a number -/

/-- A number as it is shown in base ten. -/
def display : Number → String
  | int n => Numeral.decimal n
  | truth true => "True"
  | truth false => "False"
  | real x => x.display

/-- What is said of a real number that has no integral part. -/
def noIntegralPart (x : Binary64) : String :=
  match x with
  | .nan => "cannot convert float NaN to integer"
  | _ => "cannot convert float infinity to integer"

end Number

/-! ### Room

Integers have no bound, but they are kept in limbs of thirty bits, and no more limbs are possible
than can be counted. A shift to the left is where that matters: its count is given, and the result
has about as many bits as the count says. Whether so many limbs find memory is a question to the
machine, and is not asked here. -/

namespace Room

/-- The bits of a limb. -/
def limbBits : Nat := 30

/-- The largest count of anything: a signed word of 64 bits. -/
def maxCount : Nat := 0x7FFFFFFFFFFFFFFF

/-- The most limbs that can be counted: four bytes each, behind a head of 24 bytes. -/
def maxLimbs : Nat := (maxCount - 24) / 4

/-- The limbs that a positive number takes when it is shifted to the left. -/
def shiftedLimbs (value count : Nat) : Nat :=
  value.log2 / limbBits + 1 + (count + limbBits - 1) / limbBits

/-- Whether a number shifted to the left finds room. Zero does wherever it is shifted. -/
def holdsShift (value count : Nat) : Bool := value = 0 || shiftedLimbs value count ≤ maxLimbs

theorem holdsShift_iff {value count : Nat} :
    holdsShift value count = true ↔ value = 0 ∨ shiftedLimbs value count ≤ maxLimbs := by
  simp [holdsShift]

/-- A number has no room behind a shift if and only if it is not zero and has too many limbs. -/
theorem holdsShift_eq_false_iff {value count : Nat} :
    holdsShift value count = false ↔ value ≠ 0 ∧ maxLimbs < shiftedLimbs value count := by
  simp [holdsShift]

/-- A number of 64 bits has room behind every shift that is not enormous. -/
theorem holdsShift_of_le {value count : Nat} (hv : value < 0x10000000000000000)
    (hc : count ≤ 69175290276410818260) : holdsShift value count = true := by
  rw [holdsShift_iff]
  by_cases hz : value = 0
  · exact .inl hz
  · right
    have hlog : value.log2 < 64 := (Nat.log2_lt hz).2 hv
    simp only [shiftedLimbs, limbBits, maxLimbs, maxCount]
    omega

/-- Whether a text of so many blanks finds room; a negative number of them is none. -/
def holdsBlanks (width : Int) : Bool := -(maxCount : Int) - 1 ≤ width && width ≤ maxCount

end Room

end A64Text
