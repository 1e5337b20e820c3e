import A64Text.Proofs.Meaning.Machine

/-!
# What mnemonics do

The meaning of a line by its mnemonic and arguments, as a programmer reads it and whatever opcode an
assembler picks for it: a move copies, a negation subtracts from zero, a comparison subtracts and
keeps the flags only, and a product is a product. Every mnemonic of a table has a meaning of its own
(`Verb`), and the last argument may be a number or a register with a modifier (`Source`).
-/

namespace A64Text.Meaning

/-! ### Sources -/

/-- The keywords of modifiers. -/
def Modification.keywords : List (String × Modification) :=
  [("lsl", .lsl), ("lsr", .lsr), ("asr", .asr), ("ror", .ror),
    ("uxtb", .extend false 8), ("uxth", .extend false 16), ("uxtw", .extend false 32),
    ("uxtx", .extend false 64), ("sxtb", .extend true 8), ("sxth", .extend true 16),
    ("sxtw", .extend true 32), ("sxtx", .extend true 64)]

/-- The last source of a line. -/
inductive Source where
  | number (n : Int)
  | register (v : View)
  | modified (v : View) (m : Modification) (amount : Int)
  deriving DecidableEq, Repr

/-- The source that arguments make; an amount that is not given is zero. -/
def source? : List Arg → Option Source
  | [.number n] => some (.number n)
  | [.register v] => some (.register v)
  | [.register v, .named keyword amount?] =>
    (Modification.keywords.lookup keyword).map fun m ↦ .modified v m (amount?.getD 0)
  | _ => none

/-- The value of a source in a word of `n` bits. -/
def Source.value (σ : Machine) (n : Nat) : Source → BitVec n
  | number k => BitVec.ofInt n k
  | register v => σ.operand v n
  | modified v m amount => m.apply amount n (σ.value v)

@[simp] theorem source?_number (n : Int) : source? [.number n] = some (.number n) := rfl

@[simp] theorem source?_register (v : View) : source? [.register v] = some (.register v) := rfl

@[simp] theorem Source.value_number (σ : Machine) (n : Nat) (k : Int) :
    (number k).value σ n = BitVec.ofInt n k := rfl

@[simp] theorem Source.value_register (σ : Machine) (n : Nat) (v : View) :
    (register v).value σ n = σ.operand v n := rfl

/-! ### Verbs -/

/-- What a mnemonic says. -/
inductive Verb where
  | move
  | moveNot
  | negate (setsFlags : Bool)
  | negateWithCarry (setsFlags : Bool)
  | test
  | compare
  | compareNegative
  | rotate
  | extract
  | and (setsFlags : Bool)
  | andNot (setsFlags : Bool)
  | or
  | orNot
  | xor
  | xorNot
  | add (setsFlags : Bool)
  | subtract (setsFlags : Bool)
  | addWithCarry (setsFlags : Bool)
  | subtractWithCarry (setsFlags : Bool)
  /-- A product, with its sign kept or changed. -/
  | product (signed negated : Bool)
  /-- A sum or difference of a number and a product. -/
  | accumulate (signed negated : Bool)
  /-- The high half of a product. -/
  | highProduct (signed : Bool)
  deriving DecidableEq, Repr

/-- The mnemonics and what they say. -/
def Verb.mnemonics : List (String × Verb) :=
  [("mov", .move), ("mvn", .moveNot), ("neg", .negate false), ("negs", .negate true),
    ("ngc", .negateWithCarry false), ("ngcs", .negateWithCarry true), ("tst", .test),
    ("cmp", .compare), ("cmn", .compareNegative), ("ror", .rotate), ("extr", .extract),
    ("and", .and false), ("ands", .and true), ("bic", .andNot false), ("bics", .andNot true),
    ("orr", .or), ("orn", .orNot), ("eor", .xor), ("eon", .xorNot),
    ("add", .add false), ("adds", .add true), ("sub", .subtract false), ("subs", .subtract true),
    ("adc", .addWithCarry false), ("adcs", .addWithCarry true),
    ("sbc", .subtractWithCarry false), ("sbcs", .subtractWithCarry true),
    ("mul", .product false false), ("mneg", .product false true),
    ("smull", .product true false), ("smnegl", .product true true),
    ("umull", .product false false), ("umnegl", .product false true),
    ("madd", .accumulate false false), ("msub", .accumulate false true),
    ("smaddl", .accumulate true false), ("smsubl", .accumulate true true),
    ("umaddl", .accumulate false false), ("umsubl", .accumulate false true),
    ("smulh", .highProduct true), ("umulh", .highProduct false)]

/-- A product with its sign kept or changed. -/
@[simp] def signedProduct (negated : Bool) (n m : Int) : Int := if negated then -(n * m) else n * m

/-- The effect of a verb with its arguments in a state. -/
def Verb.effect? (σ : Machine) : Verb → List Arg → Option Effect
  | move, .register d :: rest =>
    (source? rest).map fun s ↦ .assign d (s.value σ d.bits) none
  | moveNot, .register d :: rest =>
    (source? rest).map fun s ↦ .assign d (~~~ s.value σ d.bits) none
  | negate flags, .register d :: rest =>
    (source? rest).map fun s ↦ .ofResult d (difference 0 (s.value σ d.bits)) flags
  | negateWithCarry flags, [.register d, .register m] =>
    some (.ofResult d (borrowed 0 (σ.operand m d.bits) σ.carry) flags)
  | test, .register n :: rest =>
    (source? rest).map fun s ↦
      .compare (logical (σ.operand n n.bits &&& s.value σ n.bits)).flags
  | compare, .register n :: rest =>
    (source? rest).map fun s ↦ .compare (difference (σ.operand n n.bits) (s.value σ n.bits)).flags
  | compareNegative, .register n :: rest =>
    (source? rest).map fun s ↦ .compare (sum (σ.operand n n.bits) (s.value σ n.bits) false).flags
  | rotate, [.register d, .register s, .number k] =>
    some (.assign d ((σ.operand s d.bits).rotateRight k.toNat) none)
  | extract, [.register d, .register n, .register m, .number k] =>
    some (.assign d (extracted (σ.operand n d.bits) (σ.operand m d.bits) k.toNat) none)
  | and flags, .register d :: .register n :: rest =>
    (source? rest).map fun s ↦
      .ofResult d (logical (σ.operand n d.bits &&& s.value σ d.bits)) flags
  | andNot flags, .register d :: .register n :: rest =>
    (source? rest).map fun s ↦
      .ofResult d (logical (σ.operand n d.bits &&& ~~~ s.value σ d.bits)) flags
  | or, .register d :: .register n :: rest =>
    (source? rest).map fun s ↦ .assign d (σ.operand n d.bits ||| s.value σ d.bits) none
  | orNot, .register d :: .register n :: rest =>
    (source? rest).map fun s ↦ .assign d (σ.operand n d.bits ||| ~~~ s.value σ d.bits) none
  | xor, .register d :: .register n :: rest =>
    (source? rest).map fun s ↦ .assign d (σ.operand n d.bits ^^^ s.value σ d.bits) none
  | xorNot, .register d :: .register n :: rest =>
    (source? rest).map fun s ↦ .assign d (σ.operand n d.bits ^^^ ~~~ s.value σ d.bits) none
  | add flags, .register d :: .register n :: rest =>
    (source? rest).map fun s ↦ .ofResult d (sum (σ.operand n d.bits) (s.value σ d.bits) false) flags
  | subtract flags, .register d :: .register n :: rest =>
    (source? rest).map fun s ↦
      .ofResult d (difference (σ.operand n d.bits) (s.value σ d.bits)) flags
  | addWithCarry flags, [.register d, .register n, .register m] =>
    some (.ofResult d (sum (σ.operand n d.bits) (σ.operand m d.bits) σ.carry) flags)
  | subtractWithCarry flags, [.register d, .register n, .register m] =>
    some (.ofResult d (borrowed (σ.operand n d.bits) (σ.operand m d.bits) σ.carry) flags)
  | product signed negated, [.register d, .register n, .register m] =>
    some (.assign d (BitVec.ofInt d.bits
      (signedProduct negated (σ.integer signed n) (σ.integer signed m))) none)
  | accumulate signed negated, [.register d, .register n, .register m, .register a] =>
    some (.assign d (BitVec.ofInt d.bits
      (σ.integer signed a + signedProduct negated (σ.integer signed n) (σ.integer signed m))) none)
  | highProduct signed, [.register d, .register n, .register m] =>
    some (.assign d (BitVec.ofInt d.bits
      (σ.integer signed n * σ.integer signed m / 2 ^ d.bits)) none)
  | _, _ => none

/-- The effect of a mnemonic with its arguments in a state. -/
def effectOf? (mnemonic : String) (args : List Arg) (σ : Machine) : Option Effect :=
  (Verb.mnemonics.lookup mnemonic).bind fun verb ↦ verb.effect? σ args

end A64Text.Meaning

namespace A64Text

/-- The effect of a line in a state, by its mnemonic and arguments. -/
def Line.effect? (l : Line) (σ : Meaning.Machine) : Option Meaning.Effect :=
  l.args?.bind fun args ↦ Meaning.effectOf? l.mnemonic args σ

end A64Text
