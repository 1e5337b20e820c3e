import A64Text.Proofs.PrintRead

/-!
# The arguments of a line

What an assembler sees behind a mnemonic: views of registers, numbers, and keywords with or without
an amount. The names of views are a table of their own (`View.ofName?`), and an operand of a line is
looked up in it (`Line.args?`).

The registers and modifiers of the architecture (`Instruction.IsGeneral`) are read back as the
arguments that they are: parts in which a modifier comes last at most (`Arranged`) are read as their
arguments, one after the other (`Arranged.mapM_arg?`). Names of views are found in the table, and no
modifier takes what stands behind it.
-/

namespace A64Text

open Line

/-! ### Views -/

/-- The two widths at which a register is seen. -/
inductive Width where
  | w
  | x
  deriving DecidableEq, Repr

/-- The number of bits of a width. -/
def Width.bits : Width → Nat
  | w => 32
  | x => 64

theorem Width.bits_pos (width : Width) : 0 < width.bits := by
  cases width <;> decide

/-- A register as it is seen. -/
structure View where
  number : Int
  width : Width
  deriving DecidableEq, Repr

namespace View

/-- The number of bits that are seen. -/
def bits (v : View) : Nat := v.width.bits

theorem bits_pos (v : View) : 0 < v.bits := v.width.bits_pos

/-- The names of the views of one register between 0 and 30. -/
def namesOf (k : Nat) : List (String × View) :=
  [("w" ++ Numeral.decimal k, ⟨k, .w⟩), ("x" ++ Numeral.decimal k, ⟨k, .x⟩)]

/-- The names of views. -/
def names : List (String × View) :=
  [("wzr", ⟨31, .w⟩), ("xzr", ⟨31, .x⟩), ("wsp", ⟨32, .w⟩), ("sp", ⟨32, .x⟩)] ++
    (List.range 31).flatMap namesOf

/-- The view with a name. -/
def ofName? (name : String) : Option View := names.lookup name

end View

/-! ### Registers and modifiers of the architecture -/

/-- A general register, the zero register or the stack pointer, of one of the two widths. -/
def Register.IsGeneral (r : Register) : Prop :=
  (0 ≤ r.number ∧ r.number ≤ stackNumber) ∧ (r.size = .int 32 ∨ r.size = .int 64)

instance (r : Register) : Decidable r.IsGeneral := inferInstanceAs (Decidable (_ ∧ _))

/-- The view of a register that an operand is. -/
def Register.view (r : Register) : View := ⟨r.number, if r.size = .int 32 then .w else .x⟩

@[simp] theorem Register.view_number (r : Register) : r.view.number = r.number := rfl

/-- An operand whose register or modifier is the architecture's. -/
def Operand.IsGeneral : Operand → Prop
  | register r => r.IsGeneral
  | shift s => s.kind.isListed = true
  | extend e => e.kind.isListed = true
  | _ => True

instance : DecidablePred Operand.IsGeneral
  | .register r => inferInstanceAs (Decidable r.IsGeneral)
  | .shift s => inferInstanceAs (Decidable (s.kind.isListed = true))
  | .extend e => inferInstanceAs (Decidable (e.kind.isListed = true))
  | .immediate _ | .systemRegister _ | .immediateOffset _ | .registerOffset _ | .bare =>
    inferInstanceAs (Decidable True)

/-- An instruction with integers in its fields, and registers and modifiers of the architecture. -/
structure Instruction.IsGeneral (i : Instruction) : Prop where
  integers : i.hasIntegers = true
  operands : ∀ o ∈ i.operands, o.IsGeneral

/-- The text of a register is the name of its view. -/
theorem Register.ofName?_text {r : Register} (h : r.IsGeneral) :
    View.ofName? r.text = some r.view := by
  obtain ⟨number, size⟩ := r
  obtain ⟨⟨hnonneg, hle⟩, hsize⟩ := h
  obtain ⟨k, rfl⟩ := Int.eq_ofNat_of_zero_le hnonneg
  have hk : k < 33 := by
    have : (k : Int) ≤ 32 := hle
    omega
  have hall : ∀ k < 33, ∀ size ∈ [Json.int 32, Json.int 64],
      View.ofName? (text ⟨(k : Nat), size⟩) = some (view ⟨(k : Nat), size⟩) := by decide +kernel
  exact hall k hk size (by simpa using hsize)

/-! ### Arguments -/

/-- An argument of an assembler line. -/
inductive Arg where
  | register (v : View)
  | number (n : Int)
  /-- Any other word, such as a keyword, with its amount. -/
  | named (name : String) (amount? : Option Int)
  deriving DecidableEq, Repr

namespace Line

/-- The argument that a term is. -/
def Term.arg? (t : Term) : Option Arg :=
  match t.name?, t.value? with
  | some name, none => some (((View.ofName? name).map Arg.register).getD (.named name none))
  | some name, some n => some (.named name (some n))
  | none, some n => some (.number n)
  | none, none => none

/-- The argument that an operand is. -/
def Item.arg? : Item → Option Arg
  | term t => t.arg?
  | memory .. => none

/-- The arguments of a line. -/
def args? (l : Line) : Option (List Arg) := l.operands.mapM Item.arg?

end Line

/-- The arguments that a shift or extend is read as. -/
def modifierArgs (ts : List Term) : List Arg := ts.map fun t ↦ .named (t.name?.getD "") t.value?

/-- The arguments that a part is read as. -/
@[simp] def Part.args : Part → List Arg
  | operand (.register r) => [.register r.view]
  | operand (.immediate imm) => [.number imm.value]
  | operand (.shift s) => modifierArgs s.reading
  | operand (.extend e) => modifierArgs e.reading
  | decimal n => [.number (n.integer?.getD 0)]
  | word s => [.named (Text.lowerAscii s) none]
  | _ => []

/-- A part that is read as arguments: a word is neither the name of a view nor a modifier. -/
def Part.IsArg : Part → Prop
  | operand (.register r) => r.IsGeneral
  | operand (.immediate _) => True
  | operand (.shift s) => s.kind.isListed = true
  | operand (.extend e) => e.kind.isListed = true
  | decimal _ => True
  | word s =>
    View.ofName? (Text.lowerAscii s) = none ∧ modifierKeywords.contains (Text.lowerAscii s) = false
  | _ => False

/-- Parts that are read as arguments, a modifier at most behind all others. -/
def Arranged : List Part → Prop
  | [] => True
  | p :: ps => p.IsArg ∧ (p.attaches = true → ps = []) ∧ Arranged ps

theorem Register.isBareModifier_reading (r : Register) : r.reading.isBareModifier = false := by
  have hall : ∀ s ∈ texts, modifierKeywords.contains s = false := by decide
  exact hall r.text r.text_mem

/-- A term that is no bare modifier stays as it is in front of others. -/
theorem fuseItems_cons {t : Term} (h : t.isBareModifier = false) (xs : List Item) :
    fuseItems (.term t :: xs) = .term t :: fuseItems xs := by
  refine coalesceFrom_of_none (fun x ↦ ?_) xs
  cases x with
  | term u => simp [Item.fuse?, Term.fuse?, h]
  | memory parts writeback => rfl

/-- A modifier is read as one keyword, or as nothing. -/
theorem Part.IsArg.fuseItems_modifier {p : Part} (h : p.IsArg) (hattaches : p.attaches = true) :
    fuseItems p.reading = p.reading := by
  cases p with
  | operand o =>
    cases o with
    | shift s =>
      rw [reading, Operand.reading, Shift.reading]
      split <;> rfl
    | extend e =>
      rw [reading, Operand.reading, Extend.reading]
      split
      · rfl
      · rfl
      · split <;> rfl
      · split <;> rfl
    | _ => cases hattaches
  | _ => cases hattaches

/-- The amount of a shift. -/
def Shift.amount (s : Shift) : Int := s.count.toInt?.getD 0

/-- The amount of an extend. -/
def Extend.amount (e : Extend) : Int := e.count.toInt?.getD 0

/-- A listed shift is read as nothing, or as its keyword with its amount. -/
theorem Shift.reading_eq {s : Shift} (h : s.kind.isListed = true) :
    s.reading = if s.kind = .none then [] else [⟨some s.kind.keyword, some s.amount⟩] := by
  obtain ⟨kind, count⟩ := s
  cases kind with
  | unlisted name => cases h
  | _ => rfl

/-- A listed extend is read as nothing, or as its keyword with its amount, if there is any. -/
theorem Extend.reading_eq {e : Extend} (h : e.kind.isListed = true) :
    e.reading =
      if e.kind = .none ∨ e.kind = .lsl ∧ e.amount = 0 then []
      else [⟨some e.kind.keyword, if e.amount = 0 then none else some e.amount⟩] := by
  obtain ⟨kind, count⟩ := e
  cases kind with
  | unlisted name => cases h
  | none => rfl
  | _ => by_cases hzero : count.toInt?.getD 0 = 0 <;> simp [reading, amount, hzero] <;> rfl

theorem Shift.mapM_arg? {s : Shift} (h : s.kind.isListed = true) :
    (s.reading.map Item.term).mapM Item.arg? = some (modifierArgs s.reading) := by
  rw [reading_eq h]
  split <;> rfl

theorem ExtendKind.mem_listed {kind : ExtendKind} (h : kind.isListed = true) : kind ∈ listed := by
  cases kind with
  | unlisted name => cases h
  | _ => decide

theorem Extend.mapM_arg? {e : Extend} (h : e.kind.isListed = true) :
    (e.reading.map Item.term).mapM Item.arg? = some (modifierArgs e.reading) := by
  have hnames : ∀ kind ∈ ExtendKind.listed, View.ofName? kind.keyword = none := by decide +kernel
  have hname := hnames e.kind (ExtendKind.mem_listed h)
  rw [reading_eq h]
  split
  · rfl
  · split <;> simp [Item.arg?, Term.arg?, modifierArgs, hname]

/-- A part that brings no comma is read as one term, which takes nothing. -/
theorem Part.IsArg.exists_term {p : Part} (h : p.IsArg) (hattaches : p.attaches = false) :
    ∃ t : Term, p.reading = [.term t] ∧ t.isBareModifier = false := by
  cases p with
  | operand o =>
    cases o with
    | register r => exact ⟨r.reading, rfl, r.isBareModifier_reading⟩
    | immediate imm => exact ⟨_, rfl, rfl⟩
    | shift s => cases hattaches
    | extend e => cases hattaches
    | _ => cases h
  | signed imm => cases h
  | decimal n => exact ⟨_, rfl, rfl⟩
  | word s => exact ⟨_, rfl, h.2⟩

/-- Arranged parts are read one by one: no modifier takes what stands behind it. -/
theorem Arranged.fuseItems_reading {ps : List Part} (h : Arranged ps) :
    fuseItems (ps.flatMap Part.reading) = ps.flatMap Part.reading := by
  induction ps with
  | nil => rfl
  | cons p ps ih =>
    obtain ⟨hp, hlast, hps⟩ := h
    cases hattaches : p.attaches with
    | true =>
      rw [hlast hattaches, List.flatMap_singleton]
      exact hp.fuseItems_modifier hattaches
    | false =>
      obtain ⟨t, hreading, hbare⟩ := hp.exists_term hattaches
      rw [List.flatMap_cons, hreading, List.singleton_append, fuseItems_cons hbare, ih hps]

/-- A part is read as its arguments. -/
theorem Part.IsArg.mapM_arg? {p : Part} (h : p.IsArg) :
    p.reading.mapM Item.arg? = some p.args := by
  cases p with
  | operand o =>
    cases o with
    | register r => simp [reading, Operand.reading, Register.reading, Item.arg?, Term.arg?, args,
        Register.ofName?_text h]
    | immediate imm => rfl
    | shift s => exact s.mapM_arg? h
    | extend e => exact e.mapM_arg? h
    | _ => cases h
  | signed imm => cases h
  | decimal n => rfl
  | word s => simp [reading, Item.arg?, Term.arg?, args, h.1]

/-- Arranged parts are read as their arguments, one after the other. -/
theorem Arranged.mapM_arg? {ps : List Part} (h : Arranged ps) :
    (fuseItems (ps.flatMap Part.reading)).mapM Item.arg? = some (ps.flatMap Part.args) := by
  rw [h.fuseItems_reading]
  induction ps with
  | nil => rfl
  | cons p ps ih =>
    obtain ⟨hp, -, hps⟩ := h
    simp [List.flatMap_cons, List.mapM_append, hp.mapM_arg?, ih hps]

end A64Text
