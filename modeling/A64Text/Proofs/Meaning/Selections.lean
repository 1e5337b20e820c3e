import A64Text.Proofs.Layout.Text
import Mathlib.Data.BitVec

/-!
# What a conditional selection writes

A conditional selection takes its first source if its condition holds, and otherwise its second one
with a change (`ConditionalSelectOp.apply`). The mnemonics for two equal sources are read the other
way round: they change the source if their condition holds (`SelectVerb.value?`). A condition is
printed as it is given, whatever the mnemonic.

So a line that shows the opcode's own mnemonic writes what the instruction writes, and a line that
shows one of the others writes what the instruction writes when its condition has the opposite truth
value (`Instruction.selected_of_text`). The two differ wherever the sources do from their changes
(`Instruction.selected_of_text_misread`).
-/

namespace A64Text

open Line

variable {n : Nat}

namespace Meaning

/-! ### The raw operations -/

/-- What happens to a source. -/
inductive Change where
  | keep
  | increment
  | complement
  | negate
  deriving DecidableEq, Repr

/-- The changed source. -/
def Change.apply (f : Change) (x : BitVec n) : BitVec n :=
  match f with
  | keep => x
  | increment => x + 1
  | complement => ~~~x
  | negate => -x

end Meaning

open Meaning

namespace ConditionalSelectOp

/-- What an operation does to its second source. -/
def change : ConditionalSelectOp → Change
  | csel => .keep
  | csinc => .increment
  | csinv => .complement
  | csneg => .negate

/-- What an operation makes of its sources, by the truth value of its condition. -/
def apply (op : ConditionalSelectOp) (holds : Bool) (x y : BitVec n) : BitVec n :=
  if holds then x else op.change.apply y

end ConditionalSelectOp

/-! ### The printed forms -/

namespace Meaning

/-- What a mnemonic says to do by a condition. -/
inductive SelectVerb where
  /-- The first source, or else the second one with a change. -/
  | select (f : Change)
  /-- The source with a change, or else the source. -/
  | change (f : Change)
  /-- One, or else zero. -/
  | setOne
  /-- All ones, or else zero. -/
  | setOnes
  deriving DecidableEq, Repr

namespace SelectVerb

/-- The mnemonics and what they say. -/
def mnemonics : List (String × SelectVerb) :=
  [("csel", .select .keep), ("csinc", .select .increment), ("csinv", .select .complement),
    ("csneg", .select .negate), ("cinc", .change .increment), ("cinv", .change .complement),
    ("cneg", .change .negate), ("cset", .setOne), ("csetm", .setOnes)]

/-- The value that a verb makes of its sources, by the truth value of its condition. -/
def value? (verb : SelectVerb) (holds : Bool) (sources : List (BitVec n)) : Option (BitVec n) :=
  match verb, sources with
  | select f, [x, y] => some (if holds then x else f.apply y)
  | change f, [x] => some (if holds then f.apply x else x)
  | setOne, [] => some (if holds then 1 else 0)
  | setOnes, [] => some (if holds then BitVec.allOnes n else 0)
  | _, _ => none

end SelectVerb

/-- What a name of a register reads as. The names of the zero register read as zero. -/
def held (ρ : String → BitVec n) (name : String) : BitVec n :=
  if name = "wzr" ∨ name = "xzr" then 0 else ρ name

end Meaning

/-- What a register reads as. -/
def Register.held (r : Register) (ρ : String → BitVec n) : BitVec n :=
  if r.isZero then 0 else ρ r.text

/-- The condition with a text. -/
def Condition.ofText? (s : String) : Option Condition := all.find? fun c ↦ c.text = s

namespace Line

/-- The names in a line that holds nothing else. -/
def namesOnly? (l : Line) : Option (List String) :=
  l.operands.mapM fun
    | .term ⟨some name, none⟩ => some name
    | _ => none

/-- The register that a line writes by a condition, and the value that it writes, where `ρ` is what
the registers hold and `truth` tells which conditions hold. -/
def selected? (l : Line) (ρ : String → BitVec n) (truth : Condition → Bool) :
    Option (String × BitVec n) := do
  let verb ← SelectVerb.mnemonics.lookup l.mnemonic
  let d :: rest ← l.namesOnly? | none
  let c ← rest.getLast?.bind Condition.ofText?
  let value ← verb.value? (truth c) (rest.dropLast.map (Meaning.held ρ))
  return (d, value)

end Line

/-! ### Names -/

/-- Only the zero register is called by its names. -/
theorem Register.text_eq_zeroName_iff (r : Register) :
    (r.text = "wzr" ∨ r.text = "xzr") ↔ r.isZero = true := by
  obtain ⟨number, size⟩ := r
  simp only [text, isZero, decide_eq_true_eq]
  generalize isNarrow size = narrow
  split
  · rename_i hgeneral
    obtain ⟨k, rfl⟩ := Int.eq_ofNat_of_zero_le hgeneral.1
    have hk : k < 31 := Int.ofNat_lt.1 hgeneral.2
    have hall : ∀ k < 31, ∀ view ∈ ["w", "x"], view ++ Numeral.decimal (k : Nat) ≠ "wzr" ∧
        view ++ Numeral.decimal (k : Nat) ≠ "xzr" := by decide +kernel
    have hne := hall k hk (if narrow then "w" else "x") (by cases narrow <;> simp)
    simp [hne, hgeneral.2.ne]
  · split
    · rename_i hzero
      cases narrow <;> simp [hzero]
    · rename_i hzero
      simp only [hzero, iff_false]
      split
      · cases narrow <;> simp
      · split <;> simp [unsupported]

/-- The zero register reads as its names do. -/
theorem Register.held_text (r : Register) (ρ : String → BitVec n) :
    Meaning.held ρ r.text = r.held ρ := by
  simp only [Meaning.held, Register.held, text_eq_zeroName_iff]

theorem Register.held_congr {r q : Register} (hnumber : r.number = q.number)
    (hsize : r.size = q.size) (ρ : String → BitVec n) : r.held ρ = q.held ρ := by
  rw [held, held, isZero, isZero, text, text, hnumber, hsize]

theorem Register.held_of_isZero {r : Register} (h : r.isZero = true) (ρ : String → BitVec n) :
    r.held ρ = 0 := by
  rw [held, if_pos h]

theorem Condition.ofText?_text {c : Condition} (h : c ≠ .nv) : ofText? c.text = some c := by
  cases c <;> first | decide | exact absurd rfl h

theorem Condition.ofLowBits_ne_nv {code : Int} (h : 0 ≤ code ∧ code ≤ 13) :
    ofLowBits code ≠ .nv := by
  obtain ⟨k, rfl⟩ := Int.eq_ofNat_of_zero_le h.1
  have hall : ∀ k < 14, ofLowBits (k : Nat) ≠ .nv := by decide
  exact hall k (by omega)

theorem Part.readsAlone_condition (c : Condition) : c.part.ReadsAlone ⟨some c.text, none⟩ := by
  cases c <;> decide

/-! ### What is laid out -/

/-- A mnemonic behind which registers and a condition stand. -/
def Layout.ofSelection (m : String) (rs : List Register) (c : Condition) : Layout :=
  ⟨m, (rs.map fun r ↦ .operand (.register r)) ++ [c.part]⟩

/-- A mnemonic behind which names stand. -/
def Line.ofNames (m : String) (names : List String) : Line :=
  ⟨m, names.map fun name ↦ .term ⟨some name, none⟩⟩

@[simp] theorem Line.mnemonic_ofNames (m : String) (names : List String) :
    (ofNames m names).mnemonic = m := rfl

theorem Line.namesOnly?_ofNames (m : String) (names : List String) :
    (ofNames m names).namesOnly? = some names := by
  induction names with
  | nil => rfl
  | cons name names ih =>
    rw [namesOnly?, ofNames] at ih ⊢
    rw [List.map_cons, List.mapM_cons, ih]
    rfl

/-- Registers and a condition are read as their names. -/
theorem Layout.reading_selection (m : String) (rs : List Register) (c : Condition) :
    (⟨m, fuseItems ((ofSelection m rs c).parts.flatMap Part.reading)⟩ : Line) =
      .ofNames m (rs.map Register.text ++ [c.text]) := by
  have hreads : List.Forall₂ Part.ReadsAlone (ofSelection m rs c).parts
      (rs.map Register.reading ++ [⟨some c.text, none⟩]) := by
    refine List.rel_append ?_ ?_
    · simp [List.forall₂_same, Part.readsAlone_register]
    · simp [Part.readsAlone_condition]
  rw [Part.ReadsAlone.fuseItems_readings hreads, Line.ofNames]
  simp [Register.reading]

/-- The value that a line of registers and a condition writes. -/
theorem Line.selected?_ofNames {m : String} {verb : SelectVerb} {rd : Register}
    {rs : List Register} {c : Condition} (ρ : String → BitVec n) (truth : Condition → Bool)
    (hm : SelectVerb.mnemonics.lookup m = some verb) (hc : c ≠ .nv) :
    (ofNames m ((rd :: rs).map Register.text ++ [c.text])).selected? ρ truth =
      (verb.value? (truth c) (rs.map fun r ↦ r.held ρ)).map fun value ↦ (rd.text, value) := by
  have hheld : (rs.map Register.text).map (Meaning.held ρ) = rs.map fun r ↦ r.held ρ := by
    simp [Register.held_text]
  simp [selected?, hm, namesOnly?_ofNames, Condition.ofText?_text hc, hheld, Option.map_eq_bind]

namespace ConditionalSelectOp

variable {op : ConditionalSelectOp} {m : String}

/-- A mnemonic that says of the sources shown what an operation does with `x` and `y`, or what it
does with them when its condition has the opposite truth value. -/
def Says (op : ConditionalSelectOp) (m : String) (reversed : Bool) (sources : List (BitVec n))
    (x y : BitVec n) : Prop :=
  ∃ verb, SelectVerb.mnemonics.lookup m = some verb ∧
    ∀ holds, verb.value? holds sources = some (op.apply (holds ^^ reversed) x y)

theorem says_mnemonic (op : ConditionalSelectOp) (x y : BitVec n) :
    op.Says op.mnemonic false [x, y] x y := by
  cases op <;> refine ⟨_, rfl, fun holds ↦ ?_⟩ <;> cases holds <;> rfl

/-- From equal sources, the change is for the condition that holds. -/
theorem says_sameSource (h : op.sameSource? = some m) (x : BitVec n) : op.Says m true [x] x x := by
  cases op <;> cases h <;> refine ⟨_, rfl, fun holds ↦ ?_⟩ <;> cases holds <;> rfl

/-- From zeros, what is there for the condition that holds is one, or all ones. -/
theorem says_zeroSource (h : op.zeroSource? = some m) : op.Says (n := n) m true [] 0 0 := by
  cases op <;> cases h <;> refine ⟨_, rfl, fun holds ↦ ?_⟩ <;> cases holds <;>
    simp [SelectVerb.value?, apply, change, Change.apply]

/-- A preferred mnemonic is not the operation's own, and there is one unless nothing is changed. -/
theorem ne_of_preferred (h : op.zeroSource? = some m ∨ op.sameSource? = some m) :
    op ≠ .csel ∧ m ≠ op.mnemonic := by
  rcases h with h | h <;> cases op <;> cases h <;> decide

theorem sameSource?_eq_none_iff : op.sameSource? = none ↔ op = .csel := by
  cases op <;> simp [sameSource?]

end ConditionalSelectOp

namespace Instruction.HasForm

variable {i : Instruction} {op : ConditionalSelectOp} {rd rn rm : Register}

/-- A selection shows its sources under the opcode's own mnemonic unless they are one register, and
another mnemonic says the opposite. -/
theorem exists_selection (hF : i.HasForm (.conditionalSelect op rd rn rm))
    (hsize : rn.size = rm.size) :
    ∃ m rs, Layout.conditionalSelect i = .ok (.ofSelection m (rd :: rs) i.conditionOf) ∧
      (m = op.mnemonic ↔ op = .csel ∨ rn.number ≠ rm.number) ∧
      ∀ ρ : String → BitVec n, op.Says m (m ≠ op.mnemonic) (rs.map fun r ↦ r.held ρ)
        (rn.held ρ) (rm.held ρ) := by
  have hop := hF.opcode
  have hos := hF.operands
  simp only [Form.opcode, Form.operands] at hop hos
  simp only [Layout.conditionalSelect, hop, hos]
  split
  · rename_i m hsource
    obtain ⟨⟨hn, hm⟩, hsource⟩ := Option.ite_none_right_eq_some.1 hsource
    have hnumber := (Register.number_of_isZero hn).trans (Register.number_of_isZero hm).symm
    obtain ⟨hcsel, hother⟩ := ConditionalSelectOp.ne_of_preferred (.inl hsource)
    refine ⟨m, [], rfl, by simp [hcsel, hother, hnumber], fun ρ ↦ ?_⟩
    rw [decide_eq_true hother, Register.held_of_isZero hn, Register.held_of_isZero hm]
    exact ConditionalSelectOp.says_zeroSource hsource
  · split
    · rename_i m hsource
      obtain ⟨hnumber, hsource⟩ := Option.ite_none_right_eq_some.1 hsource
      obtain ⟨hcsel, hother⟩ := ConditionalSelectOp.ne_of_preferred (.inr hsource)
      refine ⟨m, [rn], rfl, by simp [hcsel, hother, hnumber], fun ρ ↦ ?_⟩
      rw [decide_eq_true hother, ← Register.held_congr hnumber hsize]
      exact ConditionalSelectOp.says_sameSource hsource _
    · rename_i hsource
      have hplain : op = .csel ∨ rn.number ≠ rm.number := by
        by_contra! hsame
        rw [if_pos hsame.2] at hsource
        exact hsame.1 (ConditionalSelectOp.sameSource?_eq_none_iff.1 hsource)
      refine ⟨op.mnemonic, [rn, rm], rfl, by simp [hplain], fun ρ ↦ ?_⟩
      simpa using op.says_mnemonic (rn.held ρ) (rm.held ρ)

end Instruction.HasForm

/-! ### What is printed -/

variable {i : Instruction} {op : ConditionalSelectOp} {rd rn rm : Register}

/-- **A selection shows its condition as it is given.** The line that a conditional selection prints
is read, and writes a value to the destination whatever the registers hold and whichever conditions
hold. If it shows the opcode's own mnemonic, which is so unless the sources are one register and
there is another mnemonic for that, the value is what the opcode makes of the sources. Otherwise it
is what the opcode makes of them when the condition has the opposite truth value. -/
theorem Instruction.selected_of_text {k : Int} (hk : i.operation.integer? = some k)
    (hF : i.HasForm (.conditionalSelect op rd rn rm))
    (hsize : rd.size = .int n ∧ rn.size = .int n ∧ rm.size = .int n)
    (hc : 0 ≤ i.condition ∧ i.condition ≤ 13) :
    ∃ s line, i.text = .ok s ∧ Line.read s = .ok line ∧
      (line.mnemonic = op.mnemonic ↔ op = .csel ∨ rn.number ≠ rm.number) ∧
      ∀ (ρ : String → BitVec n) (truth : Condition → Bool),
        line.selected? ρ truth = some (rd.text,
          op.apply
            (if line.mnemonic = op.mnemonic then truth i.conditionOf else !truth i.conditionOf)
            (rn.held ρ) (rm.held ρ)) := by
  obtain ⟨hd, hn, hm⟩ := hsize
  obtain ⟨m, rs, hl, hmnemonic, hsays⟩ := hF.exists_selection (n := n) (hn.trans hm.symm)
  have hfamily : i.operation.family? = some .conditionalSelect :=
    Operation.family?_of_opcode? hk hF.opcode
  have hintegers : i.hasIntegers = true := by
    rw [hasIntegers, hF.operands]
    simp [Operand.hasIntegers, Register.hasIntegers, hd, hn, hm, Json.isInt]
  obtain ⟨hnaturals, hfirst⟩ := hF.plain
  have hread := Family.read_of_layout (f := .conditionalSelect) hintegers hnaturals hfirst
    (Operation.isKey_of_integer? hk) hl
  rw [if_neg (by rw [hF.opcode]; simp)] at hread
  refine ⟨_, .ofNames m ((rd :: rs).map Register.text ++ [i.conditionOf.text]),
    text_of_layout hintegers hfamily hl, ?_, hmnemonic, fun ρ truth ↦ ?_⟩
  · rw [hread, ← Layout.reading_selection]
    rfl
  · obtain ⟨verb, hverb, hvalue⟩ := hsays ρ
    have hnv : i.conditionOf ≠ .nv := Condition.ofLowBits_ne_nv hc
    rw [Line.selected?_ofNames ρ truth hverb hnv, hvalue, Line.mnemonic_ofNames]
    by_cases hraw : m = op.mnemonic <;> simp [hraw]

/-- A selection between zero and one by the condition for equality. -/
def equalityFlag : Instruction where
  operation := .named (.conditionalSelect .csinc)
  operands := [.register ⟨0, .int 64⟩, .register ⟨31, .int 64⟩, .register ⟨31, .int 64⟩]
  condition := 0

/-- What the line says for a condition is what the instruction does for its opposite. -/
theorem Instruction.selected_of_text_equalityFlag :
    equalityFlag.text = .ok "cset x0, eq" ∧ ∃ line, Line.read "cset x0, eq" = .ok line ∧
      ∀ (ρ : String → BitVec 64) (truth : Condition → Bool), line.selected? ρ truth =
        some ("x0", ConditionalSelectOp.csinc.apply (!truth .eq) 0 0) := by
  have htext : equalityFlag.text = .ok "cset x0, eq" := by decide +kernel
  obtain ⟨s, line, hs, hread, hmnemonic, hvalue⟩ :=
    selected_of_text (n := 64) (i := equalityFlag) rfl ⟨rfl, rfl⟩ ⟨rfl, rfl, rfl⟩ (by decide)
  obtain rfl : s = "cset x0, eq" := Except.ok.inj (hs.symm.trans htext)
  refine ⟨htext, line, hread, fun ρ truth ↦ ?_⟩
  rw [hvalue, if_neg (by rw [hmnemonic]; simp)]
  rfl

/-- After a comparison of equal numbers the line says one, and the instruction makes zero. -/
theorem Instruction.selected_of_text_misread :
    equalityFlag.HasForm (.conditionalSelect .csinc ⟨0, .int 64⟩ ⟨31, .int 64⟩ ⟨31, .int 64⟩) ∧
      equalityFlag.text = .ok "cset x0, eq" ∧
      Line.read "cset x0, eq" = .ok (.ofNames "cset" ["x0", "eq"]) ∧
      (Line.ofNames "cset" ["x0", "eq"]).selected? (fun _ ↦ 0#64) (fun c ↦ c = .eq) =
        some ("x0", 1) ∧
      ConditionalSelectOp.csinc.apply true (Register.held ⟨31, .int 64⟩ fun _ ↦ 0#64)
        (Register.held ⟨31, .int 64⟩ fun _ ↦ 0#64) = 0 :=
  ⟨⟨rfl, rfl⟩, by decide +kernel, by decide +kernel, by decide +kernel, by decide⟩

end A64Text
