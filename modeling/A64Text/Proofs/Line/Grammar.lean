import A64Text.Line.Reader
import A64Text.Proofs.Line.Patterns

/-!
# The grammar of lines

The derivation trees of the grammar, one type for each of its rules:

* a line is a word and operands, which are separated by commas;
* an operand is a term, or terms separated by commas between brackets, and a bang may follow;
* a term is a word, an immediate, or a word and an immediate;
* an immediate is a number, and a hash may stand in front of it.

A tree yields lexemes and has a value, the line in normal form. A sequence of lexemes is the yield
of at most one tree (`LineTree.yield_injective`). The argument goes rule by rule: two trees of a
rule that are continued to the same lexemes are equal, if what continues them cannot belong to them.
For terms those are the commas and closing brackets, for operands the commas.

The value of a number is total, because a number that has been scanned is one. What it relies on is
said here as well: reading a numeral digit by digit fails on a character that is no digit of the
base, and does not fail on a number that the pattern matches (`integer?_of_mem_numberPattern`).
-/

namespace A64Text

/-! ### Reading numerals -/

namespace Numeral

/-- The number that digits stand for. There must be one at least, and each must be of the base. -/
def natural? (base : Nat) (digits : List Char) : Option Nat :=
  if digits ≠ [] ∧ digits.all (fun c ↦ isHexDigit c && digitValue c < base) then
    some (value base digits)
  else none

/-- The number behind a sign. In base sixteen a radix mark may stand in front of the digits. -/
def magnitude? (base : Nat) : List Char → Option Nat
  | '0' :: 'x' :: digits =>
    if base = 16 then natural? base digits else natural? base ('0' :: 'x' :: digits)
  | digits => natural? base digits

/-- The integer that a text stands for, in base sixteen if the radix mark occurs in it and in base
ten otherwise. -/
def integer? (text : List Char) : Option Int :=
  let lower := text.map Char.toLower
  let base := if ['0', 'x'] <:+: lower then 16 else 10
  match lower with
  | '+' :: digits => (magnitude? base digits).map fun n ↦ (n : Int)
  | '-' :: digits => (magnitude? base digits).map fun n ↦ -(n : Int)
  | digits => (magnitude? base digits).map fun n ↦ (n : Int)

theorem natural?_eq_some {base : Nat} {digits : List Char} (hne : digits ≠ [])
    (h : ∀ c ∈ digits, isHexDigit c = true ∧ digitValue c < base) :
    natural? base digits = some (value base digits) :=
  if_pos ⟨hne, by simpa using h⟩

theorem isHexDigit_of_isDecimalDigit {c : Char} (h : isDecimalDigit c = true) :
    isHexDigit c = true := by
  simp [isHexDigit, h]

theorem toNat_lt_of_isHexDigit {c : Char} (h : isHexDigit c = true) : c.toNat < 103 := by
  simp only [isHexDigit, isDecimalDigit, Bool.or_eq_true, Bool.and_eq_true, decide_eq_true_eq] at h
  have hle : c ≤ 'f' := by
    rcases h with (h | h) | h
    · exact Char.le_trans h.2 (by decide)
    · exact h.2
    · exact Char.le_trans h.2 (by decide)
  exact Nat.lt_succ_of_le hle

/-- A digit keeps its value in lower-case. -/
theorem digitValue_toLower {c : Char} (h : isHexDigit c = true) :
    isHexDigit c.toLower = true ∧ digitValue c.toLower = digitValue c ∧ digitValue c < 16 := by
  have hall : ∀ n < 103, isHexDigit (Char.ofNat n) = true →
      isHexDigit (Char.ofNat n).toLower = true ∧
        digitValue (Char.ofNat n).toLower = digitValue (Char.ofNat n) ∧
        digitValue (Char.ofNat n) < 16 := by decide
  have hc := hall c.toNat (toNat_lt_of_isHexDigit h)
  rw [Char.ofNat_toNat] at hc
  exact hc h

theorem toLower_of_isDecimalDigit {c : Char} (h : isDecimalDigit c = true) :
    c.toLower = c ∧ digitValue c < 10 := by
  have hall : ∀ n < 103, isDecimalDigit (Char.ofNat n) = true →
      (Char.ofNat n).toLower = Char.ofNat n ∧ digitValue (Char.ofNat n) < 10 := by decide
  have hc := hall c.toNat (toNat_lt_of_isHexDigit (isHexDigit_of_isDecimalDigit h))
  rw [Char.ofNat_toNat] at hc
  exact hc h

theorem value_map_toLower {base : Nat} {digits : List Char}
    (h : ∀ c ∈ digits, isHexDigit c = true) :
    value base (digits.map Char.toLower) = value base digits := by
  induction digits using List.reverseRecOn with
  | nil => rfl
  | append_singleton digits c ih =>
    have hc := digitValue_toLower (h c (by simp))
    rw [List.map_append, List.map_singleton, value_append_singleton, value_append_singleton,
      hc.2.1, ih fun d hd ↦ h d (by simp [hd])]

end Numeral

namespace Line

open Lexeme

/-- The checked reading of a numeral without its sign. -/
theorem magnitude?_of_mem {v : List Char} (h : v ∈ hexadecimalPattern ∨ v ∈ decimalPattern) :
    Numeral.magnitude? (if ['0', 'x'] <:+: v.map Char.toLower then 16 else 10)
      (v.map Char.toLower) = some (unsignedValue v) := by
  rcases h with h | h
  · obtain ⟨x, d, digits, rfl, hx, hd, hdigits⟩ := mem_hexadecimalPattern_iff.1 h
    have hlower : x.toLower = 'x' := by
      simp only [Bool.or_eq_true, decide_eq_true_eq] at hx
      rcases hx with rfl | rfl <;> rfl
    have hhex : ∀ c ∈ d :: digits, Numeral.isHexDigit c = true :=
      List.forall_mem_cons.2 ⟨hd, hdigits⟩
    have hmap : ('0' :: x :: d :: digits).map Char.toLower =
        '0' :: 'x' :: (d :: digits).map Char.toLower := by
      rw [List.map_cons, List.map_cons, hlower]
      rfl
    have hmark : ['0', 'x'] <:+: '0' :: 'x' :: (d :: digits).map Char.toLower :=
      ⟨[], _, rfl⟩
    have hdigit : ∀ c ∈ (d :: digits).map Char.toLower,
        Numeral.isHexDigit c = true ∧ Numeral.digitValue c < 16 := by
      intro c hc
      obtain ⟨e, he, rfl⟩ := List.mem_map.1 hc
      obtain ⟨hlow, hval, hlt⟩ := Numeral.digitValue_toLower (hhex e he)
      exact ⟨hlow, hval ▸ hlt⟩
    rw [hmap, if_pos hmark, Numeral.magnitude?, if_pos rfl,
      Numeral.natural?_eq_some (by simp) hdigit, Numeral.value_map_toLower hhex, unsignedValue,
      if_pos hx]
  · obtain ⟨d, digits, rfl, hd, hdigits⟩ := mem_run_iff.1 h
    have hdec : ∀ c ∈ d :: digits, Numeral.isDecimalDigit c = true :=
      List.forall_mem_cons.2 ⟨hd, hdigits⟩
    have hmap : (d :: digits).map Char.toLower = d :: digits :=
      (List.map_congr_left fun c hc ↦ (Numeral.toLower_of_isDecimalDigit (hdec c hc)).1).trans
        (List.map_id _)
    have hmark : ¬ ['0', 'x'] <:+: d :: digits := by
      intro hwithin
      have hx := hdec 'x' (hwithin.subset (by simp))
      exact absurd hx (by decide)
    have hdigit : ∀ c ∈ d :: digits, Numeral.isHexDigit c = true ∧ Numeral.digitValue c < 10 :=
      fun c hc ↦ ⟨Numeral.isHexDigit_of_isDecimalDigit (hdec c hc),
        (Numeral.toLower_of_isDecimalDigit (hdec c hc)).2⟩
    have hvalue : unsignedValue (d :: digits) = Numeral.value 10 (d :: digits) := by
      unfold unsignedValue
      split
      · rename_i x rest heq
        have hx : (x = 'x' || x = 'X') = false := by
          have := hdec x (by rw [heq]; simp)
          simp only [Bool.or_eq_false_iff, decide_eq_false_iff_not]
          constructor <;> rintro rfl <;> exact absurd this (by decide)
        rw [hx, heq]
        rfl
      · rfl
    have hmagnitude : Numeral.magnitude? 10 (d :: digits) = Numeral.natural? 10 (d :: digits) := by
      unfold Numeral.magnitude?
      split
      · rename_i heq
        rw [if_neg (by decide), heq]
      · rfl
    rw [hmap, if_neg hmark, hmagnitude, Numeral.natural?_eq_some (by simp) hdigit, hvalue]

/-- Reading a number that the pattern matches digit by digit does not fail, and gives its value. -/
theorem integer?_of_mem_numberPattern {w : List Char} (h : w ∈ numberPattern) :
    Numeral.integer? w = some (numberValue w) := by
  obtain ⟨sign, v, rfl, hsign, hv⟩ := mem_numberPattern_iff.1 h
  have hmagnitude := magnitude?_of_mem hv
  have hwithin : ∀ c, c ≠ '0' →
      (['0', 'x'] <:+: c :: v.map Char.toLower ↔ ['0', 'x'] <:+: v.map Char.toLower) := by
    intro c hc
    rw [List.infix_cons_iff]
    refine ⟨?_, .inr⟩
    rintro (⟨rest, heq⟩ | hrest)
    · exact absurd (List.cons.inj heq).1.symm hc
    · exact hrest
  rcases hsign with rfl | rfl | rfl
  · obtain ⟨d, digits, rfl, hd⟩ := exists_digit_of_mem_unsigned hv
    have hplus : d ≠ '+' := by
      rintro rfl
      exact absurd hd (by decide)
    have hminus : d ≠ '-' := by
      rintro rfl
      exact absurd hd (by decide)
    have hlow := (Numeral.toLower_of_isDecimalDigit hd).1
    rw [List.map_cons, hlow] at hmagnitude
    simp only [List.nil_append, Numeral.integer?, List.map_cons, hlow]
    split
    · rename_i heq
      exact absurd (List.cons.inj heq).1 hplus
    · rename_i heq
      exact absurd (List.cons.inj heq).1 hminus
    · rw [hmagnitude]
      simp [numberValue, hplus, hminus]
  · have hlower : (['+'] ++ v).map Char.toLower = '+' :: v.map Char.toLower := rfl
    simp only [Numeral.integer?, hlower, hwithin '+' (by decide), hmagnitude]
    rfl
  · have hlower : (['-'] ++ v).map Char.toLower = '-' :: v.map Char.toLower := rfl
    simp only [Numeral.integer?, hlower, hwithin '-' (by decide), hmagnitude]
    rfl

/-! ### Derivation trees -/

/-- An immediate: a number, with a hash in front of it or not. -/
structure ImmediateTree where
  hashed : Bool
  number : List Char
  deriving DecidableEq, Repr

/-- A term: a word, a word and an immediate, or an immediate. -/
inductive TermTree where
  | name (word : List Char)
  | amount (word : List Char) (imm : ImmediateTree)
  | immediate (imm : ImmediateTree)
  deriving DecidableEq, Repr

/-- An operand: a term, or terms between brackets, with a bang behind them or not. -/
inductive OperandTree where
  | term (t : TermTree)
  | memory (first : TermTree) (others : List TermTree) (writeback : Bool)
  deriving DecidableEq, Repr

/-- A line: a word, and operands if there are any. -/
structure LineTree where
  mnemonic : List Char
  operands : List OperandTree
  deriving DecidableEq, Repr

/-- What the members of a list yield, with commas between them. -/
def separated {α : Type} (yield : α → List Lexeme) : List α → List Lexeme
  | [] => []
  | x :: xs => yield x ++ xs.flatMap fun y ↦ .comma :: yield y

/-- The lexemes of an immediate. -/
def ImmediateTree.yield (imm : ImmediateTree) : List Lexeme :=
  if imm.hashed then [.hash, .number imm.number] else [.number imm.number]

/-- The lexemes of a term. -/
def TermTree.yield : TermTree → List Lexeme
  | name w => [.word w]
  | amount w imm => .word w :: imm.yield
  | immediate imm => imm.yield

/-- The lexemes of an operand. -/
def OperandTree.yield : OperandTree → List Lexeme
  | term t => t.yield
  | memory first others writeback =>
    .beginMemory :: separated TermTree.yield (first :: others) ++
      .endMemory :: if writeback then [.bang] else []

/-- The lexemes of a line. -/
def LineTree.yield (tree : LineTree) : List Lexeme :=
  .word tree.mnemonic :: separated OperandTree.yield tree.operands

/-! ### Values -/

/-- The value of an immediate. -/
def ImmediateTree.value (imm : ImmediateTree) : Int := numberValue imm.number

/-- The value of a term: a name in normal form, a number, or both. -/
def TermTree.value : TermTree → Term
  | name w => ⟨some (normalName w), none⟩
  | amount w imm => ⟨some (normalName w), some imm.value⟩
  | immediate imm => ⟨none, some imm.value⟩

/-- The value of an operand; modifiers are fused between brackets. -/
def OperandTree.value : OperandTree → Item
  | term t => .term t.value
  | memory first others writeback =>
    .memory (fuseTerms ((first :: others).map TermTree.value)) writeback

/-- The value of a line; modifiers are fused among its operands. -/
def LineTree.value (tree : LineTree) : Line :=
  ⟨normalMnemonic tree.mnemonic, fuseItems (tree.operands.map OperandTree.value)⟩

/-! ### Unique readability -/

/-- Lexemes that begin with none of the given ones. -/
def Avoids (ts : List Lexeme) (p : Lexeme → Bool) : Prop := ∀ t, ts.head? = some t → p t = false

/-- A lexeme that can continue a term. -/
def continuesTerm : Lexeme → Bool
  | .hash | .number _ => true
  | _ => false

/-- A lexeme that can continue an operand. -/
def continuesOperand : Lexeme → Bool
  | .hash | .number _ | .bang => true
  | _ => false

theorem avoids_nil (p : Lexeme → Bool) : Avoids [] p := by simp [Avoids]

theorem avoids_cons {t : Lexeme} {ts : List Lexeme} {p : Lexeme → Bool} (h : p t = false) :
    Avoids (t :: ts) p := by
  intro u hu
  rwa [← Option.some.inj hu]

theorem Avoids.head {t : Lexeme} {ts : List Lexeme} {p : Lexeme → Bool} (h : Avoids (t :: ts) p) :
    p t = false :=
  h t rfl

theorem ImmediateTree.yield_append_inj {a b : ImmediateTree} {ts us : List Lexeme}
    (h : a.yield ++ ts = b.yield ++ us) : a = b ∧ ts = us := by
  obtain ⟨hashed, number⟩ := a
  obtain ⟨hashed', number'⟩ := b
  cases hashed <;> cases hashed' <;> simp_all [yield]

theorem TermTree.yield_append_inj {a b : TermTree} {ts us : List Lexeme}
    (hts : Avoids ts continuesTerm) (hus : Avoids us continuesTerm)
    (h : a.yield ++ ts = b.yield ++ us) : a = b ∧ ts = us := by
  -- A word that is not continued is not the word in front of an immediate.
  have hname : ∀ {w w' : List Char} {imm : ImmediateTree} {ts us : List Lexeme},
      Avoids ts continuesTerm → (name w).yield ++ ts ≠ (amount w' imm).yield ++ us := by
    rintro w w' ⟨hashed, number⟩ ts us hts heq
    have hrest : ts = ImmediateTree.yield ⟨hashed, number⟩ ++ us := (List.cons.inj heq).2
    rw [hrest] at hts
    cases hashed with
    | false => exact absurd hts.head (by simp [continuesTerm])
    | true => exact absurd hts.head (by simp [continuesTerm])
  have himmediate : ∀ {w : List Char} {imm : ImmediateTree} {ts us : List Lexeme},
      .word w :: ts ≠ imm.yield ++ us := by
    rintro w ⟨hashed, number⟩ ts us heq
    cases hashed with
    | false => cases (List.cons.inj heq).1
    | true => cases (List.cons.inj heq).1
  cases a with
  | name w =>
    cases b with
    | name w' => simp_all [yield]
    | amount w' imm => exact absurd h (hname hts)
    | immediate imm => exact absurd h himmediate
  | amount w imm =>
    cases b with
    | name w' => exact absurd h.symm (hname hus)
    | amount w' imm' =>
      obtain ⟨hw, hrest⟩ := List.cons.inj h
      obtain ⟨rfl, rfl⟩ := ImmediateTree.yield_append_inj hrest
      exact ⟨by rw [Lexeme.word.inj hw], rfl⟩
    | immediate imm' => exact absurd h himmediate
  | immediate imm =>
    cases b with
    | name w' => exact absurd h.symm himmediate
    | amount w' imm' => exact absurd h.symm himmediate
    | immediate imm' =>
      obtain ⟨rfl, rfl⟩ := ImmediateTree.yield_append_inj h
      exact ⟨rfl, rfl⟩

section Separated

variable {α : Type} (yield : α → List Lexeme) {p : Lexeme → Bool}

/-- Members behind commas are determined by what they yield, in front of something that is neither a
comma nor continues a member. -/
theorem flatMap_comma_inj (hp : p .comma = false)
    (hinj : ∀ {x y : α} {ts us : List Lexeme}, Avoids ts p → Avoids us p →
      yield x ++ ts = yield y ++ us → x = y ∧ ts = us)
    {xs ys : List α} {ts us : List Lexeme} (hts : Avoids ts p) (hus : Avoids us p)
    (hts' : Avoids ts (· = .comma)) (hus' : Avoids us (· = .comma))
    (h : (xs.flatMap fun x ↦ .comma :: yield x) ++ ts =
      (ys.flatMap fun y ↦ .comma :: yield y) ++ us) : xs = ys ∧ ts = us := by
  have havoids : ∀ {zs : List α} {vs : List Lexeme}, Avoids vs p →
      Avoids ((zs.flatMap fun z ↦ .comma :: yield z) ++ vs) p := by
    intro zs vs hvs
    cases zs with
    | nil => exact hvs
    | cons z zs => exact avoids_cons hp
  induction xs generalizing ys with
  | nil =>
    cases ys with
    | nil => exact ⟨rfl, h⟩
    | cons y ys =>
      rw [show ts = _ from h] at hts'
      exact absurd hts'.head (by simp)
  | cons x xs ih =>
    cases ys with
    | nil =>
      rw [show us = _ from h.symm] at hus'
      exact absurd hus'.head (by simp)
    | cons y ys =>
      simp only [List.flatMap_cons, List.cons_append, List.append_assoc, List.cons.injEq,
        true_and] at h
      obtain ⟨rfl, hrest⟩ := hinj (havoids hts) (havoids hus) h
      obtain ⟨rfl, rfl⟩ := ih hrest
      exact ⟨rfl, rfl⟩

/-- Members with commas between them are determined by what they yield. -/
theorem separated_inj (hp : p .comma = false)
    (hinj : ∀ {x y : α} {ts us : List Lexeme}, Avoids ts p → Avoids us p →
      yield x ++ ts = yield y ++ us → x = y ∧ ts = us)
    {x y : α} {xs ys : List α} {ts us : List Lexeme} (hts : Avoids ts p) (hus : Avoids us p)
    (hts' : Avoids ts (· = .comma)) (hus' : Avoids us (· = .comma))
    (h : separated yield (x :: xs) ++ ts = separated yield (y :: ys) ++ us) :
    x :: xs = y :: ys ∧ ts = us := by
  -- The first member is the one behind a comma that has been put in front of all.
  refine flatMap_comma_inj yield hp hinj hts hus hts' hus' ?_
  simpa [separated] using h

end Separated

theorem OperandTree.yield_append_inj {a b : OperandTree} {ts us : List Lexeme}
    (hts : Avoids ts continuesOperand) (hus : Avoids us continuesOperand)
    (h : a.yield ++ ts = b.yield ++ us) : a = b ∧ ts = us := by
  have hterm : ∀ {vs : List Lexeme}, Avoids vs continuesOperand → Avoids vs continuesTerm := by
    intro vs hvs t ht
    have := hvs t ht
    cases t <;> simp_all [continuesOperand, continuesTerm]
  have hbegin : ∀ {t : TermTree} {vs ws : List Lexeme}, .beginMemory :: vs ≠ t.yield ++ ws := by
    intro t vs ws heq
    rcases t with w | ⟨w, imm⟩ | ⟨_ | _, number⟩ <;> cases (List.cons.inj heq).1
  cases a with
  | term t =>
    cases b with
    | term u =>
      obtain ⟨rfl, rfl⟩ := TermTree.yield_append_inj (hterm hts) (hterm hus) h
      exact ⟨rfl, rfl⟩
    | memory first others writeback => exact absurd h.symm hbegin
  | memory first others writeback =>
    cases b with
    | term u => exact absurd h hbegin
    | memory first' others' writeback' =>
      simp only [yield, List.cons_append, List.append_assoc, List.cons.injEq, true_and] at h
      obtain ⟨hterms, hrest⟩ := separated_inj TermTree.yield rfl
        TermTree.yield_append_inj (avoids_cons rfl)
        (avoids_cons rfl) (avoids_cons (by decide)) (avoids_cons (by decide)) h
      obtain ⟨rfl, rfl⟩ := List.cons.inj hterms
      have hbang := (List.cons.inj hrest).2
      -- A bang belongs to the brackets, so what continues the operand has none in front.
      cases writeback <;> cases writeback'
      · exact ⟨rfl, hbang⟩
      · rw [show ts = .bang :: us from hbang] at hts
        exact absurd hts.head (by simp [continuesOperand])
      · rw [show us = .bang :: ts from hbang.symm] at hus
        exact absurd hus.head (by simp [continuesOperand])
      · exact ⟨rfl, (List.cons.inj hbang).2⟩

/-- Lexemes are the yield of at most one tree. -/
theorem LineTree.yield_injective {a b : LineTree} (h : a.yield = b.yield) : a = b := by
  obtain ⟨mnemonic, operands⟩ := a
  obtain ⟨mnemonic', operands'⟩ := b
  obtain ⟨hmnemonic, hoperands⟩ := List.cons.inj h
  obtain rfl := Lexeme.word.inj hmnemonic
  have hne : ∀ {o : OperandTree} {os : List OperandTree},
      separated OperandTree.yield (o :: os) ≠ [] := by
    rintro ((w | ⟨w, imm⟩ | ⟨_ | _, number⟩) | ⟨first, others, writeback⟩) os <;>
      simp [separated, OperandTree.yield, TermTree.yield, ImmediateTree.yield]
  cases operands with
  | nil =>
    cases operands' with
    | nil => rfl
    | cons o os => exact absurd hoperands.symm hne
  | cons o os =>
    cases operands' with
    | nil => exact absurd hoperands hne
    | cons o' os' =>
      have hnil : separated OperandTree.yield (o :: os) ++ [] =
          separated OperandTree.yield (o' :: os') ++ [] := congrArg (· ++ []) hoperands
      rw [(separated_inj OperandTree.yield rfl OperandTree.yield_append_inj (avoids_nil _)
        (avoids_nil _) (avoids_nil _) (avoids_nil _) hnil).1]

end Line

end A64Text
