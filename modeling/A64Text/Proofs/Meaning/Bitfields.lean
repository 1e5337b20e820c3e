import A64Text.Proofs.Layout.Text
import A64Text.Proofs.Meaning.Machine

/-!
# Bitfields keep their meaning

A bitfield move rotates its source, keeps what two masks let through, and fills the rest with zeros,
with a sign or with what was there. The architecture defines it by these masks
(`BitfieldOp.apply`), and a programmer knows it by what is printed: a shift, a field that is taken
out or put in, or a narrower number that is extended (`FieldVerb.value?`).

The two are compared bit by bit. With ascending bounds a bit of the result comes from as many places
further up as the lower bound says (`BitfieldOp.getLsbD_apply_ascending`). With descending bounds
the rotation goes round, and it comes from further down (`BitfieldOp.getLsbD_apply_descending`).
Every printed form has the same bits (`Instruction.bitfield_value_of_text`).
-/

namespace A64Text

open Line

variable {n : Nat}

/-! ### The raw operations -/

/-- A word whose lowest `k` bits are set. -/
def Meaning.ones (n k : Nat) : BitVec n := (BitVec.allOnes k).setWidth n

open Meaning

namespace BitfieldOp

/-- The bits whose rotated places come from the source. -/
def wmask (n immr imms : Nat) : BitVec n := (ones n (imms + 1)).rotateRight immr

/-- The bits up to the end of the field. -/
def tmask (n immr imms : Nat) : BitVec n := ones n ((((imms : Int) - immr) % n).toNat + 1)

/-- A bitfield move in a word of `n` bits: the source `x` is rotated, the masks select what comes
from it, and the rest comes from the old destination `d`, from the sign, or is zero. -/
def apply (op : BitfieldOp) (immr imms : Nat) (x d : BitVec n) : BitVec n :=
  let wmask := wmask n immr imms
  let tmask := tmask n immr imms
  let rotated := x.rotateRight immr
  match op with
  | .ubfm => rotated &&& wmask &&& tmask
  | .sbfm =>
    ((if x.getLsbD imms then BitVec.allOnes n else 0) &&& ~~~tmask) |||
      (rotated &&& wmask &&& tmask)
  | .bfm => (d &&& ~~~tmask) ||| (((d &&& ~~~wmask) ||| (rotated &&& wmask)) &&& tmask)

/-- One bit of a bitfield move, from the bits of the rotated source and of the masks, the sign and
the old bit. -/
def bit (op : BitfieldOp) (rotated wmask tmask sign old : Bool) : Bool :=
  match op with
  | .ubfm => rotated && wmask && tmask
  | .sbfm => sign && !tmask || rotated && wmask && tmask
  | .bfm => old && !tmask || (old && !wmask || rotated && wmask) && tmask

variable {immr imms i : Nat} {x d : BitVec n}

theorem getLsbD_apply (op : BitfieldOp) (hi : i < n) :
    (op.apply immr imms x d).getLsbD i =
      op.bit ((x.rotateRight immr).getLsbD i) ((wmask n immr imms).getLsbD i)
        ((tmask n immr imms).getLsbD i) (x.getLsbD imms) (d.getLsbD i) := by
  cases op with
  | ubfm => simp only [apply, bit, BitVec.getLsbD_and]
  | sbfm =>
    have hsign : (if x.getLsbD imms then BitVec.allOnes n else 0).getLsbD i = x.getLsbD imms := by
      cases x.getLsbD imms <;> simp [hi]
    simp only [apply, bit, BitVec.getLsbD_and, BitVec.getLsbD_or, BitVec.getLsbD_not, hi,
      decide_true, Bool.true_and, hsign]
  | bfm =>
    simp only [apply, bit, BitVec.getLsbD_and, BitVec.getLsbD_or, BitVec.getLsbD_not, hi,
      decide_true, Bool.true_and]

/-! ### The bits of a field -/

theorem getLsbD_ones (hi : i < n) (k : Nat) : (ones n k).getLsbD i = decide (i < k) := by
  simp [ones, hi]

theorem getLsbD_rotateRight_low (hr : immr < n) (hi : i < n - immr) :
    (x.rotateRight immr).getLsbD i = x.getLsbD (immr + i) := by
  rw [BitVec.getLsbD_rotateRight, Nat.mod_eq_of_lt hr]
  simp [hi]

theorem getLsbD_rotateRight_high (hr : immr < n) (hi : i < n) (hhigh : ¬ i < n - immr) :
    (x.rotateRight immr).getLsbD i = x.getLsbD (i - (n - immr)) := by
  rw [BitVec.getLsbD_rotateRight, Nat.mod_eq_of_lt hr]
  simp [hi, hhigh]

/-- What a bitfield move leaves outside its field: zeros, the sign above it, or what was there. -/
def outside (op : BitfieldOp) (sign above old : Bool) : Bool :=
  match op with
  | .ubfm => false
  | .sbfm => sign && above
  | .bfm => old

/-- With ascending bounds, the field is moved down to the lowest bit. -/
theorem getLsbD_apply_ascending (op : BitfieldOp) (hbounds : immr ≤ imms) (hs : imms < n)
    (hi : i < n) :
    (op.apply immr imms x d).getLsbD i =
      if i ≤ imms - immr then x.getLsbD (immr + i)
      else op.outside (x.getLsbD imms) true (d.getLsbD i) := by
  have htop : (((imms : Int) - immr) % n).toNat = imms - immr := by
    rw [Int.emod_eq_of_lt (by omega) (by omega)]
    omega
  have htmask : (tmask n immr imms).getLsbD i = decide (i ≤ imms - immr) := by
    simp only [tmask, htop, getLsbD_ones hi, Nat.lt_succ_iff]
  rw [getLsbD_apply op hi, htmask]
  by_cases hfield : i ≤ imms - immr
  · have hlow : i < n - immr := by omega
    have hwmask : (wmask n immr imms).getLsbD i = true := by
      rw [wmask, getLsbD_rotateRight_low (by omega) hlow, getLsbD_ones (by omega)]
      exact decide_eq_true (by omega)
    rw [getLsbD_rotateRight_low (by omega) hlow, hwmask]
    cases op <;> simp [bit, hfield]
  · cases op <;> simp [bit, outside, hfield]

/-- With descending bounds, the field is moved up, as far as the rotation goes round. -/
theorem getLsbD_apply_descending (op : BitfieldOp) (hbounds : imms < immr) (hr : immr < n)
    (hi : i < n) :
    (op.apply immr imms x d).getLsbD i =
      if n - immr ≤ i ∧ i ≤ n - immr + imms then x.getLsbD (i - (n - immr))
      else op.outside (x.getLsbD imms) (n - immr + imms < i) (d.getLsbD i) := by
  have htop : (((imms : Int) - immr) % n).toNat = n - immr + imms := by
    rw [← Int.add_emod_right, Int.emod_eq_of_lt (by omega) (by omega)]
    omega
  have htmask : (tmask n immr imms).getLsbD i = decide (i ≤ n - immr + imms) := by
    simp only [tmask, htop, getLsbD_ones hi, Nat.lt_succ_iff]
  rw [getLsbD_apply op hi, htmask]
  by_cases hlow : i < n - immr
  · have hwmask : (wmask n immr imms).getLsbD i = false := by
      rw [wmask, getLsbD_rotateRight_low hr hlow, getLsbD_ones (by omega)]
      exact decide_eq_false (by omega)
    have hbelow : i ≤ n - immr + imms := by omega
    rw [hwmask, if_neg (by omega)]
    cases op <;> simp [bit, outside, hbelow]
  · have hwmask : (wmask n immr imms).getLsbD i = decide (i ≤ n - immr + imms) := by
      rw [wmask, getLsbD_rotateRight_high hr hi hlow, getLsbD_ones (by omega)]
      exact decide_eq_decide.2 (by omega)
    rw [hwmask, getLsbD_rotateRight_high hr hi hlow]
    by_cases hfield : i ≤ n - immr + imms
    · rw [if_pos ⟨by omega, hfield⟩]
      cases op <;> simp [bit, hfield]
    · have habove : n - immr + imms < i := by omega
      rw [if_neg (by omega)]
      cases op <;> simp [bit, outside, hfield, habove]

end BitfieldOp

/-! ### The printed forms -/

namespace Meaning

/-- The field of `w` bits of `x` from bit `l` on, extended with zeros or with its sign. -/
def field (signed : Bool) (x : BitVec n) (l w : Nat) : BitVec n :=
  if signed then (x.extractLsb' l w).signExtend n else (x.extractLsb' l w).setWidth n

/-- The word `d` with the `w` bits from bit `l` on replaced by the lowest bits of `x`. -/
def replaced (d : BitVec n) (l w : Nat) (x : BitVec n) : BitVec n :=
  (d &&& ~~~(ones n w <<< l)) ||| ((x &&& ones n w) <<< l)

/-- What a mnemonic says to do with a field. -/
inductive FieldVerb where
  | shiftLeft
  | shiftRight (signed : Bool)
  /-- A field is taken from where it is. -/
  | extract (signed : Bool)
  /-- The lowest bits are put elsewhere, between zeros below and an extension above. -/
  | place (signed : Bool)
  /-- The lowest bits are a number of a narrower type. -/
  | extend (signed : Bool) (bits : Nat)
  /-- The lowest bits are put elsewhere among the old bits. -/
  | insert
  /-- Bits are cleared among the old ones. -/
  | clear
  /-- A field is put in the place of the lowest old bits. -/
  | insertLow
  deriving DecidableEq, Repr

namespace FieldVerb

/-- The mnemonics and what they say. -/
def mnemonics : List (String × FieldVerb) :=
  [("lsl", .shiftLeft), ("lsr", .shiftRight false), ("asr", .shiftRight true),
    ("ubfx", .extract false), ("sbfx", .extract true), ("ubfiz", .place false),
    ("sbfiz", .place true), ("uxtb", .extend false 8), ("uxth", .extend false 16),
    ("uxtw", .extend false 32), ("sxtb", .extend true 8), ("sxth", .extend true 16),
    ("sxtw", .extend true 32), ("bfi", .insert), ("bfc", .clear), ("bfxil", .insertLow)]

/-- The value that a verb makes with its numbers from a source `x` and an old destination `d`. A
shift goes by less than the word, and a field has a bit at least and ends inside the word. -/
def value? (x d : BitVec n) (verb : FieldVerb) (numbers : List Nat) : Option (BitVec n) :=
  match verb, numbers with
  | shiftLeft, [k] => if k < n then some (x <<< k) else none
  | shiftRight signed, [k] =>
    if k < n then some (if signed then x.sshiftRight k else x >>> k) else none
  | extract signed, [l, w] => if 0 < w ∧ l + w ≤ n then some (field signed x l w) else none
  | place signed, [l, w] => if 0 < w ∧ l + w ≤ n then some (field signed x 0 w <<< l) else none
  | extend signed bits, [] => if bits < n then some (field signed x 0 bits) else none
  | insert, [l, w] => if 0 < w ∧ l + w ≤ n then some (replaced d l w x) else none
  | clear, [l, w] => if 0 < w ∧ l + w ≤ n then some (replaced d l w 0) else none
  | insertLow, [l, w] => if 0 < w ∧ l + w ≤ n then some (replaced d 0 w (x >>> l)) else none
  | _, _ => none

end FieldVerb

/-! ### The bits of the printed forms -/

variable {x d : BitVec n} {l w i : Nat}

theorem getLsbD_field (signed : Bool) (hw : 0 < w) (hi : i < n) :
    (field signed x l w).getLsbD i =
      if i < w then x.getLsbD (l + i) else signed && x.getLsbD (l + w - 1) := by
  have hmsb : (x.extractLsb' l w).msb = x.getLsbD (l + w - 1) := by
    rw [BitVec.msb_eq_getLsbD_last, BitVec.getLsbD_extractLsb']
    have hplace : l + (w - 1) = l + w - 1 := by omega
    have hlast : w - 1 < w := by omega
    simp [hlast, hplace]
  cases signed with
  | false => by_cases hfield : i < w <;> simp [field, hi, hfield]
  | true =>
    rw [field, if_pos rfl, BitVec.getLsbD_signExtend, hmsb, BitVec.getLsbD_extractLsb']
    by_cases hfield : i < w <;> simp [hi, hfield]

theorem getLsbD_replaced (hi : i < n) :
    (replaced d l w x).getLsbD i =
      if l ≤ i ∧ i < l + w then x.getLsbD (i - l) else d.getLsbD i := by
  simp only [replaced, BitVec.getLsbD_or, BitVec.getLsbD_and, BitVec.getLsbD_not,
    BitVec.getLsbD_shiftLeft, hi, decide_true, Bool.true_and]
  by_cases hlow : i < l
  · have hfield : ¬ (l ≤ i ∧ i < l + w) := by omega
    simp [hlow, hfield]
  · have hones : (ones n w).getLsbD (i - l) = decide (i < l + w) := by
      rw [BitfieldOp.getLsbD_ones (by omega)]
      exact decide_eq_decide.2 (by omega)
    rw [hones]
    by_cases hfield : i < l + w
    · simp [hlow, hfield, Nat.not_lt.1 hlow]
    · simp [hlow, hfield]

/-- A field that reaches the top of the word is what a shift to the right leaves. -/
theorem field_top (signed : Bool) (hl : l < n) :
    field signed x l (n - l) = if signed then x.sshiftRight l else x >>> l := by
  refine BitVec.eq_of_getLsbD_eq fun i hi ↦ ?_
  have htop : l + (n - l) - 1 = n - 1 := by omega
  have hcut : i < n - l ↔ l + i < n := by omega
  rw [getLsbD_field signed (by omega) hi, htop]
  cases signed with
  | false =>
    by_cases hfield : l + i < n
    · simp [hcut, hfield]
    · simp [hcut, hfield, BitVec.getLsbD_of_ge x (l + i) (by omega)]
  | true =>
    rw [if_pos rfl, BitVec.getLsbD_sshiftRight, BitVec.msb_eq_getLsbD_last]
    by_cases hfield : l + i < n <;> simp [hcut, hfield, hi]

/-- The lowest bits that a shift to the left leaves are all that it moves. -/
theorem field_bottom (hl : l ≤ n) : field false x 0 (n - l) <<< l = x <<< l := by
  refine BitVec.eq_of_getLsbD_eq fun i hi ↦ ?_
  simp only [BitVec.getLsbD_shiftLeft]
  by_cases hlow : i < l
  · simp [hlow]
  · rw [getLsbD_field false (by omega) (by omega), if_pos (by omega), Nat.zero_add]

end Meaning

namespace BitfieldOp

variable {immr imms : Nat} {x d : BitVec n}

/-- The bitfield move that extends its field with zeros, or with its sign. -/
def extending (signed : Bool) : BitfieldOp := if signed then .sbfm else .ubfm

theorem apply_extending_ascending (signed : Bool) (hbounds : immr ≤ imms) (hs : imms < n) :
    (extending signed).apply immr imms x d = field signed x immr (imms - immr + 1) := by
  refine BitVec.eq_of_getLsbD_eq fun i hi ↦ ?_
  have hlast : immr + (imms - immr + 1) - 1 = imms := by omega
  rw [getLsbD_apply_ascending _ hbounds hs hi, getLsbD_field signed (by omega) hi, hlast]
  simp only [Nat.lt_succ_iff]
  cases signed <;> simp [extending, outside]

theorem apply_extending_descending (signed : Bool) (hbounds : imms < immr) (hr : immr < n) :
    (extending signed).apply immr imms x d = field signed x 0 (imms + 1) <<< (n - immr) := by
  refine BitVec.eq_of_getLsbD_eq fun i hi ↦ ?_
  rw [getLsbD_apply_descending _ hbounds hr hi, BitVec.getLsbD_shiftLeft]
  by_cases hlow : i < n - immr
  · have habove : ¬ n - immr + imms < i := by omega
    rw [if_neg (by omega)]
    cases signed <;> simp [extending, outside, hlow, habove]
  · rw [getLsbD_field signed (by omega) (by omega)]
    by_cases hfield : i ≤ n - immr + imms
    · have hplace : i - (n - immr) < imms + 1 := by omega
      simp [hi, hlow, hplace, hfield, Nat.not_lt.1 hlow]
    · have hplace : ¬ i - (n - immr) < imms + 1 := by omega
      have habove : n - immr + imms < i := by omega
      cases signed <;> simp [extending, outside, hi, hlow, hplace, hfield, habove]

theorem apply_bfm_ascending (hbounds : immr ≤ imms) (hs : imms < n) :
    bfm.apply immr imms x d = replaced d 0 (imms - immr + 1) (x >>> immr) := by
  refine BitVec.eq_of_getLsbD_eq fun i hi ↦ ?_
  rw [getLsbD_apply_ascending _ hbounds hs hi, getLsbD_replaced hi]
  simp only [outside, Nat.zero_le, true_and, Nat.zero_add, Nat.sub_zero, Nat.lt_succ_iff,
    BitVec.getLsbD_ushiftRight]

theorem apply_bfm_descending (hbounds : imms < immr) (hr : immr < n) :
    bfm.apply immr imms x d = replaced d (n - immr) (imms + 1) x := by
  refine BitVec.eq_of_getLsbD_eq fun i hi ↦ ?_
  rw [getLsbD_apply_descending _ hbounds hr hi, getLsbD_replaced hi]
  simp only [outside, ← Nat.add_assoc, Nat.lt_succ_iff]

end BitfieldOp

/-! ### One printed form after the other -/

namespace Meaning.FieldVerb

variable {r s : Nat} (x d : BitVec n)

theorem value?_extract (signed : Bool) (hbounds : r ≤ s) (hs : s < n) :
    (extract signed).value? x d [r, s - r + 1] =
      some ((BitfieldOp.extending signed).apply r s x d) := by
  rw [BitfieldOp.apply_extending_ascending signed hbounds hs]
  exact if_pos (by omega)

/-- A field that ends where a narrower type does is a number of that type. -/
theorem value?_extend (signed : Bool) (hs : s + 1 < n) :
    (extend signed (s + 1)).value? x d [] =
      some ((BitfieldOp.extending signed).apply 0 s x d) := by
  rw [BitfieldOp.apply_extending_ascending signed (Nat.zero_le s) (by omega)]
  exact if_pos hs

/-- A field that ends at the top of the word is what is left of a shift. -/
theorem value?_shiftRight (signed : Bool) (hr : r < n) :
    (shiftRight signed).value? x d [r] =
      some ((BitfieldOp.extending signed).apply r (n - 1) x d) := by
  have hwidth : n - 1 - r + 1 = n - r := by omega
  rw [BitfieldOp.apply_extending_ascending signed (by omega) (by omega), hwidth,
    field_top signed hr]
  exact if_pos hr

theorem value?_place (signed : Bool) (hbounds : s < r) (hr : r < n) :
    (place signed).value? x d [n - r, s + 1] =
      some ((BitfieldOp.extending signed).apply r s x d) := by
  rw [BitfieldOp.apply_extending_descending signed hbounds hr]
  exact if_pos (by omega)

/-- Bits that are put at the top of the word are what is left of a shift. -/
theorem value?_shiftLeft (hr : s + 1 < n) :
    shiftLeft.value? x d [n - (s + 1)] = some (BitfieldOp.ubfm.apply (s + 1) s x d) := by
  have hwidth : s + 1 = n - (n - (s + 1)) := by omega
  have hplaced := BitfieldOp.apply_extending_descending (x := x) (d := d) false s.lt_succ_self hr
  rw [show BitfieldOp.ubfm = BitfieldOp.extending false from rfl, hplaced]
  nth_rewrite 2 [hwidth]
  rw [field_bottom (by omega)]
  exact if_pos (by omega)

theorem value?_insertLow (hbounds : r ≤ s) (hs : s < n) :
    insertLow.value? x d [r, s - r + 1] = some (BitfieldOp.bfm.apply r s x d) := by
  rw [BitfieldOp.apply_bfm_ascending hbounds hs]
  exact if_pos (by omega)

theorem value?_insert (hbounds : s < r) (hr : r < n) :
    insert.value? x d [n - r, s + 1] = some (BitfieldOp.bfm.apply r s x d) := by
  rw [BitfieldOp.apply_bfm_descending hbounds hr]
  exact if_pos (by omega)

/-- Clearing a field is putting zeros in it. -/
theorem value?_clear (hbounds : s < r) (hr : r < n) :
    clear.value? x d [n - r, s + 1] = some (BitfieldOp.bfm.apply r s 0 d) :=
  value?_insert 0 d hbounds hr

end Meaning.FieldVerb

/-! ### What is laid out -/

/-- A part that shows a natural number. -/
def Part.natural (k : Nat) : Part := .decimal (.int k)

theorem Layout.insertedField_eq {bits r : Nat} (h : r ≤ bits) (s : Nat) :
    insertedField bits (.int r) (.int s) = [bits - r, s + 1].map Part.natural := by
  simp [insertedField, Part.natural, Int.ofNat_sub h]

theorem Layout.extractedField_eq {r s : Nat} (h : r ≤ s) :
    extractedField (.int r) (.int s) = [r, s - r + 1].map Part.natural := by
  simp [extractedField, Part.natural, Int.ofNat_sub h]

/-- A layout that shows the registers and some numbers, and says to make a value from them. A field
that is cleared shows no source, which is the zero register. -/
structure Layout.Denotes (l : Layout) (rd rn : Register)
    (value : BitVec n → BitVec n → BitVec n) (verb : FieldVerb) (numbers : List Nat) : Prop where
  mnemonic : FieldVerb.mnemonics.lookup l.mnemonic = some verb
  parts : l.parts =
    ((if verb = .clear then [rd] else [rd, rn]).map fun r ↦ .operand (.register r)) ++
      numbers.map Part.natural
  source : verb = .clear → rn.isZero = true
  value : ∀ x d, (verb = .clear → x = 0) → verb.value? x d numbers = some (value x d)

/-- A layout with both registers. -/
theorem Layout.denotes_of_value {rd rn : Register} {value : BitVec n → BitVec n → BitVec n}
    {m : String} {verb : FieldVerb} {numbers : List Nat}
    (hm : FieldVerb.mnemonics.lookup m = some verb) (hclear : verb ≠ .clear)
    (hvalue : ∀ x d, verb.value? x d numbers = some (value x d)) :
    Denotes ⟨m, (rd : Part) :: (rn : Part) :: numbers.map Part.natural⟩ rd rn value verb
      numbers where
  mnemonic := hm
  parts := by rw [if_neg hclear]; rfl
  source h := absurd h hclear
  value x d _ := hvalue x d

/-- A field that is extended and does not end at the top of the word is laid out as what it is: bits
that are put elsewhere, a number of a narrower type, or a field that is taken from where it is. -/
theorem Layout.denotes_extending (signed : Bool) {rd rn : Register} {r s : Nat}
    {placing extending extracting : String}
    (hplacing : FieldVerb.mnemonics.lookup placing = some (.place signed))
    (hbyte : FieldVerb.mnemonics.lookup (extending ++ "b") = some (.extend signed 8))
    (hhalf : FieldVerb.mnemonics.lookup (extending ++ "h") = some (.extend signed 16))
    (hword : FieldVerb.mnemonics.lookup (extending ++ "w") = some (.extend signed 32))
    (hextracting : FieldVerb.mnemonics.lookup extracting = some (.extract signed))
    (hr : r < n) (hs : s + 1 < n) :
    ∃ l verb numbers,
      (if (s : Int) < r then .ok ⟨placing, rd :: rn :: insertedField n (.int r) (.int s)⟩
        else
          match extension? (.int r) (.int s) with
          | some suffix => .ok ⟨extending ++ suffix, [rd, rn]⟩
          | none => .ok ⟨extracting, rd :: rn :: extractedField (.int r) (.int s)⟩ :
        Except LayoutFault Layout) = .ok l ∧
      l.Denotes (n := n) rd rn ((BitfieldOp.extending signed).apply r s) verb numbers := by
  by_cases hbounds : s < r
  · rw [if_pos (Int.ofNat_lt.2 hbounds), insertedField_eq hr.le]
    exact ⟨_, _, _, rfl, denotes_of_value hplacing (by simp) fun x d ↦
      FieldVerb.value?_place x d signed hbounds hr⟩
  · rw [if_neg (by omega)]
    cases hextension : extension? (.int r) (.int s) with
    | none =>
      rw [extractedField_eq (Nat.not_lt.1 hbounds)]
      exact ⟨_, _, _, rfl, denotes_of_value hextracting (by simp) fun x d ↦
        FieldVerb.value?_extract x d signed (by omega) (by omega)⟩
    | some suffix =>
      obtain ⟨hzero, hlast⟩ := extension?_cases hextension
      obtain rfl : r = 0 := by omega
      rcases hlast with ⟨hlast, rfl⟩ | ⟨hlast, rfl⟩ | ⟨hlast, rfl⟩
      · obtain rfl : s = 7 := by omega
        exact ⟨_, _, [], rfl, denotes_of_value hbyte (by simp) fun x d ↦
          FieldVerb.value?_extend x d signed hs⟩
      · obtain rfl : s = 15 := by omega
        exact ⟨_, _, [], rfl, denotes_of_value hhalf (by simp) fun x d ↦
          FieldVerb.value?_extend x d signed hs⟩
      · obtain rfl : s = 31 := by omega
        exact ⟨_, _, [], rfl, denotes_of_value hword (by simp) fun x d ↦
          FieldVerb.value?_extend x d signed hs⟩

namespace Instruction.HasForm

variable {i : Instruction} {rd rn : Register} {immr imms : Immediate} {size : Int}

/-- What a bitfield move is laid out as denotes what it does. -/
theorem denotes_bitfield {op : BitfieldOp} (hF : i.HasForm (.bitfield op rd rn immr imms))
    (h : i.hasIntegers = true) (hsize : rd.size = .int size)
    (hr : immr.value < registerBits (.int size)) (hs : imms.value < registerBits (.int size)) :
    ∃ l verb numbers, Layout.bitfield i = .ok l ∧
      l.Denotes (n := registerBits (.int size)) rd rn (op.apply immr.value imms.value) verb
        numbers := by
  have hop := hF.opcode
  have hos := hF.operands
  simp only [Form.opcode, Form.operands] at hop hos
  have himmr : immr.given = .int immr.value :=
    Immediate.given_eq_value (i.immediate_hasIntegers h (by simp [hos]))
  have himms : imms.given = .int imms.value :=
    Immediate.given_eq_value (i.immediate_hasIntegers h (by simp [hos]))
  simp only [Layout.bitfield, hop, hos, hsize, Json.toNumber?, himmr, himms]
  generalize registerBits (.int size) = n at *
  generalize immr.value = r at *
  generalize imms.value = s at *
  simp only [Number.less_int, Number.equals_int, Number.add_int, Number.sub_int,
    decide_eq_true_eq]
  cases op with
  | bfm =>
    by_cases hbounds : s < r
    · simp only [Int.ofNat_lt.2 hbounds, if_true, Layout.insertedField_eq hr.le]
      cases hzero : rn.isZero with
      | true =>
        refine ⟨_, .clear, _, rfl, rfl, rfl, fun _ ↦ hzero, fun x d hx ↦ ?_⟩
        rw [hx rfl]
        exact FieldVerb.value?_clear 0 d hbounds hr
      | false =>
        exact ⟨_, .insert, _, rfl, Layout.denotes_of_value rfl (by decide) fun x d ↦
          FieldVerb.value?_insert x d hbounds hr⟩
    · have hless : ¬ (s : Int) < r := by omega
      simp only [hless, if_false, Layout.extractedField_eq (Nat.not_lt.1 hbounds)]
      exact ⟨_, .insertLow, _, rfl, Layout.denotes_of_value rfl (by decide) fun x d ↦
        FieldVerb.value?_insertLow x d (by omega) hs⟩
  | sbfm =>
    by_cases hfull : (s : Int) = n - 1
    · obtain rfl : s = n - 1 := by omega
      simp only [hfull, if_true]
      exact ⟨_, .shiftRight true, [r], rfl, Layout.denotes_of_value rfl (by decide) fun x d ↦
        FieldVerb.value?_shiftRight x d true hr⟩
    · simp only [hfull, if_false]
      exact Layout.denotes_extending true rfl rfl rfl rfl rfl hr (by omega)
  | ubfm =>
    by_cases hfull : (s : Int) = n - 1
    · obtain rfl : s = n - 1 := by omega
      simp only [hfull, decide_true, Bool.not_true, Bool.false_and, Bool.false_eq_true, if_true,
        if_false]
      exact ⟨_, .shiftRight false, [r], rfl, Layout.denotes_of_value rfl (by decide) fun x d ↦
        FieldVerb.value?_shiftRight x d false hr⟩
    · simp only [hfull, decide_false, Bool.not_false, Bool.true_and, if_false, decide_eq_true_eq]
      by_cases hnext : (s : Int) + 1 = r
      · obtain rfl : r = s + 1 := by omega
        have hshown : (n : Int) - (s + 1 : Nat) = (n - (s + 1) : Nat) := (Int.ofNat_sub hr.le).symm
        rw [if_pos hnext, hshown]
        exact ⟨_, .shiftLeft, [n - (s + 1)], rfl, Layout.denotes_of_value rfl (by decide) fun x d ↦
          FieldVerb.value?_shiftLeft x d hr⟩
      · rw [if_neg hnext]
        exact Layout.denotes_extending false rfl rfl rfl rfl rfl hr (by omega)

end Instruction.HasForm

/-! ### What is printed -/

namespace Line

/-- The names that stand alone in a line. -/
def names (l : Line) : List String :=
  l.operands.filterMap fun
    | .term ⟨some name, none⟩ => some name
    | _ => none

/-- The numbers that stand alone in a line. -/
def numbers (l : Line) : List Int :=
  l.operands.filterMap fun
    | .term ⟨none, some k⟩ => some k
    | _ => none

/-- The value that a line says to make, by its mnemonic and its numbers, from a source `x` and an
old destination `d`. -/
def fieldValue? (l : Line) (x d : BitVec n) : Option (BitVec n) :=
  (FieldVerb.mnemonics.lookup l.mnemonic).bind fun verb ↦
    (l.numbers.mapM Int.toNat?).bind (verb.value? x d)

/-- A line of registers and numbers. -/
def ofField (m : String) (rs : List Register) (numbers : List Nat) : Line :=
  ⟨m, (rs.map Register.reading ++ numbers.map fun k ↦ ⟨none, some (k : Int)⟩ : List Term).map .term⟩

@[simp] theorem mnemonic_ofField (m : String) (rs : List Register) (numbers : List Nat) :
    (ofField m rs numbers).mnemonic = m := rfl

theorem names_ofField (m : String) (rs : List Register) (numbers : List Nat) :
    (ofField m rs numbers).names = rs.map Register.text := by
  simp [names, ofField, Register.reading, List.filterMap_append, Function.comp_def]

theorem numbers_ofField (m : String) (rs : List Register) (numbers : List Nat) :
    (ofField m rs numbers).numbers = numbers.map Int.ofNat := by
  simp [Line.numbers, ofField, Register.reading, List.filterMap_append, Function.comp_def]

end Line

/-- A layout of registers and numbers is read as the line of them. -/
theorem Layout.reading_field {l : Layout} {rs : List Register} {numbers : List Nat}
    (hparts : l.parts = (rs.map fun r ↦ .operand (.register r)) ++ numbers.map Part.natural) :
    (⟨l.mnemonic, fuseItems (l.parts.flatMap Part.reading)⟩ : Line) =
      .ofField l.mnemonic rs numbers := by
  rw [ofField, hparts]
  congr 1
  refine Part.ReadsAlone.fuseItems_readings (List.rel_append ?_ ?_)
  · simp [List.forall₂_same, Part.readsAlone_register]
  · simp [List.forall₂_same, Part.natural, Part.readsAlone_decimal]

/-- Natural numbers are read back from the numbers of a line. -/
theorem Meaning.mapM_toNat? (numbers : List Nat) :
    (numbers.map Int.ofNat).mapM Int.toNat? = some numbers := by
  induction numbers with
  | nil => rfl
  | cons k ks ih =>
    rw [List.map_cons, List.mapM_cons, ih]
    rfl

/-- Only one mnemonic clears a field. -/
theorem Meaning.FieldVerb.eq_clear_iff {m : String} {verb : FieldVerb}
    (h : mnemonics.lookup m = some verb) : m = "bfc" ↔ verb = .clear := by
  have hall : ∀ entry ∈ mnemonics, entry.1 = "bfc" ↔ entry.2 = .clear := by decide
  obtain ⟨before, behind, hentries, -⟩ := List.lookup_eq_some_iff.1 h
  exact hall (m, verb) (by simp [hentries])

variable {i : Instruction} {op : BitfieldOp} {rd rn : Register} {immr imms : Immediate}

/-- **The aliases of a bitfield move keep its meaning.** A bitfield move with bounds inside the word
prints a line that shows the destination, and the source unless that is the zero register and a
field is cleared. The value that the line says to make, by its mnemonic and its numbers, is the one
that the move makes by its masks, for every source and every old destination. -/
theorem Instruction.bitfield_value_of_text {k size : Int} (h : i.hasIntegers = true)
    (hk : i.operation.integer? = some k) (hF : i.HasForm (.bitfield op rd rn immr imms))
    (hsize : rd.size = .int size) (hr : immr.value < registerBits (.int size))
    (hs : imms.value < registerBits (.int size)) :
    ∃ s line, i.text = .ok s ∧ Line.read s = .ok line ∧
      line.names = (if line.mnemonic = "bfc" then [rd.text] else [rd.text, rn.text]) ∧
      (line.mnemonic = "bfc" → rn.isZero = true) ∧
      ∀ x d : BitVec (registerBits (.int size)), (line.mnemonic = "bfc" → x = 0) →
        line.fieldValue? x d = some (op.apply immr.value imms.value x d) := by
  obtain ⟨l, verb, numbers, hl, hdenotes⟩ := hF.denotes_bitfield h hsize hr hs
  have hfamily : i.operation.family? = some .bitfield :=
    Operation.family?_of_opcode? hk hF.opcode
  obtain ⟨hnaturals, hfirst⟩ := hF.plain
  have hread := Family.read_of_layout (f := .bitfield) h hnaturals hfirst
    (Operation.isKey_of_integer? hk) hl
  rw [if_neg (by rw [hF.opcode]; simp), Layout.reading_field hdenotes.parts] at hread
  have hclear := FieldVerb.eq_clear_iff hdenotes.mnemonic
  refine ⟨l.text, _, text_of_layout h hfamily hl, hread, ?_, ?_, fun x d hx ↦ ?_⟩
  · rw [names_ofField, mnemonic_ofField]
    by_cases hverb : verb = .clear
    · rw [if_pos hverb, if_pos (hclear.2 hverb)]
      rfl
    · rw [if_neg hverb, if_neg fun hm ↦ hverb (hclear.1 hm)]
      rfl
  · exact fun hm ↦ hdenotes.source (hclear.1 hm)
  · rw [fieldValue?, mnemonic_ofField, hdenotes.mnemonic, numbers_ofField, mapM_toNat?]
    exact hdenotes.value x d fun hverb ↦ hx (hclear.2 hverb)

/-- A move of a field of the zero register into the upper part of another one. -/
def clearedField : Instruction where
  operation := .named (.bitfield .bfm)
  operands := [.register ⟨1, .int 32⟩, .register ⟨31, .int 64⟩,
    .immediate (.ofNats 20 6 (by decide) (by decide)),
    .immediate (.ofNats 19 6 (by decide) (by decide))]

/-- Twenty bits at the top of a word are cleared. -/
theorem Instruction.bitfield_value_of_text_cleared :
    clearedField.text = .ok "bfc w1, #12, #20" ∧
      ∃ line, Line.read "bfc w1, #12, #20" = .ok line ∧ line.names = ["w1"] ∧
        ∀ d : BitVec 32, line.fieldValue? 0 d = some (BitfieldOp.bfm.apply 20 19 0 d) := by
  have htext : clearedField.text = .ok "bfc w1, #12, #20" := by decide +kernel
  have hmnemonic : (Line.read "bfc w1, #12, #20").map mnemonic = .ok "bfc" := by decide +kernel
  obtain ⟨s, line, hs, hread, hnames, -, hvalue⟩ := bitfield_value_of_text
    (i := clearedField) rfl rfl ⟨rfl, rfl⟩ rfl (by decide) (by decide)
  obtain rfl : s = "bfc w1, #12, #20" := Except.ok.inj (hs.symm.trans htext)
  rw [hread] at hmnemonic
  have hbfc : line.mnemonic = "bfc" := Except.ok.inj hmnemonic
  rw [if_pos hbfc] at hnames
  exact ⟨htext, line, hread, hnames.trans (by decide +kernel), fun d ↦ hvalue 0 d fun _ ↦ rfl⟩

end A64Text
