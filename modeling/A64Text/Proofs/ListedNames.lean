import A64Text.Proofs.Line.Words
import A64Text.Proofs.OpcodeFamily

/-!
# Listed names

What has a fixed set of values is listed under names in capitals: a capital letter first, and then
capital letters, digits and underscores (`Text.isListedName`). A text in capitals comes back from
its lower-case form (`Text.upperName_lowerAscii`), and the lower-case form of a listed name is a
mnemonic (`Text.isMnemonic_lowerAscii`).
-/

namespace A64Text

namespace Text

open Line.Lexeme

/-! ### Letters of names -/

/-- A character of listed names. -/
def isNameChar (c : Char) : Bool := c.isUpper || c.isDigit || c = '_'

/-- The characters of names are ASCII, so what holds of the ASCII ones holds of all. -/
@[elab_as_elim] theorem forall_isNameChar {p : Char → Prop}
    (h : ∀ n < 0x80, isNameChar (Char.ofNat n) = true → p (Char.ofNat n)) {c : Char}
    (hc : isNameChar c = true) : p c := by
  have hlt : c.toNat < 0x80 := by
    have hcases : (c.isUpper = true ∨ c.isDigit = true) ∨ c = '_' := by
      simpa [isNameChar] using hc
    rw [isUpper_iff, Char.isDigit_iff_toNat] at hcases
    rcases hcases with (hupper | hdigit) | rfl
    · exact Nat.lt_of_le_of_lt hupper.2 (by decide)
    · exact Nat.lt_of_le_of_lt hdigit.2 (by decide)
    · decide
  have hchar := h c.toNat hlt
  rw [Char.ofNat_toNat] at hchar
  exact hchar hc

/-- A character inside a word that is no capital letter. -/
def isLowerPart (c : Char) : Bool := isWordPart c && c.toLower = c

/-- The lower-case of a character of names can stand inside a word, and starts one if it was a
letter. Lower-case and upper-case cancel. -/
theorem toLower_nameChar {c : Char} (hc : isNameChar c = true) :
    isLowerPart c.toLower = true ∧ (c.isUpper = true → isWordStart c.toLower = true) ∧
      upperChar c.toLower = [c] := by
  refine forall_isNameChar ?_ hc
  decide

/-! ### Names in capitals -/

/-- A name as the lists have it: a capital letter, and then characters of names. -/
def isListedName (s : String) : Bool :=
  match s.toList with
  | c :: cs => c.isUpper && cs.all isNameChar
  | [] => false

theorem exists_cons_of_isListedName {s : String} (h : isListedName s = true) :
    ∃ c cs, s.toList = c :: cs ∧ c.isUpper = true ∧ ∀ d ∈ c :: cs, isNameChar d = true := by
  rw [isListedName] at h
  split at h
  · rename_i c cs hs
    obtain ⟨hc, hcs⟩ := Bool.and_eq_true_iff.1 h
    refine ⟨c, cs, hs, hc, List.forall_mem_cons.2 ⟨?_, List.all_eq_true.1 hcs⟩⟩
    simp [isNameChar, hc]
  · cases h

theorem isNameChar_of_mem {s : String} (h : isListedName s = true) {c : Char}
    (hc : c ∈ s.toList) : isNameChar c = true := by
  obtain ⟨d, cs, hs, -, hall⟩ := exists_cons_of_isListedName h
  exact hall c (hs ▸ hc)

/-- A listed name comes back from its lower-case form. -/
theorem upperName_lowerAscii {s : String} (h : isListedName s = true) :
    upperName (lowerAscii s) = s := by
  have hchars : ∀ cs : List Char, (∀ c ∈ cs, isNameChar c = true) →
      (cs.map Char.toLower).flatMap upperChar = cs := by
    intro cs hcs
    induction cs with
    | nil => rfl
    | cons c cs ih =>
      obtain ⟨hc, hcs⟩ := List.forall_mem_cons.1 hcs
      rw [List.map_cons, List.flatMap_cons, ih hcs, (toLower_nameChar hc).2.2]
      rfl
  rw [upperName, lowerAscii, String.toList_ofList, hchars _ fun _ ↦ isNameChar_of_mem h,
    String.ofList_toList]

/-- A listed name in lower-case is a mnemonic, and so it is with letters in lower-case added. -/
theorem isMnemonic_lowerAscii_append {s suffix : String} (h : isListedName s = true)
    (hsuffix : suffix.toList.all isLowerPart = true) : IsMnemonic (lowerAscii s ++ suffix) := by
  obtain ⟨c, cs, hs, hc, hall⟩ := exists_cons_of_isListedName h
  have hlist : (lowerAscii s ++ suffix).toList = (c :: cs).map Char.toLower ++ suffix.toList := by
    rw [String.toList_append, lowerAscii, String.toList_ofList, hs]
  have hlower : ∀ d ∈ (c :: cs).map Char.toLower ++ suffix.toList,
      isWordPart d = true ∧ d.toLower = d := by
    intro d hd
    have hpart : isLowerPart d = true := by
      rcases List.mem_append.1 hd with hd | hd
      · obtain ⟨e, he, rfl⟩ := List.mem_map.1 hd
        exact (toLower_nameChar (hall e he)).1
      · exact List.all_eq_true.1 hsuffix d hd
    simpa [isLowerPart] using hpart
  constructor
  · rw [hlist]
    have hstart := (toLower_nameChar (hall c List.mem_cons_self)).2.1 hc
    exact isWord_cons hstart fun d hd ↦ (hlower d (List.mem_cons_of_mem _ hd)).1
  · rw [Line.normalMnemonic, hlist, List.map_congr_left fun d hd ↦ (hlower d hd).2, List.map_id',
      ← hlist, String.ofList_toList]

theorem isMnemonic_lowerAscii {s : String} (h : isListedName s = true) :
    IsMnemonic (lowerAscii s) := by
  have hempty : IsMnemonic (lowerAscii s ++ "") := isMnemonic_lowerAscii_append h (by simp)
  rwa [String.append_empty] at hempty

end Text

/-! ### Opcodes -/

namespace Opcode

theorem isListedName_name (op : Opcode) : Text.isListedName op.name = true := by
  have hall : ∀ op ∈ all, Text.isListedName op.name = true := by decide +kernel
  exact hall op op.mem_all

/-- The name of an opcode in lower-case is a mnemonic. -/
theorem isMnemonic_name (op : Opcode) : IsMnemonic (Text.lowerAscii op.name) :=
  Text.isMnemonic_lowerAscii op.isListedName_name

end Opcode

end A64Text
