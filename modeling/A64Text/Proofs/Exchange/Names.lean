import A64Text.Exchange.Encode
import A64Text.Proofs.Json.Spelling
import A64Text.Proofs.ListedNames

/-!
# Names that are written

A listed name is written in lower-case and looked up in upper-case. Listed names consist of capital
letters, digits and underscores, so the two cancel (`Text.upperName_lowerAscii`), and since no two
entries of a list share a name, each entry is found by the name that is written for it. What is
written is plain text.
-/

namespace A64Text

/-- The lower-case form of a listed name is plain. -/
theorem Text.isPlainText_lowerAscii {s : String} (h : isListedName s = true) :
    Json.isPlainText (lowerAscii s) = true := by
  rw [Json.isPlainText, lowerAscii, String.toList_ofList, List.all_map]
  refine List.all_eq_true.2 ?_
  intro c hc
  show Json.isPlainChar c.toLower = true
  refine forall_isNameChar ?_ (isNameChar_of_mem h hc)
  decide

/-! ### Lists of names -/

namespace Opcode

/-- An opcode is found by its written name. -/
theorem ofName?_lowerAscii (op : Opcode) : ofName? (Text.lowerAscii op.name) = some op := by
  rw [ofName?, Text.upperName_lowerAscii op.isListedName_name]
  exact find?_key nodup_names op.mem_all

theorem isPlainText_name (op : Opcode) : Json.isPlainText (Text.lowerAscii op.name) = true :=
  Text.isPlainText_lowerAscii op.isListedName_name

end Opcode

namespace Condition

theorem mem_all (c : Condition) : c ∈ all := by cases c <;> decide

theorem isListedName_name (c : Condition) : Text.isListedName c.name = true := by
  cases c <;> decide

/-- A condition is found by its written name; the synonyms are never written. -/
theorem ofName?_lowerAscii (c : Condition) : ofName? (Text.lowerAscii c.name) = some c := by
  have hnodup : (all.map name).Nodup := by decide
  rw [ofName?, Text.upperName_lowerAscii c.isListedName_name,
    find?_key hnodup c.mem_all]
  rfl

theorem isPlainText_name (c : Condition) : Json.isPlainText (Text.lowerAscii c.name) = true :=
  Text.isPlainText_lowerAscii c.isListedName_name

end Condition

/-- A register is found by its written name. -/
theorem Register.numberOf?_lowerAscii {number : Int} {name : String}
    (h : nameOf? number = some name) :
    numberOf? (Text.lowerAscii name) = some number.toNat ∧ 0 ≤ number ∧
      Json.isPlainText (Text.lowerAscii name) = true := by
  have hnames : names.Nodup ∧ ∀ s ∈ names, Text.isListedName s = true := by decide +kernel
  obtain ⟨hnodup, hlisted⟩ := hnames
  rw [nameOf?] at h
  split at h
  · rename_i hnonneg
    have hmem := List.mem_of_getElem? h
    obtain ⟨hlt, rfl⟩ := List.getElem?_eq_some_iff.1 h
    refine ⟨?_, hnonneg, Text.isPlainText_lowerAscii (hlisted _ hmem)⟩
    rw [numberOf?, Text.upperName_lowerAscii (hlisted _ hmem), List.idxOf?_eq_some_iff]
    refine ⟨hlt, rfl, fun k hk heq ↦ ?_⟩
    exact Nat.ne_of_lt hk ((List.getElem_inj hnodup).1 heq)
  · cases h

/-- A listed kind of shift is found by its written keyword. -/
theorem ShiftKind.ofName?_lowerAscii {k : ShiftKind} (h : k.isListed = true) :
    ofName? (Text.lowerAscii k.keyword) = some k ∧
      Json.isPlainText (Text.lowerAscii k.keyword) = true := by
  have hlisted : ∀ k ∈ listed, ofName? (Text.lowerAscii k.keyword) = some k ∧
      Json.isPlainText (Text.lowerAscii k.keyword) = true := by
    decide
  refine hlisted k ?_
  cases k with
  | unlisted name => cases h
  | _ => decide

/-- A listed kind of extend is found by its written keyword. -/
theorem ExtendKind.ofName?_lowerAscii {k : ExtendKind} (h : k.isListed = true) :
    ofName? (Text.lowerAscii k.keyword) = some k ∧
      Json.isPlainText (Text.lowerAscii k.keyword) = true := by
  have hlisted : ∀ k ∈ listed, ofName? (Text.lowerAscii k.keyword) = some k ∧
      Json.isPlainText (Text.lowerAscii k.keyword) = true := by
    decide
  refine hlisted k ?_
  cases k with
  | unlisted name => cases h
  | _ => decide

/-- A listed system register is found by its written name. -/
theorem SystemRegisterName.ofName?_lowerAscii {n : SystemRegisterName} (h : n.isListed = true) :
    ofName? (Text.lowerAscii n.spelling) = some n ∧
      Json.isPlainText (Text.lowerAscii n.spelling) = true := by
  have hlisted : ∀ n ∈ listed, ofName? (Text.lowerAscii n.spelling) = some n ∧
      Json.isPlainText (Text.lowerAscii n.spelling) = true := by
    decide
  refine hlisted n ?_
  cases n with
  | unlisted name => cases h
  | _ => decide

end A64Text
