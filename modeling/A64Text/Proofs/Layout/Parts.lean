import A64Text.Layout.Family
import A64Text.Proofs.ListedNames

/-!
# What a layout arranges

Whatever the fields of an instruction hold, a layout of it shows operands of the instruction, and
numbers and words between them (`Layout.Arranges`). A modifier comes first only if it was the first
operand, addresses come in the order in which they were given, and mnemonics and words start with a
letter (`Text.startsWord`), which no placeholder does.

This is less than what a layout is known to derive from, and it needs no integers in the fields.
There is one lemma for each family, and `Family.arranges` collects them.
-/

namespace A64Text

open Line

/-! ### Texts that start with a letter -/

namespace Text

/-- Whether a text starts as a word does. -/
def startsWord (s : String) : Bool := s.toList.head?.any Lexeme.isWordStart

theorem startsWord_append {s : String} (h : startsWord s = true) (t : String) :
    startsWord (s ++ t) = true := by
  cases hs : s.toList with
  | nil => simp [startsWord, hs] at h
  | cons c cs => simpa [startsWord, hs] using h

theorem startsWord_lowerAscii {s : String} (h : isListedName s = true) :
    startsWord (lowerAscii s) = true := by
  obtain ⟨c, cs, hs, hc, hall⟩ := exists_cons_of_isListedName h
  have hstart := (toLower_nameChar (hall c List.mem_cons_self)).2.1 hc
  simp [startsWord, lowerAscii, hs, hstart]

end Text

open Text

theorem Opcode.startsWord_name (op : Opcode) : startsWord (lowerAscii op.name) = true :=
  startsWord_lowerAscii op.isListedName_name

theorem Condition.startsWord_text (c : Condition) : startsWord c.text = true := by
  cases c <;> decide

/-! ### What is shown -/

/-- The indexing mode of an operand that is an address. -/
def Operand.indexing? : Operand → Option Indexing
  | immediateOffset a => some a.indexing
  | registerOffset a => some a.indexing
  | _ => none

/-- The indexing mode of a part that is an address. -/
def Part.indexing? : Part → Option Indexing
  | operand o => o.indexing?
  | _ => none

/-- A part that is an operand of the instruction, a number, or a word that starts with a letter. -/
def Part.StemsFrom (i : Instruction) : Part → Prop
  | operand o => o ∈ i.operands ∨ o.kind = .immediate
  | signed _ | decimal _ => True
  | word s => startsWord s = true

namespace Part

variable {i : Instruction}

@[simp] theorem stemsFrom_operand {o : Operand} :
    StemsFrom i (.operand o) ↔ o ∈ i.operands ∨ o.kind = .immediate :=
  Iff.rfl

@[simp] theorem stemsFrom_signed (imm : Immediate) : StemsFrom i (.signed imm) := trivial

@[simp] theorem stemsFrom_decimal (n : Number) : StemsFrom i (.decimal n) := trivial

@[simp] theorem stemsFrom_word {s : String} : StemsFrom i (.word s) ↔ startsWord s = true :=
  Iff.rfl

@[simp] theorem stemsFrom_condition (c : Condition) : c.part.StemsFrom i := c.startsWord_text

end Part

/-- A layout that shows operands of an instruction, and numbers and words between them. -/
structure Layout.Arranges (i : Instruction) (l : Layout) : Prop where
  mnemonic : startsWord l.mnemonic = true
  parts : ∀ p ∈ l.parts, p.StemsFrom i
  /-- Only a first operand that is a modifier comes first as one. -/
  head : l.parts.head?.any Part.attaches = true → i.operands.head?.any Operand.isModifier = true
  /-- No address is shown twice, and none before one that was given earlier. -/
  addresses : (l.parts.filterMap Part.indexing?).Sublist (i.operands.filterMap Operand.indexing?)

variable {i : Instruction} {l : Layout}

namespace Layout

variable {m : String}

theorem arranges_nil (h : startsWord m = true) : Arranges i ⟨m, []⟩ :=
  ⟨h, by simp, by simp, by simp⟩

/-- Addresses among operands that are shown as they are. -/
theorem addresses_of_sublist {os : List Operand} (h : os.Sublist i.operands) :
    ((os.map Part.operand).filterMap Part.indexing?).Sublist
      (i.operands.filterMap Operand.indexing?) := by
  rw [List.filterMap_map]
  exact h.filterMap _

/-- A layout that shows all operands as they are. -/
theorem arranges_operands (h : startsWord m = true) :
    Arranges i ⟨m, i.operands.map Part.operand⟩ := by
  refine ⟨h, fun p hp ↦ ?_, fun hhead ↦ ?_, ?_⟩
  · obtain ⟨o, ho, rfl⟩ := List.mem_map.1 hp
    exact .inl ho
  · cases hos : i.operands with
    | nil => simp [hos] at hhead
    | cons o rest => simpa [hos, Part.attaches] using hhead
  · exact addresses_of_sublist (List.Sublist.refl _)

/-- A layout whose first part brings no comma. -/
theorem arranges_cons {p : Part} {ps : List Part} (h : startsWord m = true)
    (hp : p.attaches = false) (hparts : ∀ q ∈ p :: ps, q.StemsFrom i)
    (haddresses : ((p :: ps).filterMap Part.indexing?).Sublist
      (i.operands.filterMap Operand.indexing?)) : Arranges i ⟨m, p :: ps⟩ := by
  refine ⟨h, hparts, fun hhead ↦ ?_, haddresses⟩
  simp [hp] at hhead

/-- A layout that shows no address, and whose first part brings no comma. -/
theorem arranges_plain {p : Part} {ps : List Part} (h : startsWord m = true)
    (hp : p.attaches = false) (hparts : ∀ q ∈ p :: ps, q.StemsFrom i)
    (hplain : (p :: ps).filterMap Part.indexing? = []) : Arranges i ⟨m, p :: ps⟩ :=
  arranges_cons h hp hparts (hplain ▸ List.nil_sublist _)

end Layout

/-! ### Named fields -/

/-- A part that shows a field of an encoding, as a number or as a word. -/
def Part.IsField (p : Part) : Prop :=
  (∃ n, p = .decimal n) ∨ ∃ s, p = .word s ∧ startsWord s = true

theorem mem_of_entryAt? {α : Type} {xs : List α} {index : Int} {a : α}
    (h : entryAt? xs index = some a) : a ∈ xs := by
  unfold entryAt? at h
  split at h
  · exact List.mem_of_getElem? h
  · split at h
    · exact List.mem_of_getElem? h
    · cases h

theorem Barrier.isField_part {option : Number} {p : Part} (h : part option = .ok p) :
    p.IsField := by
  unfold part at h
  split at h
  · cases h
  · split at h
    · rename_i access haccess
      split at h
      · cases h
        exact .inl ⟨_, rfl⟩
      · split at h
        · rename_i domain hdomain
          cases h
          have htable : ∀ d ∈ domains, ∀ a ∈ ["ld", "st"], startsWord (d ++ a) = true := by decide
          refine .inr ⟨_, rfl, htable domain (mem_of_entryAt? hdomain) access ?_⟩
          unfold access? at haccess
          split at haccess <;> cases haccess <;> decide
        · cases h
    · cases h
      exact .inl ⟨_, rfl⟩

theorem Prefetch.isField_part {operation : Number} {p : Part} (h : part operation = .ok p) :
    p.IsField := by
  unfold part at h
  split at h
  · cases h
  · dsimp only at h
    split at h
    · cases h
      exact .inl ⟨_, rfl⟩
    · split at h
      · rename_i type target htype htarget
        cases h
        refine .inr ⟨_, rfl, startsWord_append (startsWord_append ?_ _) _⟩
        unfold type? at htype
        split at htype <;> cases htype <;> decide
      · cases h
        exact .inl ⟨_, rfl⟩

/-- A layout that shows a field of an encoding in front of parts that are shown as they are. -/
theorem Layout.arranges_field {field : Except LayoutFault Part} {m : String} {ps : List Part}
    (hm : startsWord m = true) (hfield : ∀ p, field = .ok p → p.IsField)
    (hparts : ∀ q ∈ ps, q.StemsFrom i)
    (haddresses : (ps.filterMap Part.indexing?).Sublist (i.operands.filterMap Operand.indexing?))
    (h : (field.map fun p ↦ (⟨m, p :: ps⟩ : Layout)) = .ok l) : l.Arranges i := by
  cases field with
  | error fault => cases h
  | ok p =>
    cases h
    rcases hfield p rfl with ⟨n, rfl⟩ | ⟨s, rfl, hs⟩
    · exact arranges_cons hm rfl (List.forall_mem_cons.2 ⟨trivial, hparts⟩) haddresses
    · exact arranges_cons hm rfl (List.forall_mem_cons.2 ⟨hs, hparts⟩) haddresses

/-! ### Data processing with immediates -/

namespace Layout

theorem arranges_pcRelativeAddressing (h : pcRelativeAddressing i = .ok l) : l.Arranges i := by
  unfold pcRelativeAddressing at h
  (repeat' split at h) <;> cases h <;> exact arranges_plain (by decide) rfl (by simp [*]) rfl

theorem arranges_addSubtractImmediate (h : addSubtractImmediate i = .ok l) : l.Arranges i := by
  unfold addSubtractImmediate at h
  (repeat' split at h) <;> cases h <;>
    exact arranges_plain (by first | decide | exact startsWord_append (by decide) _) rfl
      (by simp [*]) rfl

theorem arranges_logicalImmediate (h : logicalImmediate i = .ok l) : l.Arranges i := by
  unfold logicalImmediate at h
  (repeat' split at h) <;> cases h <;> exact arranges_plain (by decide) rfl (by simp [*]) rfl

theorem arranges_moveWideImmediate (h : moveWideImmediate i = .ok l) : l.Arranges i := by
  unfold moveWideImmediate at h
  split at h
  · rename_i rd imm s hos
    split at h
    · cases h
    · dsimp only at h
      have hmov : ∀ {r : Except LayoutFault Nat} {g : Nat → Immediate},
          (r.map fun value ↦ (⟨"mov", [rd, g value]⟩ : Layout)) = .ok l → l.Arranges i := by
        intro r g h
        cases r with
        | error fault => cases h
        | ok value =>
          cases h
          exact arranges_plain (by decide) rfl (by simp [hos, Operand.kind]) rfl
      split at h
      · split at h
        · cases h
          exact arranges_plain (by decide) rfl (by simp [hos, Operand.kind]) rfl
        · cases h
      · exact hmov h
      · exact hmov h
      · cases h
  · cases h

theorem arranges_bitfield (h : bitfield i = .ok l) : l.Arranges i := by
  unfold bitfield insertedField extractedField at h
  dsimp only at h
  (repeat' split at h) <;> cases h <;>
    exact arranges_plain (by first | decide | exact startsWord_append (by decide) _) rfl
      (by simp [*]) rfl

theorem arranges_extract (h : extract i = .ok l) : l.Arranges i := by
  unfold extract at h
  (repeat' split at h) <;> cases h <;> exact arranges_plain (by decide) rfl (by simp [*]) rfl

/-! ### Branches and exceptions -/

theorem arranges_conditionalBranch (h : conditionalBranch i = .ok l) : l.Arranges i := by
  unfold conditionalBranch at h
  (repeat' split at h) <;> cases h
  exact arranges_plain (startsWord_append (by decide) _) rfl (by simp) rfl

theorem arranges_branchImmediate (h : branchImmediate i = .ok l) : l.Arranges i := by
  unfold branchImmediate at h
  (repeat' split at h) <;> cases h <;> exact arranges_plain (by decide) rfl (by simp) rfl

theorem arranges_compareAndBranch (h : compareAndBranch i = .ok l) : l.Arranges i := by
  unfold compareAndBranch at h
  (repeat' split at h) <;> cases h <;> exact arranges_plain (by decide) rfl (by simp [*]) rfl

theorem arranges_testAndBranch (h : testAndBranch i = .ok l) : l.Arranges i := by
  unfold testAndBranch at h
  (repeat' split at h) <;> cases h <;> exact arranges_plain (by decide) rfl (by simp [*]) rfl

theorem arranges_exceptionGeneration (h : exceptionGeneration i = .ok l) : l.Arranges i := by
  unfold exceptionGeneration at h
  split at h
  · split at h
    · rename_i op hop
      cases h
      have hm : startsWord op.mnemonic = true := (Opcode.exceptionGeneration op).startsWord_name
      split
      · exact arranges_plain hm rfl (by simp) rfl
      · exact arranges_nil hm
    · cases h
  · cases h

/-- The first operand, if it is the register that a branch asks for. -/
theorem mem_of_firstRegister {r : Register} (h : firstRegister i = .ok r) :
    .register r ∈ i.operands := by
  unfold firstRegister at h
  split at h
  · rename_i hos
    cases h
    simp [hos]
  · cases h
  · cases h

theorem arranges_branchRegister (h : branchRegister i = .ok l) : l.Arranges i := by
  unfold branchRegister at h
  split at h
  · rename_i op hop
    have hm : startsWord op.mnemonic = true := (Opcode.branchRegister op).startsWord_name
    split at h
    · cases h
      exact arranges_nil hm
    · split at h
      · rename_i rn _ hrn hos
        cases h
        exact arranges_plain hm rfl (by simp [mem_of_firstRegister hrn]) rfl
      · cases h
      · cases h
    · split at h
      · rename_i rn _ hrn hos
        cases h
        split
        · exact arranges_nil hm
        · exact arranges_plain hm rfl (by simp [mem_of_firstRegister hrn]) rfl
      · cases h
      · cases h
    · split at h
      · rename_i rn _ modifier hrn hos
        cases h
        have hmodifier : [modifier].Sublist i.operands := by
          rw [hos]
          exact (List.Sublist.refl _).cons _
        exact arranges_cons hm rfl
          (by simp [mem_of_firstRegister hrn, hmodifier.mem List.mem_cons_self])
          (addresses_of_sublist hmodifier)
      · cases h
      · cases h
  · (repeat' split at h) <;> cases h

/-! ### System instructions -/

theorem arranges_system (h : system i = .ok l) : l.Arranges i := by
  unfold system at h
  split at h
  · rename_i op hop
    have hm : startsWord op.mnemonic = true := by cases op <;> decide
    have hfield : ∀ s, startsWord ("C" ++ s) = true := fun s ↦ startsWord_append (by decide) s
    split at h
    · cases h
      exact arranges_nil hm
    · split at h
      · rename_i o hos
        cases h
        have harranges := arranges_operands (i := i) hm
        rwa [hos] at harranges
      · cases h
    · split at h
      · rename_i option hos
        exact arranges_field hm (fun _ ↦ Barrier.isField_part) (by simp) (by simp) h
      · cases h
    · split at h
      · cases h
        split
        · exact arranges_nil hm
        · exact arranges_plain hm rfl (by simp) rfl
      · cases h
    · split at h
      · rename_i op1 crn crm op2 rt hos
        cases h
        split <;> exact arranges_plain hm rfl (by simp [hos, Part.field, hfield]) rfl
      · cases h
    · split at h
      · rename_i rt op1 crn crm op2 hos
        cases h
        exact arranges_plain hm rfl (by simp [hos, systemFields, Part.field, hfield]) rfl
      · cases h
    · cases h
      exact arranges_operands hm
  · cases h

/-! ### Loads and stores -/

theorem arranges_loadStoreExclusive (h : loadStoreExclusive i = .ok l) : l.Arranges i := by
  unfold loadStoreExclusive at h
  split at h
  · rename_i op hop
    dsimp only at h
    split at h
    · cases h
      exact arranges_operands (startsWord_append (Opcode.loadStoreExclusive op).startsWord_name _)
    · cases h
    · cases h
  · cases h

theorem arranges_loadLiteral (h : loadLiteral i = .ok l) : l.Arranges i := by
  unfold loadLiteral at h
  split at h
  · rename_i first address hos
    dsimp only at h
    split at h
    · split at h
      · rename_i operation
        refine arranges_field (by decide) (fun _ ↦ Prefetch.isField_part) ?_ ?_ h
        · simp
        · exact List.nil_sublist _
      · cases h
    · split at h <;> cases h
      exact arranges_plain (by decide) rfl (by simp [hos]) rfl
    · split at h <;> cases h
      exact arranges_plain (by decide) rfl (by simp [hos]) rfl
    · cases h
  · cases h
  · cases h

theorem arranges_loadStorePair (h : loadStorePair i = .ok l) : l.Arranges i := by
  unfold loadStorePair at h
  (repeat' split at h) <;> cases h
  exact arranges_operands (Opcode.startsWord_name (.loadStorePair _))

theorem arranges_loadStore (h : loadStore i = .ok l) : l.Arranges i := by
  unfold loadStore at h
  split at h
  · rename_i first address hos
    split at h
    · rename_i size hsize
      split at h
      · split at h
        · rename_i operation
          have haddress : [address].Sublist i.operands := by
            rw [hos]
            exact (List.Sublist.refl _).cons _
          exact arranges_field (by decide) (fun _ ↦ Prefetch.isField_part) (by simp [hos])
            (addresses_of_sublist haddress) h
        · cases h
      · rename_i op _ _
        cases h
        have harranges := arranges_operands (i := i)
          (startsWord_append (Opcode.loadStore op).startsWord_name (op.sizeSuffix size))
        rwa [hos] at harranges
      · cases h
    · cases h
  · cases h

/-! ### Data processing with registers -/

theorem arranges_dataProcessingTwoSource (h : dataProcessingTwoSource i = .ok l) :
    l.Arranges i := by
  unfold dataProcessingTwoSource at h
  (repeat' split at h) <;> cases h
  exact arranges_operands (Opcode.startsWord_name (.dataProcessingTwoSource _))

theorem arranges_dataProcessingOneSource (h : dataProcessingOneSource i = .ok l) :
    l.Arranges i := by
  unfold dataProcessingOneSource at h
  split at h
  · split at h
    · rename_i op hop
      have hm : startsWord op.mnemonic = true := (Opcode.dataProcessingOneSource op).startsWord_name
      have hzero : ∀ m, op.form = .authenticated m → startsWord m = true := by
        cases op <;> simp [OneSourceOp.form] <;> decide
      (repeat' split at h) <;> cases h
      · exact arranges_plain hm rfl (by simp [*]) rfl
      · exact arranges_plain (hzero _ ‹_›) rfl (by simp [*]) rfl
      · exact arranges_plain hm rfl (by simp [*]) rfl
      · exact arranges_plain hm rfl (by simp [*]) rfl
    · cases h
  · cases h

theorem arranges_logicalShiftedRegister (h : logicalShiftedRegister i = .ok l) : l.Arranges i := by
  unfold logicalShiftedRegister at h
  (repeat' split at h) <;> cases h <;>
    exact arranges_plain (by first | decide | exact startsWord_append (by decide) _) rfl
      (by simp [*]) rfl

theorem arranges_addSubtractShiftedRegister (h : addSubtractShiftedRegister i = .ok l) :
    l.Arranges i := by
  unfold addSubtractShiftedRegister at h
  (repeat' split at h) <;> cases h <;>
    exact arranges_plain (by first | decide | exact startsWord_append (by decide) _) rfl
      (by simp [*]) rfl

theorem arranges_addSubtractExtendedRegister (h : addSubtractExtendedRegister i = .ok l) :
    l.Arranges i := by
  unfold addSubtractExtendedRegister at h
  (repeat' split at h) <;> cases h <;>
    exact arranges_plain (by first | decide | exact startsWord_append (by decide) _) rfl
      (by simp [*]) rfl

theorem arranges_addSubtractWithCarry (h : addSubtractWithCarry i = .ok l) : l.Arranges i := by
  unfold addSubtractWithCarry at h
  (repeat' split at h) <;> cases h <;>
    exact arranges_plain (startsWord_append (by decide) _) rfl (by simp [*]) rfl

theorem arranges_conditionalCompare (h : conditionalCompare i = .ok l) : l.Arranges i := by
  unfold conditionalCompare at h
  split at h
  · rename_i rn second third hos
    have hunchecked : [second, third].Sublist i.operands := by
      rw [hos]
      exact (List.Sublist.refl _).cons _
    have hparts : ∀ q ∈ [Part.operand (.register rn), .operand second, .operand third,
        i.conditionOf.part], q.StemsFrom i := by
      simp [hos]
    dsimp only at h
    (repeat' split at h) <;> cases h <;>
      exact arranges_cons (by decide) rfl hparts (addresses_of_sublist hunchecked)
  · cases h
  · cases h

theorem arranges_conditionalSelect (h : conditionalSelect i = .ok l) : l.Arranges i := by
  unfold conditionalSelect at h
  split at h
  · dsimp only at h
    split at h
    · rename_i op hop
      have hm : startsWord op.mnemonic = true := (Opcode.conditionalSelect op).startsWord_name
      have hzero : ∀ m, op.zeroSource? = some m → startsWord m = true := by
        cases op <;> simp [ConditionalSelectOp.zeroSource?] <;> decide
      have hsame : ∀ m, op.sameSource? = some m → startsWord m = true := by
        cases op <;> simp [ConditionalSelectOp.sameSource?] <;> decide
      split at h
      · rename_i m hm
        cases h
        exact arranges_plain (hzero m (Option.ite_none_right_eq_some.1 hm).2) rfl (by simp [*]) rfl
      · split at h
        · rename_i m hm
          cases h
          exact arranges_plain (hsame m (Option.ite_none_right_eq_some.1 hm).2) rfl (by simp [*])
            rfl
        · cases h
          exact arranges_plain hm rfl (by simp [*]) rfl
    · cases h
  · cases h

theorem arranges_dataProcessingThreeSource (h : dataProcessingThreeSource i = .ok l) :
    l.Arranges i := by
  unfold dataProcessingThreeSource at h
  split at h
  · split at h
    · rename_i op hop
      have hm : startsWord op.mnemonic = true :=
        (Opcode.dataProcessingThreeSource op).startsWord_name
      have hproduct : ∀ m, op.product? = some m → startsWord m = true := by
        cases op <;> simp [ThreeSourceOp.product?] <;> decide
      (repeat' split at h) <;> cases h
      · exact arranges_plain hm rfl (by simp [*]) rfl
      · exact arranges_plain (hproduct _ ‹_›) rfl (by simp [*]) rfl
      · exact arranges_plain hm rfl (by simp [*]) rfl
    · cases h
  · cases h

end Layout

/-- What a family lays out shows the operands of the instruction, and numbers and words between
them. -/
theorem Family.arranges (f : Family) (h : f.layout i = .ok l) : l.Arranges i := by
  cases f with
  | pcRelativeAddressing => exact Layout.arranges_pcRelativeAddressing h
  | addSubtractImmediate => exact Layout.arranges_addSubtractImmediate h
  | logicalImmediate => exact Layout.arranges_logicalImmediate h
  | moveWideImmediate => exact Layout.arranges_moveWideImmediate h
  | bitfield => exact Layout.arranges_bitfield h
  | extract => exact Layout.arranges_extract h
  | conditionalBranch => exact Layout.arranges_conditionalBranch h
  | exceptionGeneration => exact Layout.arranges_exceptionGeneration h
  | system => exact Layout.arranges_system h
  | branchRegister => exact Layout.arranges_branchRegister h
  | branchImmediate => exact Layout.arranges_branchImmediate h
  | compareAndBranch => exact Layout.arranges_compareAndBranch h
  | testAndBranch => exact Layout.arranges_testAndBranch h
  | loadStoreExclusive => exact Layout.arranges_loadStoreExclusive h
  | loadLiteral => exact Layout.arranges_loadLiteral h
  | loadStorePair => exact Layout.arranges_loadStorePair h
  | loadStore => exact Layout.arranges_loadStore h
  | dataProcessingTwoSource => exact Layout.arranges_dataProcessingTwoSource h
  | dataProcessingOneSource => exact Layout.arranges_dataProcessingOneSource h
  | logicalShiftedRegister => exact Layout.arranges_logicalShiftedRegister h
  | addSubtractShiftedRegister => exact Layout.arranges_addSubtractShiftedRegister h
  | addSubtractExtendedRegister => exact Layout.arranges_addSubtractExtendedRegister h
  | addSubtractWithCarry => exact Layout.arranges_addSubtractWithCarry h
  | conditionalCompare => exact Layout.arranges_conditionalCompare h
  | conditionalSelect => exact Layout.arranges_conditionalSelect h
  | dataProcessingThreeSource => exact Layout.arranges_dataProcessingThreeSource h

end A64Text
