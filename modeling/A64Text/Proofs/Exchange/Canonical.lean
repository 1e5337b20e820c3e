import A64Text.Proofs.Exchange.Equality
import A64Text.Proofs.Layout.Naming

/-!
# The written form is canonical

A document whose instructions hold what the schema calls for is written exactly if all of its
condition codes are among the sixteen and all of its operands have a written form. What is read back
is an equal document of the same form, two documents have the same text exactly if they are equal,
and an instruction that was read back prints what it printed before (`Document.write_canonical`).

An operation may come back by its name where it was given by its number, and that is all that may
change (`restores_document`).
-/

namespace A64Text

/-- An instruction that came back differs at most in how its operation is given. -/
theorem Instruction.renamed_restored {i : Instruction} (h : i.isTyped = true) :
    i.Renamed i.restored := by
  obtain ⟨⟨n, hn⟩, -⟩ := isTyped_iff.1 h
  have hn' := Operation.integer?_restored hn
  refine ⟨(Operation.opcode?_restored hn).symm, ?_, rfl, rfl, rfl⟩
  exact (Operation.isKey_of_integer? hn).trans (Operation.isKey_of_integer? hn').symm

theorem Instruction.tokens_restored {i : Instruction} (h : i.isTyped = true) :
    unnamedResult i.tokens = unnamedResult i.restored.tokens := by
  obtain ⟨⟨n, hn⟩, -⟩ := isTyped_iff.1 h
  exact tokens_renamed (renamed_restored h) hn (Operation.integer?_restored hn)

namespace Exchange

/-! ### Documents -/

/-- Whether two lists of instructions are equal, one by one. -/
def sameInstructions : List Instruction → List Instruction → Bool
  | [], [] => true
  | i :: is, j :: js => i.same j && sameInstructions is js
  | _, _ => false

namespace Document

/-- Whether two documents are equal: one instruction is never equal to a list. -/
def same : Document → Document → Bool
  | single i, single j => i.same j
  | listing is, listing js => sameInstructions is js
  | _, _ => false

/-- Whether all instructions of a document hold what the schema calls for. -/
def isTyped (d : Document) : Bool := d.instructions.all Instruction.isTyped

/-- Whether all instructions of a document have a written form. -/
def isWritable (d : Document) : Bool := d.instructions.all Instruction.isWritable

/-- A document as it comes back. -/
def restored : Document → Document
  | single i => single i.restored
  | listing is => listing (is.map Instruction.restored)

theorem isTyped_single {i : Instruction} : (single i).isTyped = true ↔ i.isTyped = true := by
  simp [isTyped, instructions]

theorem isTyped_listing {is : List Instruction} :
    (listing is).isTyped = true ↔ ∀ i ∈ is, i.isTyped = true := by
  simp [isTyped, instructions]

end Document

variable {d e : Document} {v : Json}

/-- A document has a written form exactly if all of its instructions have one. -/
theorem exists_ofDocument_iff (h : d.isTyped = true) :
    (∃ v, ofDocument d = .ok v) ↔ d.isWritable = true := by
  cases d with
  | single i =>
    have hi := exists_ofInstruction_iff (Document.isTyped_single.1 h)
    simpa [ofDocument, Document.isWritable, Document.instructions] using hi
  | listing is =>
    have his := Document.isTyped_listing.1 h
    have hlist : (∃ vs, is.mapM ofInstruction = .ok vs) ↔ ∀ i ∈ is, i.isWritable = true := by
      rw [exists_mapM_iff]
      exact forall₂_congr fun i hi ↦ exists_ofInstruction_iff (his i hi)
    have hmap : (∃ v, ofDocument (.listing is) = .ok v) ↔ ∃ vs, is.mapM ofInstruction = .ok vs := by
      rw [ofDocument, ofInstructionList_eq_mapM]
      cases is.mapM ofInstruction with
      | error fault => simp [Except.map]
      | ok vs => simp [Except.map]
    rw [hmap, hlist]
    simp [Document.isWritable, Document.instructions]

/-- The written form of a document is decoded as that document, as it comes back. -/
theorem restores_document (h : d.isTyped = true) (hv : ofDocument d = .ok v) :
    Restores document v d.restored := by
  cases d with
  | single i =>
    obtain ⟨hplain, hdecode⟩ := restores_instruction (Document.isTyped_single.1 h) hv
    obtain ⟨_, _, _, -, -, -, rfl⟩ := ofInstruction_eq_ok_iff.1 hv
    refine ⟨hplain, ?_⟩
    show (instruction _).map Document.single = _
    rw [hdecode]
    rfl
  | listing is =>
    have his := Document.isTyped_listing.1 h
    rw [ofDocument, ofInstructionList_eq_mapM] at hv
    cases hvs : is.mapM ofInstruction with
    | error fault =>
      rw [hvs] at hv
      cases hv
    | ok vs =>
      rw [hvs] at hv
      obtain rfl := Except.ok.inj hv
      obtain ⟨hplain, hdecode⟩ :=
        restores_mapM (fun i hi v hv ↦ restores_instruction (his i hi) hv) hvs
      refine ⟨hplain, ?_⟩
      rw [document, instructionList_eq_mapM, hdecode]
      rfl

/-- A document that came back is written as it was. -/
theorem ofDocument_restored (h : d.isTyped = true) : ofDocument d.restored = ofDocument d := by
  cases d with
  | single i => exact ofInstruction_restored (Document.isTyped_single.1 h)
  | listing is =>
    have hlist : ∀ is : List Instruction, (∀ i ∈ is, i.isTyped = true) →
        ofInstructionList (is.map Instruction.restored) = ofInstructionList is := by
      intro is his
      induction is with
      | nil => rfl
      | cons i is ih =>
        obtain ⟨hi, his⟩ := List.forall_mem_cons.1 his
        rw [List.map_cons, ofInstructionList, ofInstructionList, ofInstruction_restored hi, ih his]
    rw [Document.restored, ofDocument, ofDocument, hlist is (Document.isTyped_listing.1 h)]

/-! ### Equality and tokens -/

/-- Lists of instructions are equal exactly if they come back as the same list. -/
theorem sameInstructions_iff {is js : List Instruction} (his : ∀ i ∈ is, i.isTyped = true)
    (hjs : ∀ j ∈ js, j.isTyped = true) (hwritable : ∀ i ∈ is, i.isWritable = true) :
    sameInstructions is js = true ↔
      is.map Instruction.restored = js.map Instruction.restored := by
  induction is generalizing js with
  | nil =>
    cases js with
    | nil => simp [sameInstructions]
    | cons j js => simp [sameInstructions]
  | cons i is ih =>
    cases js with
    | nil => simp [sameInstructions]
    | cons j js =>
      obtain ⟨hi, his⟩ := List.forall_mem_cons.1 his
      obtain ⟨hj, hjs⟩ := List.forall_mem_cons.1 hjs
      obtain ⟨hfirst, hothers⟩ := List.forall_mem_cons.1 hwritable
      rw [sameInstructions, Bool.and_eq_true, Instruction.same_iff hi hj hfirst,
        ih his hjs hothers, List.map_cons, List.map_cons, List.cons.injEq]

namespace Document

/-- Documents are equal exactly if they come back as the same one. -/
theorem same_iff (hd : d.isTyped = true) (he : e.isTyped = true) (hwritable : d.isWritable = true) :
    d.same e = true ↔ d.restored = e.restored := by
  cases d with
  | single i =>
    cases e with
    | single j =>
      have hi : i.isWritable = true := by simpa [isWritable, instructions] using hwritable
      rw [same, Instruction.same_iff (isTyped_single.1 hd) (isTyped_single.1 he) hi, restored,
        restored, single.injEq]
    | listing js => simp [same, restored]
  | listing is =>
    cases e with
    | single j => simp [same, restored]
    | listing js =>
      have his : ∀ i ∈ is, i.isWritable = true := by
        simpa [isWritable, instructions] using hwritable
      rw [same, sameInstructions_iff (isTyped_listing.1 hd) (isTyped_listing.1 he) his, restored,
        restored, listing.injEq]

theorem instructions_restored (d : Document) :
    d.restored.instructions = d.instructions.map Instruction.restored := by
  cases d <;> rfl

theorem restored_restored (hd : d.isTyped = true) : d.restored.restored = d.restored := by
  cases d with
  | single i => exact congrArg single (Instruction.restored_restored (isTyped_single.1 hd))
  | listing is =>
    rw [restored, restored, List.map_map]
    refine congrArg listing (List.map_congr_left fun i hi ↦ ?_)
    exact Instruction.restored_restored (isTyped_listing.1 hd i hi)

/-- What comes back is equal to what was written. -/
theorem restored_same (hd : d.isTyped = true) (hwritable : d.isWritable = true) :
    d.restored.same d = true := by
  have htyped : d.restored.isTyped = true := by
    rw [isTyped, instructions_restored, List.all_map]
    exact List.all_eq_true.2 fun i hi ↦ Instruction.isTyped_restored (List.all_eq_true.1 hd i hi)
  have hwritable' : d.restored.isWritable = true := by
    rw [isWritable, instructions_restored, List.all_map]
    exact hwritable
  rw [same_iff htyped hd hwritable', restored_restored hd]

/-- An instruction that came back prints what it printed before, or fails for the same reason. -/
theorem tokens_restored (hd : d.isTyped = true) :
    List.Forall₂ (fun i j ↦ unnamedResult i.tokens = unnamedResult j.tokens) d.instructions
      d.restored.instructions := by
  rw [instructions_restored]
  refine List.forall₂_map_right_iff.2 (List.forall₂_same.2 fun i hi ↦ ?_)
  exact Instruction.tokens_restored (List.all_eq_true.1 hd i hi)

/-! ### Texts -/

variable {style : Json.Style} {s : String}

theorem write_eq_ok_iff : write style d = .ok s ↔ ∃ v, ofDocument d = .ok v ∧ v.write style = s := by
  rw [write]
  cases ofDocument d with
  | error fault => simp [Except.map]
  | ok v => simp [Except.map]

/-- A text is read as the document that it was written for, as it comes back. -/
theorem read_of_write (hstyle : style.isBlank = true) (hd : d.isTyped = true)
    (hwrite : write style d = .ok s) : read s = .ok d.restored := by
  obtain ⟨v, hv, rfl⟩ := write_eq_ok_iff.1 hwrite
  obtain ⟨hplain, hdecode⟩ := restores_document hd hv
  rw [read, Json.read_write hstyle hplain]
  exact hdecode

/-- The text of a document is canonical, on one line and in blocks of every width. A document has
a text exactly if its condition codes and operands have a written form. The text is read as an equal
document, whose instructions print what they printed before, or fail with the same fault but for the
name; and it is the text of another document exactly if the two are equal. -/
theorem write_canonical (hstyle : style = .line ∨ ∃ width, style = .blanks width)
    (hd : d.isTyped = true) :
    ((∃ s, write style d = .ok s) ↔ d.isWritable = true) ∧
      ∀ s, write style d = .ok s →
        (∃ d', read s = .ok d' ∧ d'.same d = true ∧
          List.Forall₂ (fun i j ↦ unnamedResult i.tokens = unnamedResult j.tokens)
            d.instructions d'.instructions) ∧
        ∀ e : Document, e.isTyped = true → (write style e = .ok s ↔ d.same e = true) := by
  have hblank : style.isBlank = true := by
    rcases hstyle with rfl | ⟨width, rfl⟩
    · rfl
    · rfl
  have hexists : (∃ s, write style d = .ok s) ↔ d.isWritable = true := by
    rw [← exists_ofDocument_iff hd]
    simp only [write_eq_ok_iff]
    exact ⟨fun ⟨_, v, hv, _⟩ ↦ ⟨v, hv⟩, fun ⟨v, hv⟩ ↦ ⟨_, v, hv, rfl⟩⟩
  refine ⟨hexists, fun s hs ↦ ?_⟩
  have hwritable := hexists.1 ⟨s, hs⟩
  have hread := read_of_write hblank hd hs
  refine ⟨⟨d.restored, hread, restored_same hd hwritable, tokens_restored hd⟩, fun e he ↦ ?_⟩
  rw [same_iff hd he hwritable]
  constructor
  · intro hs'
    exact Except.ok.inj (hread.symm.trans (read_of_write hblank he hs'))
  · intro hrestored
    rw [← hs, write, write, ← ofDocument_restored hd, ← ofDocument_restored he, hrestored]

/-- A breakpoint that is given by the number of its opcode. -/
def numberedBreakpoint : Document :=
  single ⟨.numbered (.int 16), [.immediate (.halfword 1)], .bool false, 3⟩

/-- The same breakpoint, given by name. -/
def namedBreakpoint : Document :=
  single ⟨.named (.exceptionGeneration .brk), [.immediate (.halfword 1)], .bool false, 3⟩

/-- The text of both. -/
def breakpointText : String :=
  "\x7b\"cc\": \"cc\", \"opcode\": \"brk\", \"operands\": [\x7b\"size\": 16, \"type\": \"imm\", " ++
    "\"value\": 1\x7d], \"set_flags\": false\x7d"

/-- A number and a name are the same opcode, and so they have the same text. -/
theorem write_canonical_breakpoint :
    numberedBreakpoint.isTyped = true ∧ write .line numberedBreakpoint = .ok breakpointText ∧
      (∃ d, read breakpointText = .ok d ∧ d.same numberedBreakpoint = true) ∧
      write .line namedBreakpoint = .ok breakpointText := by
  have hwrite : write .line numberedBreakpoint = .ok breakpointText := by decide +kernel
  have hsame : numberedBreakpoint.same namedBreakpoint = true := by decide +kernel
  obtain ⟨-, hcanonical⟩ := write_canonical (d := numberedBreakpoint) (.inl rfl) rfl
  obtain ⟨⟨d, hread, hequal, -⟩, hunique⟩ := hcanonical breakpointText hwrite
  exact ⟨rfl, hwrite, ⟨d, hread, hequal⟩, (hunique namedBreakpoint rfl).2 hsame⟩

end Document

end Exchange

end A64Text
