import Mathlib.Data.List.Forall2
import A64Text.Proofs.Forms

/-!
# The text of a layout

An instruction whose family lays it out prints the text of the layout
(`Instruction.text_of_layout`), and matching operands outside the wide moves are always laid out
(`Family.exists_layout`). Parts that are no modifiers are read one by one
(`Part.ReadsAlone.fuseItems_readings`). The text of a layout starts with its mnemonic, and since a
mnemonic is a word and a blank or nothing follows it, the text says what the mnemonic is
(`Layout.mnemonic_eq_of_text`).
-/

namespace A64Text

open Line

variable {i : Instruction}

/-! ### From layouts to texts -/

/-- An opcode that is given by an integer has its own family. -/
theorem Operation.family?_of_opcode? {o : Operation} {op : Opcode} {n : Int}
    (h : o.integer? = some n) (hop : o.opcode? = some op) : o.family? = some op.family := by
  rw [family?_eq_ofNumber? h, ofNumber?_eq_family h, hop]
  rfl

/-- An instruction of a family prints what the family lays out. -/
theorem Instruction.tokens_of_layout {f : Family} {l : Layout} (h : i.hasIntegers = true)
    (hfamily : i.operation.family? = some f) (hl : f.layout i = .ok l) :
    i.tokens = .ok l.tokens := by
  obtain ⟨n, hnumber, -⟩ := Option.bind_eq_some_iff.1 hfamily
  have htokens := tokens_of_number? hnumber
  rw [hfamily] at htokens
  dsimp only at htokens
  rw [htokens, f.tokens_eq h (Operation.isKey_of_number? hnumber), hl]
  rfl

theorem Instruction.text_of_layout {f : Family} {l : Layout} (h : i.hasIntegers = true)
    (hfamily : i.operation.family? = some f) (hl : f.layout i = .ok l) : i.text = .ok l.text := by
  rw [text, tokens_of_layout h hfamily hl]
  rfl

/-- What the family of an opcode lays out has matching operands, and derives from them. -/
theorem Opcode.accepts_of_layout {op : Opcode} {l : Layout} (h : i.hasIntegers = true)
    (hkey : i.operation.isKey = true) (hop : i.opcode? = some op)
    (hl : op.family.layout i = .ok l) :
    op.signature.accepts i.kinds = true ∧ l.Derives i := by
  have houtcome := op.family.outcome h hkey
  rw [hl] at houtcome
  cases houtcome with
  | laidOut hop' _ haccepts _ hderives =>
    obtain rfl := Option.some.inj (hop.symm.trans hop')
    exact ⟨haccepts, hderives⟩

/-- Outside the wide moves, operands that match the signature of an opcode are laid out. -/
theorem Family.exists_layout {f : Family} {op : Opcode} (h : i.hasIntegers = true)
    (hkey : i.operation.isKey = true) (hop : i.opcode? = some op) (hfamily : op.family = f)
    (hf : f ≠ .moveWideImmediate) (haccepts : op.signature.accepts i.kinds = true) :
    ∃ l, f.layout i = .ok l := by
  have houtcome := f.outcome h hkey
  generalize f.layout i = result at houtcome
  cases houtcome with
  | laidOut _ _ _ _ _ => exact ⟨_, rfl⟩
  | noRoom hop' _ _ hwide =>
    rw [Instruction.wideFault?_eq_none hop (hfamily ▸ hf)] at hwide
    cases hwide
  | misshapen hop' _ haccepts' _ _ =>
    obtain rfl := Option.some.inj (hop.symm.trans hop')
    rw [haccepts] at haccepts'
    cases haccepts'
  | foreign hforeign _ =>
    rw [hop, Option.map_some, hfamily] at hforeign
    exact absurd rfl hforeign

/-! ### Parts that are read one by one -/

/-- A part that is read as one term, which takes nothing that stands behind it. -/
def Part.ReadsAlone (p : Part) (t : Term) : Prop :=
  p.reading = [.term t] ∧ t.isBareModifier = false

instance (p : Part) (t : Term) : Decidable (p.ReadsAlone t) := inferInstanceAs (Decidable (_ ∧ _))

/-- Parts of which none takes the next are read one by one. -/
theorem Part.ReadsAlone.fuseItems_readings {ps : List Part} {ts : List Term}
    (h : List.Forall₂ Part.ReadsAlone ps ts) :
    fuseItems (ps.flatMap Part.reading) = ts.map .term := by
  induction h with
  | nil => rfl
  | cons hp _ ih =>
    rw [List.flatMap_cons, hp.1, List.singleton_append, fuseItems_cons hp.2, ih, List.map_cons]

/-- The text of a layout without parts is read as the mnemonic alone. -/
theorem Layout.read_text_nil {l : Layout} (hparts : l.parts = []) (hm : IsMnemonic l.mnemonic) :
    Line.read l.text = .ok ⟨l.mnemonic, []⟩ := by
  obtain ⟨m, parts⟩ := l
  obtain rfl : parts = [] := hparts
  -- It derives from any instruction, so from one without operands.
  exact (derives_nil (i := ⟨.named .conditionalBranch, [], .bool false, 14⟩) hm).read_text
    rfl rfl rfl hm

@[simp] theorem Part.readsAlone_register (r : Register) : ReadsAlone (r : Part) r.reading :=
  ⟨rfl, r.isBareModifier_reading⟩

theorem Part.readsAlone_decimal (k : Int) : ReadsAlone (.decimal (.int k)) ⟨none, some k⟩ :=
  ⟨rfl, rfl⟩

@[simp] theorem Part.readsAlone_signed (imm : Immediate) :
    (Part.signed imm).ReadsAlone ⟨none, some imm.signed⟩ :=
  ⟨rfl, rfl⟩

theorem Part.readsAlone_given {imm : Immediate} (h : imm.hasIntegers = true) :
    (Part.decimal imm.given).ReadsAlone ⟨none, some imm.value⟩ := by
  rw [Immediate.given_eq_value h]
  exact readsAlone_decimal _

/-! ### The first word -/

namespace Layout

/-- What stands behind the mnemonic is nothing, or starts with a blank. -/
theorem chars_tokens (l : Layout) :
    ∃ rest, Token.chars l.tokens = l.mnemonic.toList ++ rest ∧ Lexeme.Boundary rest := by
  cases hparts : l.parts with
  | nil => exact ⟨[], by simp [tokens, Segment.line, hparts], Lexeme.boundary_nil⟩
  | cons p ps =>
    refine ⟨' ' :: Token.chars (Segment.join (l.parts.map Part.segment)), ?_,
      Lexeme.boundary_space _⟩
    simp [tokens, Segment.line, hparts]

/-- The word at the front of a layout's text is its mnemonic. -/
theorem word?_text {l : Layout} (h : IsMnemonic l.mnemonic) :
    (Lexeme.word? l.text.toList).map Prod.fst = some l.mnemonic.toList := by
  obtain ⟨rest, hchars, hboundary⟩ := l.chars_tokens
  show (Lexeme.word? (Token.chars l.tokens)).map Prod.fst = _
  rw [hchars, Lexeme.word?_append h.1 hboundary]
  rfl

/-- Layouts of one text have one mnemonic. -/
theorem mnemonic_eq_of_text {l l' : Layout} (h : IsMnemonic l.mnemonic)
    (h' : IsMnemonic l'.mnemonic) (htext : l.text = l'.text) : l.mnemonic = l'.mnemonic := by
  have hword := word?_text h
  rw [htext, word?_text h'] at hword
  exact (String.toList_inj.1 (Option.some.inj hword)).symm

end Layout

end A64Text
