import A64Text.Layout.Basic
import A64Text.Proofs.FieldTypes
import A64Text.Proofs.Line.Fusion
import A64Text.Proofs.Line.Phrases

/-!
# How operands are read

The reading of an operand is what a line holds for it: a name for a register, a number for an
immediate, a keyword with its amount for a modifier, brackets for an address. What an operand prints
is read as its reading (`Operand.readsAs`, `Operand.follows`), up to fusing: an extend is written with
a comma in front of its amount, and the two terms fuse to the one.

A modifier brings its own comma or prints nothing, so what it prints can only follow something.
-/

namespace A64Text

open Line

/-! ### Readings -/

/-- The name that a placeholder is read as. -/
def placeholderTerm : Term := ⟨some "<unsupported_opnd>", none⟩

/-- The reading of a register. -/
def Register.reading (r : Register) : Term := ⟨some r.text, none⟩

/-- The reading of a system register. -/
def SystemRegister.reading (r : SystemRegister) : Term := ⟨some (Text.lowerAscii r.text), none⟩

/-- The reading of a shift. -/
def Shift.reading (s : Shift) : List Term :=
  match s.kind with
  | .none => []
  | .unlisted _ => [placeholderTerm]
  | kind => [⟨some kind.keyword, some (s.count.toInt?.getD 0)⟩]

/-- The reading of an extend. An amount of nothing is left out, and a left shift by nothing is. -/
def Extend.reading (e : Extend) : List Term :=
  match e.kind with
  | .none => []
  | .unlisted _ => [placeholderTerm]
  | .lsl =>
    if e.count.toInt?.getD 0 = 0 then [] else [⟨some "lsl", some (e.count.toInt?.getD 0)⟩]
  | kind =>
    if e.count.toInt?.getD 0 = 0 then [⟨some kind.keyword, none⟩]
    else [⟨some kind.keyword, some (e.count.toInt?.getD 0)⟩]

/-- The reading of an address: the offset stands between the brackets, or behind them if it is added
after the access. -/
def Indexing.reading (mode : Indexing) (base : Register) (offset : List Term) : List Item :=
  match mode with
  | plain => [.memory (base.reading :: offset) false]
  | pre => [.memory (base.reading :: offset) true]
  | post => .memory [base.reading] false :: offset.map .term

/-- The reading of an address with an immediate offset. -/
def ImmediateOffset.reading (a : ImmediateOffset) : List Item :=
  a.indexing.reading a.base
    (if a.showsOffset then ⟨none, some a.offset.signed⟩ :: a.shift.reading else [])

/-- The reading of an address with a register offset. -/
def RegisterOffset.reading (a : RegisterOffset) : List Item :=
  a.indexing.reading a.base (a.offset.reading :: a.extend.reading)

/-- The reading of an operand. -/
def Operand.reading : Operand → List Item
  | register r => [.term r.reading]
  | immediate imm => [.term ⟨none, some imm.value⟩]
  | systemRegister r => [.term r.reading]
  | shift s => s.reading.map .term
  | extend e => e.reading.map .term
  | immediateOffset a => a.reading
  | registerOffset a => a.reading
  | bare => [.term placeholderTerm]

/-- The reading of a part. -/
def Part.reading : Part → List Item
  | operand o => o.reading
  | signed imm => [.term ⟨none, some imm.signed⟩]
  | decimal n => [.term ⟨none, some (n.integer?.getD 0)⟩]
  | word s => [.term ⟨some (Text.lowerAscii s), none⟩]

/-! ### Characters of tokens -/

/-- The characters of tokens. -/
def Token.chars (ts : List Token) : List Char := (Token.concat ts).toList

namespace Token

@[simp] theorem chars_nil : chars [] = [] := rfl

@[simp] theorem chars_cons (t : Token) (ts : List Token) :
    chars (t :: ts) = t.spelling.toList ++ chars ts := by
  simp [chars]

@[simp] theorem chars_append (ts us : List Token) : chars (ts ++ us) = chars ts ++ chars us := by
  simp [chars]

@[simp] theorem spelling_instruction (s : String) : (instruction s).spelling = s := rfl

@[simp] theorem spelling_text (s : String) : (text s).spelling = s := rfl

@[simp] theorem spelling_integer (s : String) : (integer s).spelling = s := rfl

@[simp] theorem spelling_register (s : String) : (register s).spelling = s := rfl

@[simp] theorem toList_spelling_comma : comma.spelling.toList = [',', ' '] := rfl

@[simp] theorem toList_spelling_blank : blank.spelling.toList = [' '] := rfl

theorem chars_behindComma {ts : List Token} (h : ts ≠ []) :
    chars (behindComma ts) = ',' :: ' ' :: chars ts := by
  cases ts with
  | nil => exact absurd rfl h
  | cons t ts => simp [behindComma]

end Token

namespace Line

/-! ### Reading up to fusing -/

/-- Characters that are read as terms, among operands and between brackets, up to fusing. -/
def SpellsTerms (cs : List Char) (terms : List Term) : Prop :=
  ∃ raw, ReadsTerms cs raw ∧ ReadsItems cs (raw.map .term) ∧ FusesAlike Term.fuse? raw terms ∧
    FusesAlike Item.fuse? (raw.map .term) (terms.map .term)

theorem SpellsTerm.spellsTerms {cs : List Char} {t : Term} (h : SpellsTerm cs t) :
    SpellsTerms cs [t] :=
  ⟨[t], h.readsTerms, h.readsItems, .refl _, .refl _⟩

/-- Characters that are read as operands, up to fusing. -/
def ReadsAs (cs : List Char) (items : List Item) : Prop :=
  ∃ raw, ReadsItems cs raw ∧ FusesAlike Item.fuse? raw items

/-- Characters are read in one way, up to fusing. -/
theorem ReadsAs.fuseItems_eq {cs : List Char} {xs ys : List Item} (h : ReadsAs cs xs)
    (h' : ReadsAs cs ys) : fuseItems xs = fuseItems ys := by
  obtain ⟨raw, hitems, hfuse⟩ := h
  obtain ⟨raw', hitems', hfuse'⟩ := h'
  -- They are read behind some mnemonic.
  have hword : Lexeme.IsWord ['b'] := by decide
  have hline := Except.ok.inj
    ((readChars_phrase hword hitems).symm.trans (readChars_phrase hword hitems'))
  calc
    fuseItems xs = fuseItems raw := hfuse.coalesce_eq.symm
    _ = fuseItems raw' := congrArg Line.operands hline
    _ = fuseItems ys := hfuse'.coalesce_eq

theorem SpellsTerms.readsAs {cs : List Char} {terms : List Term} (h : SpellsTerms cs terms) :
    ReadsAs cs (terms.map .term) := by
  obtain ⟨raw, -, hitems, -, hfuse⟩ := h
  exact ⟨raw.map .term, hitems, hfuse⟩

/-- Characters that are nothing, or a comma and what is read behind it. -/
def Follows {α : Type} (Reads : List Char → List α → Prop) (cs : List Char) (xs : List α) : Prop :=
  (cs = [] ∧ xs = []) ∨ ∃ ds, cs = ',' :: ' ' :: ds ∧ Reads ds xs

theorem Follows.mono {α β : Type} {R : List Char → List α → Prop} {S : List Char → List β → Prop}
    {f : α → β} (hRS : ∀ cs xs, R cs xs → S cs (xs.map f)) {cs : List Char} {xs : List α}
    (h : Follows R cs xs) : Follows S cs (xs.map f) := by
  rcases h with ⟨rfl, rfl⟩ | ⟨ds, rfl, hds⟩
  · exact .inl ⟨rfl, rfl⟩
  · exact .inr ⟨ds, rfl, hRS ds xs hds⟩

theorem SpellsTerms.append {cs ds : List Char} {ts us : List Term} (h : SpellsTerms cs ts)
    (h' : Follows SpellsTerms ds us) : SpellsTerms (cs ++ ds) (ts ++ us) := by
  rcases h' with ⟨rfl, rfl⟩ | ⟨ds, rfl, raw', hterms', hitems', hfuse', hfuse_items'⟩
  · rwa [List.append_nil, List.append_nil]
  · obtain ⟨raw, hterms, hitems, hfuse, hfuse_items⟩ := h
    refine ⟨raw ++ raw', hterms.commaJoin hterms', ?_, hfuse.append hfuse', ?_⟩
    · rw [List.map_append]
      exact hitems.commaJoin hitems'
    · rw [List.map_append, List.map_append]
      exact hfuse_items.append hfuse_items'

theorem ReadsAs.append {cs ds : List Char} {xs ys : List Item} (h : ReadsAs cs xs)
    (h' : Follows ReadsAs ds ys) : ReadsAs (cs ++ ds) (xs ++ ys) := by
  rcases h' with ⟨rfl, rfl⟩ | ⟨ds, rfl, raw', hitems', hfuse'⟩
  · rwa [List.append_nil, List.append_nil]
  · obtain ⟨raw, hitems, hfuse⟩ := h
    exact ⟨raw ++ raw', hitems.commaJoin hitems', hfuse.append hfuse'⟩

theorem Follows.append {cs ds : List Char} {xs ys : List Item} (h : Follows ReadsAs cs xs)
    (h' : Follows ReadsAs ds ys) : Follows ReadsAs (cs ++ ds) (xs ++ ys) := by
  rcases h with ⟨rfl, rfl⟩ | ⟨es, rfl, hes⟩
  · exact h'
  · exact .inr ⟨es ++ ds, rfl, hes.append h'⟩

/-- Terms between brackets, if none of them fuses with another, are read as one operand. -/
theorem SpellsTerms.memory {cs : List Char} {terms : List Term} (h : SpellsTerms cs terms)
    (hfused : fuseTerms terms = terms) (writeback : Bool) :
    ReadsAs ('[' :: cs ++ closing writeback) [.memory terms writeback] := by
  obtain ⟨raw, hterms, -, hfuse, -⟩ := h
  have heq : fuseTerms raw = terms := hfuse.coalesce_eq.trans hfused
  have hitems := hterms.readsItems writeback
  rw [heq] at hitems
  exact ⟨_, hitems, .refl _⟩

end Line

end A64Text
