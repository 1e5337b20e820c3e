import A64Text.Proofs.Layout.Family
import A64Text.Proofs.Layout.Parts
import Mathlib.Data.List.Chain

/-!
# The tokens of a line

Whatever an instruction of a family prints, its tokens make a well-formed line (`Token.IsLine`): one
mnemonic at the front, a blank behind it if anything follows, separators only between other tokens,
and a pair of brackets around the base register of every address that is shown.

Separators come from four places, the mnemonic, the joining of parts, the modifiers and the
addresses, so what is said of them is said of two kinds of lists. A *solid* list can stand anywhere:
it neither starts nor ends with a separator, and its tokens fit one behind the other
(`Token.Solid`). What stands behind a part is nothing, or a comma and a solid list
(`Token.Trailing`), whether the comma was brought by a modifier or put there by joining. Such lists
may follow a solid one in any number, which is the induction over the parts of a layout.
-/

namespace A64Text

namespace Token

/-! ### Kinds of tokens -/

/-- Whether a token is a mnemonic. -/
def isInstruction : Token → Bool
  | instruction _ => true
  | _ => false

/-- Whether a token is a bracket of an address. -/
def isBracket : Token → Bool
  | beginMemory | endMemory _ => true
  | _ => false

/-- The spellings that stand for an operand, or a part of one, that has no written form. -/
def placeholders : List String := [Register.unsupported, unsupportedOperand.spelling]

/-- Whether a token is a placeholder. -/
def isPlaceholder (t : Token) : Bool := t.spelling ∈ placeholders

/-- Whether one token may stand directly in front of another one. -/
def precedes : Token → Token → Bool
  | _, instruction _ => false
  | separator _, separator _ => false
  | beginMemory, register _ => true
  | beginMemory, _ => false
  | _, _ => true

/-- Whether a token can be the first one of a part. -/
def opens : Token → Bool
  | instruction _ | separator _ => false
  | _ => true

/-- Whether a token can be the last one of a part. -/
def closes : Token → Bool
  | separator _ | beginMemory => false
  | _ => true

theorem precedes_of_closes {s t : Token} (hs : s.closes = true) (ht : t.opens = true) :
    s.precedes t = true := by
  cases s <;> cases t <;> simp_all [closes, opens, precedes]

theorem precedes_comma {s : Token} (hs : s.closes = true) : s.precedes comma = true := by
  cases s <;> simp_all [closes, comma, precedes]

theorem separator_precedes {s : String} {t : Token} (ht : t.opens = true) :
    (separator s).precedes t = true := by
  cases t <;> simp_all [opens, precedes]

/-! ### Solid lists -/

/-- Tokens that fit one behind the other, with no separator at either end. -/
structure Solid (ts : List Token) : Prop where
  chain : ts.IsChain fun s t ↦ s.precedes t = true
  first : ∃ t, ts.head? = some t ∧ t.opens = true
  last : ∃ t, ts.getLast? = some t ∧ t.closes = true

/-- What may stand behind a part: nothing, or a comma and a solid list. -/
def Trailing (ts : List Token) : Prop := ts = [] ∨ ∃ us, ts = comma :: us ∧ Solid us

theorem solid_singleton {t : Token} (hfirst : t.opens = true) (hlast : t.closes = true) :
    Solid [t] :=
  ⟨List.isChain_singleton t, ⟨t, rfl, hfirst⟩, ⟨t, rfl, hlast⟩⟩

theorem trailing_nil : Trailing [] := .inl rfl

namespace Solid

variable {ts us : List Token}

theorem trailing (h : Solid ts) : Trailing (comma :: ts) := .inr ⟨ts, rfl, h⟩

/-- A solid list goes on with tokens that fit one behind the other, if the first of them fits behind
what ends a part. -/
theorem append_of_isChain (h : Solid ts) (hchain : us.IsChain fun s t ↦ s.precedes t = true)
    (hfirst : ∀ s t : Token, s.closes = true → us.head? = some t → s.precedes t = true)
    (hlast : ∃ t, us.getLast? = some t ∧ t.closes = true) : Solid (ts ++ us) := by
  obtain ⟨s, hs, hcloses⟩ := h.last
  obtain ⟨a, ha, hopens⟩ := h.first
  obtain ⟨b, hb, hend⟩ := hlast
  refine ⟨h.chain.append hchain fun x hx y hy ↦ ?_, ⟨a, ?_, hopens⟩, ⟨b, ?_, hend⟩⟩
  · obtain rfl : s = x := Option.some.inj (hs.symm.trans hx)
    exact hfirst s y hcloses hy
  · rw [List.head?_append, ha]
    rfl
  · rw [List.getLast?_append, hb]
    rfl

/-- Behind a part, another one may start. -/
theorem append (h : Solid ts) (h' : Solid us) : Solid (ts ++ us) := by
  obtain ⟨u, hu, hopens⟩ := h'.first
  refine h.append_of_isChain h'.chain (fun s t hcloses ht ↦ ?_) h'.last
  obtain rfl := Option.some.inj (hu.symm.trans ht)
  exact precedes_of_closes hcloses hopens

/-- A separator in front of a part. -/
theorem chain_separator (h : Solid ts) (s : String) :
    (separator s :: ts).IsChain fun s t ↦ s.precedes t = true := by
  obtain ⟨t, ht, hopens⟩ := h.first
  refine List.isChain_cons.2 ⟨fun y hy ↦ ?_, h.chain⟩
  obtain rfl : t = y := Option.some.inj (ht.symm.trans hy)
  exact separator_precedes hopens

/-- Behind a part, another one may follow a comma. -/
theorem append_comma (h : Solid ts) (h' : Solid us) : Solid (ts ++ comma :: us) := by
  obtain ⟨u, hu, hend⟩ := h'.last
  refine h.append_of_isChain (h'.chain_separator _) (fun s t hcloses ht ↦ ?_) ⟨u, ?_, hend⟩
  · obtain rfl := Option.some.inj ht
    exact precedes_comma hcloses
  · rw [List.getLast?_cons, hu]
    rfl

theorem append_trailing (h : Solid ts) (h' : Trailing us) : Solid (ts ++ us) := by
  rcases h' with rfl | ⟨us, rfl, h'⟩
  · rwa [List.append_nil]
  · exact h.append_comma h'

end Solid

/-- Nothing needs no comma, and a solid list gets one. -/
theorem trailing_behindComma {ts : List Token} (h : ts = [] ∨ Solid ts) :
    Trailing (behindComma ts) := by
  rcases h with rfl | h
  · exact trailing_nil
  · cases ts with
    | nil =>
      obtain ⟨t, ht, -⟩ := h.first
      cases ht
    | cons t ts => exact h.trailing

end Token

open Token

/-! ### The tokens of operands -/

theorem Register.solid_tokens (r : Register) : Solid r.tokens := solid_singleton rfl rfl

theorem Shift.trailing_tokens (s : Shift) : Trailing s.tokens := by
  obtain ⟨kind, count⟩ := s
  cases kind with
  | none => exact trailing_nil
  | unlisted name => exact (solid_singleton rfl rfl).trailing
  | lsl | lsr | asr | ror =>
    refine Solid.trailing ⟨?_, ⟨_, rfl, rfl⟩, ⟨_, rfl, rfl⟩⟩
    simp [precedes, blank, Immediate.hexToken]

theorem Extend.trailing_tokens (e : Extend) : Trailing e.tokens := by
  obtain ⟨kind, count⟩ := e
  have hamount : Solid [amountToken count] := solid_singleton rfl rfl
  have hbehind : Trailing (if count.isTruthy then [comma, amountToken count] else []) := by
    split
    · exact hamount.trailing
    · exact trailing_nil
  have hshown : ∀ keyword, Solid ([.text keyword] ++
      if count.isTruthy then [comma, amountToken count] else []) :=
    fun _ ↦ (solid_singleton rfl rfl).append_trailing hbehind
  cases kind with
  | none => exact trailing_nil
  | unlisted name => exact (solid_singleton rfl rfl).trailing
  | lsl =>
    unfold tokens
    dsimp only
    split
    · exact ((solid_singleton rfl rfl).append_comma hamount).trailing
    · exact trailing_nil
  | uxtb | uxth | uxtw | uxtx | sxtb | sxth | sxtw | sxtx => exact (hshown _).trailing

/-- An address is solid, in whatever mode. -/
theorem Indexing.solid_addressTokens (mode : Indexing) (base : Register) {offset : List Token}
    (h : offset = [] ∨ Solid offset) : Solid (mode.addressTokens base offset) := by
  have hbase : Solid (.beginMemory :: base.tokens) :=
    ⟨by simp [Register.tokens, precedes], ⟨_, rfl, rfl⟩, ⟨_, rfl, rfl⟩⟩
  have hend : ∀ writeback, Solid [.endMemory writeback] := fun writeback ↦
    solid_singleton rfl rfl
  cases mode with
  | plain | pre => exact (hbase.append_trailing (trailing_behindComma h)).append (hend _)
  | post => exact (hbase.append (hend _)).append_trailing (trailing_behindComma h)

namespace Operand

theorem trailing_tokens {o : Operand} (h : o.isModifier = true) : Trailing o.tokens := by
  cases o with
  | shift s => exact s.trailing_tokens
  | extend e => exact e.trailing_tokens
  | _ => cases h

theorem solid_tokens {o : Operand} (h : o.isModifier = false) : Solid o.tokens := by
  cases o with
  | register r => exact r.solid_tokens
  | immediate imm => exact solid_singleton rfl rfl
  | systemRegister r => exact solid_singleton rfl rfl
  | immediateOffset a =>
    refine a.indexing.solid_addressTokens a.base ?_
    split
    · exact .inr ((solid_singleton rfl rfl).append_trailing a.shift.trailing_tokens)
    · exact .inl rfl
  | registerOffset a =>
    exact a.indexing.solid_addressTokens a.base
      (.inr (a.offset.solid_tokens.append_trailing a.extend.trailing_tokens))
  | bare => exact solid_singleton rfl rfl
  | shift | extend => cases h

end Operand

/-! ### Brackets -/

/-- The brackets of an address: only an address that is indexed before the access has the mark of
writeback. -/
def Indexing.brackets (mode : Indexing) : List Token :=
  [.beginMemory, .endMemory (mode = .pre)]

theorem Shift.filter_isBracket (s : Shift) : s.tokens.filter isBracket = [] := by
  obtain ⟨kind, count⟩ := s
  cases kind <;> rfl

theorem Extend.filter_isBracket (e : Extend) : e.tokens.filter isBracket = [] := by
  obtain ⟨kind, count⟩ := e
  cases kind <;> cases h : count.isTruthy <;> simp [tokens, h, isBracket, comma, unsupportedOperand,
    amountToken]

theorem Token.filter_isBracket_behindComma {ts : List Token} (h : ts.filter isBracket = []) :
    (behindComma ts).filter isBracket = [] := by
  unfold behindComma
  split
  · rfl
  · exact h

theorem Indexing.filter_isBracket (mode : Indexing) (base : Register) {offset : List Token}
    (h : offset.filter isBracket = []) :
    (mode.addressTokens base offset).filter isBracket = mode.brackets := by
  have hbehind := filter_isBracket_behindComma h
  cases mode <;>
    simp [addressTokens, hbehind, brackets, Register.tokens, List.filter_cons, isBracket]

/-- An address has one pair of brackets, and no other operand has any. -/
theorem Operand.filter_isBracket (o : Operand) :
    o.tokens.filter isBracket = o.indexing?.toList.flatMap Indexing.brackets := by
  cases o with
  | shift s => exact s.filter_isBracket
  | extend e => exact e.filter_isBracket
  | immediateOffset a =>
    refine (a.indexing.filter_isBracket a.base ?_).trans (List.append_nil _).symm
    split
    · exact a.shift.filter_isBracket
    · rfl
  | registerOffset a =>
    refine (a.indexing.filter_isBracket a.base ?_).trans (List.append_nil _).symm
    exact a.extend.filter_isBracket
  | register | immediate | systemRegister | bare => rfl

theorem Part.filter_isBracket (p : Part) :
    p.tokens.filter isBracket = p.indexing?.toList.flatMap Indexing.brackets := by
  cases p with
  | operand o => exact o.filter_isBracket
  | signed | decimal | word => rfl

/-! ### Placeholders -/

/-- Whether a register has a name. -/
def Register.isNamed (r : Register) : Bool := 0 ≤ r.number && r.number ≤ programNumber

/-- Whether an operand, or a part of it, has no written form: it is bare, a register whose number
has no name, or a modifier of a kind that is not listed. -/
def Operand.isUnlisted : Operand → Bool
  | register r => !r.isNamed
  | shift s => !s.kind.isListed
  | extend e => !e.kind.isListed
  | immediateOffset a => !a.base.isNamed || !a.shift.kind.isListed
  | registerOffset a => !a.base.isNamed || !a.offset.isNamed || !a.extend.kind.isListed
  | bare => true
  | immediate _ | systemRegister _ => false

/-- What starts with a letter is no placeholder. -/
theorem Token.isPlaceholder_of_startsWord {t : Token} (h : Text.startsWord t.spelling = true) :
    t.isPlaceholder = false := by
  have hnone : ∀ s ∈ placeholders, Text.startsWord s = false := by decide
  refine Bool.eq_false_iff.2 fun hplaceholder ↦ ?_
  rw [hnone _ (of_decide_eq_true hplaceholder)] at h
  cases h

/-- No number is a placeholder. -/
theorem Token.isPlaceholder_integer (s : String) : (integer ("#" ++ s)).isPlaceholder = false := by
  have hnone : ∀ s ∈ placeholders, s.toList.head? ≠ some '#' := by decide
  refine Bool.eq_false_iff.2 fun hplaceholder ↦ hnone _ (of_decide_eq_true hplaceholder) ?_
  simp [spelling]

theorem Register.startsWord_text {r : Register} (h : r.isNamed = true) :
    Text.startsWord r.text = true := by
  have hview : Text.startsWord (if isNarrow r.size then "w" else "x") = true := by
    split <;> decide
  simp only [isNamed, Bool.and_eq_true, decide_eq_true_eq] at h
  unfold text
  dsimp only
  split
  · exact Text.startsWord_append hview _
  · split
    · exact Text.startsWord_append hview _
    · split
      · split <;> decide
      · split
        · decide
        · simp only [zeroNumber, stackNumber, programNumber] at *
          omega

theorem SystemRegister.startsWord_text (r : SystemRegister) : Text.startsWord r.text = true := by
  have hgeneric : Text.startsWord r.genericName = true := by
    unfold genericName
    repeat refine Text.startsWord_append ?_ _
    decide
  have hlisted : ∀ name ∈ SystemRegisterName.listed, Text.startsWord name.spelling = true := by
    decide
  obtain ⟨name, op0, op1, crn, crm, op2⟩ := r
  cases name with
  | unknown | unlisted => exact hgeneric
  | _ => exact hlisted _ (by dsimp only; decide)

/-- Tokens of which none is a placeholder. -/
def Token.Spelled (ts : List Token) : Prop := ∀ t ∈ ts, t.isPlaceholder = false

namespace Token

theorem spelled_cons {t : Token} {ts : List Token} :
    Spelled (t :: ts) ↔ t.isPlaceholder = false ∧ Spelled ts :=
  List.forall_mem_cons

theorem spelled_append {ts us : List Token} : Spelled (ts ++ us) ↔ Spelled ts ∧ Spelled us :=
  List.forall_mem_append

theorem Spelled.behindComma {ts : List Token} (h : Spelled ts) : Spelled (behindComma ts) := by
  unfold Token.behindComma
  split
  · exact List.forall_mem_nil _
  · exact spelled_cons.2 ⟨by decide, h⟩

end Token

theorem Register.spelled_tokens {r : Register} (h : r.isNamed = true) : Spelled r.tokens :=
  List.forall_mem_singleton.2 (isPlaceholder_of_startsWord (startsWord_text h))

theorem Shift.spelled_tokens {s : Shift} (h : s.kind.isListed = true) : Spelled s.tokens := by
  obtain ⟨kind, count⟩ := s
  cases kind with
  | none => exact List.forall_mem_nil _
  | unlisted name => cases h
  | lsl | lsr | asr | ror =>
    simp only [tokens, spelled_cons]
    exact ⟨by decide, by decide, by decide, isPlaceholder_integer _, List.forall_mem_nil _⟩

theorem Extend.spelled_tokens {e : Extend} (h : e.kind.isListed = true) : Spelled e.tokens := by
  obtain ⟨kind, count⟩ := e
  have hkeyword : (Token.text kind.keyword).isPlaceholder = false := by
    cases kind with
    | unlisted name => cases h
    | _ => decide
  have hamount : Spelled [comma, amountToken count] :=
    spelled_cons.2 ⟨by decide, List.forall_mem_singleton.2 (isPlaceholder_integer _)⟩
  have hbehind : Spelled (if count.isTruthy then [comma, amountToken count] else []) := by
    split
    · exact hamount
    · exact List.forall_mem_nil _
  cases kind with
  | none => exact List.forall_mem_nil _
  | unlisted name => cases h
  | lsl =>
    unfold tokens
    dsimp only
    split
    · exact spelled_cons.2 ⟨by decide, spelled_cons.2 ⟨by decide, hamount⟩⟩
    · exact List.forall_mem_nil _
  | uxtb | uxth | uxtw | uxtx | sxtb | sxth | sxtw | sxtx =>
    exact spelled_cons.2 ⟨by decide, spelled_cons.2 ⟨hkeyword, hbehind⟩⟩

theorem Indexing.spelled_addressTokens (mode : Indexing) {base : Register} {offset : List Token}
    (hbase : base.isNamed = true) (h : Spelled offset) :
    Spelled (mode.addressTokens base offset) := by
  have hopen : Spelled (.beginMemory :: base.tokens) :=
    spelled_cons.2 ⟨by decide, Register.spelled_tokens hbase⟩
  have hend : ∀ writeback, Spelled [.endMemory writeback] := by
    intro writeback
    cases writeback <;> simp [Spelled] <;> decide
  cases mode with
  | plain | pre => exact spelled_append.2 ⟨spelled_append.2 ⟨hopen, h.behindComma⟩, hend _⟩
  | post => exact spelled_append.2 ⟨spelled_append.2 ⟨hopen, hend _⟩, h.behindComma⟩

/-- Operands that have a written form print it. -/
theorem Operand.spelled_tokens {o : Operand} (h : o.isUnlisted = false) : Spelled o.tokens := by
  cases o with
  | register r => exact Register.spelled_tokens (by simpa [isUnlisted] using h)
  | immediate imm => exact List.forall_mem_singleton.2 (isPlaceholder_integer _)
  | systemRegister r =>
    exact List.forall_mem_singleton.2 (isPlaceholder_of_startsWord r.startsWord_text)
  | shift s => exact Shift.spelled_tokens (by simpa [isUnlisted] using h)
  | extend e => exact Extend.spelled_tokens (by simpa [isUnlisted] using h)
  | immediateOffset a =>
    obtain ⟨hbase, hshift⟩ : a.base.isNamed = true ∧ a.shift.kind.isListed = true := by
      simpa [isUnlisted] using h
    refine a.indexing.spelled_addressTokens hbase ?_
    split
    · exact spelled_cons.2 ⟨isPlaceholder_integer _, Shift.spelled_tokens hshift⟩
    · exact List.forall_mem_nil _
  | registerOffset a =>
    obtain ⟨⟨hbase, hoffset⟩, hextend⟩ :
        (a.base.isNamed = true ∧ a.offset.isNamed = true) ∧ a.extend.kind.isListed = true := by
      simpa [isUnlisted] using h
    exact a.indexing.spelled_addressTokens hbase
      (spelled_append.2 ⟨Register.spelled_tokens hoffset, Extend.spelled_tokens hextend⟩)
  | bare => cases h

/-! ### Parts of a layout -/

variable {i : Instruction} {l : Layout}

theorem Part.solid_tokens {p : Part} (h : p.attaches = false) : Solid p.tokens := by
  cases p with
  | operand o => exact o.solid_tokens h
  | signed imm => exact solid_singleton rfl rfl
  | decimal n => exact solid_singleton rfl rfl
  | word s => exact solid_singleton rfl rfl

/-- A part behind another one has a comma in front, if it has any tokens. -/
theorem Part.trailing_following (p : Part) : Trailing p.segment.following := by
  unfold Segment.following
  split
  · rename_i h
    cases p with
    | operand o => exact o.trailing_tokens h
    | signed | decimal | word => cases h
  · rename_i h
    exact (solid_tokens (Bool.eq_false_iff.2 h)).trailing

/-- Parts that are joined to a solid list keep it solid. -/
theorem Token.Solid.append_following {ts : List Token} (h : Solid ts) (ps : List Part) :
    Solid (ts ++ (ps.map Part.segment).flatMap Segment.following) := by
  induction ps generalizing ts with
  | nil => simpa using h
  | cons p ps ih =>
    rw [List.map_cons, List.flatMap_cons, ← List.append_assoc]
    exact ih (h.append_trailing p.trailing_following)

theorem Part.filter_isBracket_following (p : Part) :
    p.segment.following.filter isBracket = p.indexing?.toList.flatMap Indexing.brackets := by
  rw [← p.filter_isBracket]
  unfold Segment.following
  split <;> rfl

/-- The brackets of a line are those of the addresses that it shows. -/
theorem Layout.filter_isBracket (l : Layout) :
    l.tokens.filter isBracket = (l.parts.filterMap Part.indexing?).flatMap Indexing.brackets := by
  have hfollowing : ∀ ps : List Part,
      ((ps.map Part.segment).flatMap Segment.following).filter isBracket =
        ps.flatMap fun p ↦ p.indexing?.toList.flatMap Indexing.brackets := by
    intro ps
    rw [List.filter_flatMap, List.flatMap_map]
    exact List.flatMap_congr fun p _ ↦ p.filter_isBracket_following
  rw [List.filterMap_eq_flatMap_toList, List.flatMap_assoc]
  obtain ⟨m, ps⟩ := l
  cases ps with
  | nil => rfl
  | cons p ps =>
    calc
      _ = p.tokens.filter isBracket ++
          ((ps.map Part.segment).flatMap Segment.following).filter isBracket :=
        List.filter_append ..
      _ = _ := by rw [p.filter_isBracket, hfollowing, List.flatMap_cons]

/-- A part is spelled out, if the operands of the instruction have a written form. -/
theorem Part.StemsFrom.spelled_tokens {p : Part} (hp : p.StemsFrom i)
    (h : ∀ o ∈ i.operands, o.isUnlisted = false) : Spelled p.tokens := by
  cases p with
  | operand o =>
    refine Operand.spelled_tokens ?_
    rcases hp with ho | ho
    · exact h o ho
    · cases o <;> first | rfl | cases ho
  | signed imm => exact List.forall_mem_singleton.2 (isPlaceholder_integer _)
  | decimal n => exact List.forall_mem_singleton.2 (isPlaceholder_integer _)
  | word s => exact List.forall_mem_singleton.2 (isPlaceholder_of_startsWord hp)

theorem Part.StemsFrom.spelled_following {p : Part} (hp : p.StemsFrom i)
    (h : ∀ o ∈ i.operands, o.isUnlisted = false) : Spelled p.segment.following := by
  unfold Segment.following
  split
  · exact hp.spelled_tokens h
  · exact spelled_cons.2 ⟨by decide, hp.spelled_tokens h⟩

theorem Layout.Arranges.spelled_tokens (hl : l.Arranges i)
    (h : ∀ o ∈ i.operands, o.isUnlisted = false) : Spelled l.tokens := by
  have hm := isPlaceholder_of_startsWord (t := .instruction l.mnemonic) hl.mnemonic
  have hparts := hl.parts
  obtain ⟨m, ps⟩ := l
  cases ps with
  | nil => exact List.forall_mem_singleton.2 hm
  | cons p ps =>
    obtain ⟨hp, hps⟩ := List.forall_mem_cons.1 hparts
    have hrest : Spelled ((ps.map Part.segment).flatMap Segment.following) := by
      intro t ht
      obtain ⟨s, hs, ht⟩ := List.mem_flatMap.1 ht
      obtain ⟨q, hq, rfl⟩ := List.mem_map.1 hs
      exact (hps q hq).spelled_following h t ht
    exact spelled_cons.2 ⟨hm, spelled_cons.2
      ⟨by decide, spelled_append.2 ⟨hp.spelled_tokens h, hrest⟩⟩⟩

/-! ### Lines -/

/-- The tokens of a well-formed line that shows addresses with the given indexing modes. -/
structure Token.IsLine (modes : List Indexing) (ts : List Token) : Prop where
  /-- The mnemonic comes first, and is the only one. -/
  mnemonic : ∃ m rest, ts = .instruction m :: rest ∧ ∀ t ∈ rest, t.isInstruction = false
  /-- Behind the mnemonic is a blank, or nothing. -/
  blank : ∀ t, ts[1]? = some t → t = .blank
  /-- No separator is next to another one. -/
  apart : ∀ k s s', ts[k]? = some (.separator s) → ts[k + 1]? ≠ some (.separator s')
  /-- No separator comes last. -/
  last : ∀ s, ts.getLast? ≠ some (.separator s)
  /-- Brackets are opened and closed in turn, once for every address, and closed with the mark of
  writeback where the address is indexed before the access. -/
  brackets : ts.filter isBracket = modes.flatMap Indexing.brackets
  /-- An address starts with a register. -/
  base : ∀ k, ts[k]? = some .beginMemory → ∃ s, ts[k + 1]? = some (.register s)

namespace Token

variable {ts : List Token} {modes : List Indexing}

theorem precedes_of_getElem? (h : ts.IsChain fun s t ↦ s.precedes t = true) {k : Nat}
    {s t : Token} (hs : ts[k]? = some s) (ht : ts[k + 1]? = some t) : s.precedes t = true := by
  obtain ⟨hk, rfl⟩ := List.getElem?_eq_some_iff.1 ht
  obtain ⟨_, rfl⟩ := List.getElem?_eq_some_iff.1 hs
  exact List.isChain_iff_getElem.1 h k hk

/-- Tokens make a line if they fit one behind the other, the first is a mnemonic with a blank or
nothing behind it, and the last ends a part. -/
theorem isLine_of_isChain {m : String}
    (h : (instruction m :: ts).IsChain fun s t ↦ s.precedes t = true)
    (hblank : ∀ t, ts.head? = some t → t = .blank)
    (hlast : ∃ t, (instruction m :: ts).getLast? = some t ∧ t.closes = true)
    (hbrackets : ts.filter isBracket = modes.flatMap Indexing.brackets) :
    IsLine modes (instruction m :: ts) := by
  obtain ⟨u, hu, hcloses⟩ := hlast
  refine ⟨⟨m, ts, rfl, fun t ht ↦ ?_⟩, fun t ht ↦ hblank t ?_, fun k s s' hs hs' ↦ ?_,
    fun s hs ↦ ?_, hbrackets, fun k hk ↦ ?_⟩
  · obtain ⟨k, hk, rfl⟩ := List.getElem_of_mem ht
    have hprecedes := List.isChain_iff_getElem.1 h k (by simpa using hk)
    rw [List.getElem_cons_succ] at hprecedes
    cases hinstruction : ts[k] <;> simp_all [precedes, isInstruction]
  · simpa [List.head?_eq_getElem?] using ht
  · cases precedes_of_getElem? h hs hs'
  · obtain rfl := Option.some.inj (hu.symm.trans hs)
    cases hcloses
  · cases hnext : (instruction m :: ts)[k + 1]? with
    | none =>
      -- The bracket would be the last token, and a bracket that opens ends no part.
      have hend : (instruction m :: ts).length = k + 1 := by
        have hlt := (List.getElem?_eq_some_iff.1 hk).1
        have hle := List.getElem?_eq_none_iff.1 hnext
        omega
      rw [List.getLast?_eq_getElem?, hend, Nat.add_sub_cancel, hk] at hu
      obtain rfl := Option.some.inj hu
      cases hcloses
    | some t =>
      have hprecedes := precedes_of_getElem? h hk hnext
      cases t with
      | register s => exact ⟨s, rfl⟩
      | _ => cases hprecedes

end Token

/-- The tokens of a layout make a line, unless it starts with a modifier. -/
theorem Layout.isLine (l : Layout) (hfirst : l.parts.head?.any Part.attaches = false) :
    IsLine (l.parts.filterMap Part.indexing?) l.tokens := by
  have hbrackets := l.filter_isBracket
  obtain ⟨m, ps⟩ := l
  cases ps with
  | nil =>
    exact isLine_of_isChain (List.isChain_singleton _) (by simp) ⟨_, rfl, rfl⟩ hbrackets
  | cons p ps =>
    have hsolid := (p.solid_tokens (by simpa using hfirst)).append_following ps
    obtain ⟨t, ht, hcloses⟩ := hsolid.last
    refine isLine_of_isChain ?_ (by simp) ⟨t, ?_, hcloses⟩ hbrackets
    · exact List.isChain_cons.2 ⟨by simp [precedes, blank], hsolid.chain_separator _⟩
    · show (_ :: blank :: (p.tokens ++ _)).getLast? = some t
      rw [List.getLast?_cons, List.getLast?_cons, ht]
      rfl

/-- **What a family prints is a well-formed line.** If the first operand is no modifier, the tokens
make a line whose brackets belong to addresses among the operands, in the order of those. A
placeholder is among the tokens only if some operand is bare, or holds a register without a name or
a modifier of a kind that is not listed. -/
theorem Instruction.isLine_tokens {f : Family} {ts : List Token}
    (hfamily : i.operation.family? = some f) (hts : i.tokens = .ok ts)
    (hfirst : i.operands.head?.any Operand.isModifier = false) :
    (∃ modes, modes.Sublist (i.operands.filterMap Operand.indexing?) ∧ IsLine modes ts) ∧
      ∀ t ∈ ts, t.isPlaceholder = true → ∃ o ∈ i.operands, o.isUnlisted = true := by
  obtain ⟨n, hn, -⟩ := Option.bind_eq_some_iff.1 hfamily
  rw [tokens_of_number? hn, hfamily] at hts
  dsimp only [Family.tokens] at hts
  split at hts
  · rename_i l hl
    obtain ⟨-, rfl⟩ := Layout.print_eq_ok_iff.1 hts
    have harranges := f.arranges hl
    have hhead : l.parts.head?.any Part.attaches = false := by
      refine Bool.eq_false_iff.2 fun hattaches ↦ ?_
      rw [harranges.head hattaches] at hfirst
      cases hfirst
    refine ⟨⟨_, harranges.addresses, l.isLine hhead⟩, fun t ht hplaceholder ↦ ?_⟩
    by_contra hlisted
    have hspelled := harranges.spelled_tokens
      (fun o ho ↦ Bool.eq_false_iff.2 fun h ↦ hlisted ⟨o, ho, h⟩) t ht
    rw [hspelled] at hplaceholder
    cases hplaceholder
  · cases hts

/-- A move to a system register with operands of many kinds, which are shown unchecked. -/
def crowdedMove : Instruction where
  operation := .named (.system .msr)
  operands := [.register ⟨1, .int 64⟩,
    .immediateOffset ⟨⟨2, .int 64⟩, .halfword 8, {}, .bool true, .bool false, .int 64⟩,
    .shift ⟨.lsl, .int 3⟩,
    .registerOffset ⟨⟨32, .int 64⟩, ⟨4, .int 32⟩, ⟨.uxtw, .int 0⟩, .bool true, .bool true, .int 64⟩,
    .bare]

/-- Both addresses have their brackets, and the placeholder comes from the bare operand. -/
theorem Instruction.isLine_tokens_crowdedMove :
    crowdedMove.operation.family? = some .system ∧
      crowdedMove.operands.head?.any Operand.isModifier = false ∧
      crowdedMove.operands.filterMap Operand.indexing? = [.pre, .post] ∧
      crowdedMove.text =
        .ok "msr x1, [x2, #0x8]!, lsl #0x3, [sp], w4, uxtw, <unsupported_opnd>" ∧
      ∃ ts, crowdedMove.tokens = .ok ts ∧ unsupportedOperand ∈ ts ∧
        (∃ modes, modes.Sublist (crowdedMove.operands.filterMap Operand.indexing?) ∧
          IsLine modes ts) ∧
        ∃ o ∈ crowdedMove.operands, o.isUnlisted = true := by
  have htokens : crowdedMove.tokens = .ok [.instruction "msr", .blank, .register "x1", .comma,
      .beginMemory, .register "x2", .comma, .integer "#0x8", .endMemory true, .comma, .text "lsl",
      .blank, .integer "#0x3", .comma, .beginMemory, .register "sp", .endMemory false, .comma,
      .register "w4", .comma, .text "uxtw", .comma, .unsupportedOperand] := by
    decide +kernel
  have hline := isLine_tokens (f := .system) (by decide +kernel) htokens (by decide +kernel)
  exact ⟨by decide +kernel, by decide +kernel, by decide +kernel, by decide +kernel, _, htokens,
    by decide, hline.1, hline.2 .unsupportedOperand (by decide) (by decide)⟩

end A64Text
