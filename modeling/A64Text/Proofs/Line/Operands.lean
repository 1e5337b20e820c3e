import A64Text.Proofs.Line.Reading

/-!
# What operands print is read as their reading

One lemma for each kind of operand. The texts of registers are finitely many, so what is needed of
them is looked up; a system register that has no name of its own prints its fields, which are digits
inside a word.
-/

namespace A64Text

open Line

/-! ### Names -/

theorem IsName.spellsTerm {s : String} (h : IsName s) :
    SpellsTerm s.toList ⟨some (Text.lowerAscii s), none⟩ :=
  h.2 ▸ spellsTerm_word h.1

/-- The texts that registers have. -/
def Register.texts : List String :=
  ["xzr", "wzr", "sp", "wsp", "pc", unsupported] ++
    (List.range 31).flatMap fun k : Nat ↦ ["w" ++ Numeral.decimal k, "x" ++ Numeral.decimal k]

theorem Register.text_mem (r : Register) : r.text ∈ texts := by
  unfold text
  dsimp only
  split
  · rename_i h
    obtain ⟨k, hk⟩ := Int.eq_ofNat_of_zero_le h.1
    have hlt : k < 31 := by
      have := h.2
      rw [zeroNumber] at this
      omega
    rw [hk]
    refine List.mem_append_right _ (List.mem_flatMap.2 ⟨k, List.mem_range.2 hlt, ?_⟩)
    split <;> simp
  · have hrest : ∀ s ∈ ["xzr", "wzr", "sp", "wsp", "pc", unsupported], s ∈ texts :=
      fun s hs ↦ List.mem_append_left _ hs
    split
    · split
      · exact hrest "wzr" (by decide)
      · exact hrest "xzr" (by decide)
    · split
      · split
        · exact hrest "wsp" (by decide)
        · exact hrest "sp" (by decide)
      · split
        · exact hrest "pc" (by decide)
        · exact hrest unsupported (by decide)

/-- The text of a register is a word that reading keeps. -/
theorem Register.spellsTerm (r : Register) : SpellsTerm r.text.toList r.reading := by
  have hall : ∀ s ∈ texts, Lexeme.IsWord s.toList ∧ normalName s.toList = s := by decide
  obtain ⟨hword, hname⟩ := hall r.text r.text_mem
  have hterm := spellsTerm_word hword
  rwa [hname] at hterm

/-- No register is called like a modifier. -/
theorem Register.fuse?_reading (r : Register) (t : Term) : r.reading.fuse? t = none := by
  have hall : ∀ s ∈ texts, modifierKeywords.contains s = false := by decide
  have hbare : r.reading.isBareModifier = false := hall r.text r.text_mem
  rw [Term.fuse?, hbare, Bool.false_and]
  rfl

/-- The generic form of a system register without negative fields is a name. -/
theorem SystemRegister.isName_genericName {r : SystemRegister} (h : r.hasNaturals = true) :
    IsName r.genericName := by
  simp only [hasNaturals, Bool.and_eq_true, Json.isNatural_iff] at h
  obtain ⟨⟨⟨⟨⟨op0, h0⟩, op1, h1⟩, crn, hn⟩, crm, hm⟩, op2, h2⟩ := h
  have hlist : r.genericName.toList = 'S' :: ((Numeral.decimal op0).toList ++ '_' ::
      ((Numeral.decimal op1).toList ++ '_' :: 'C' :: ((Numeral.decimal crn).toList ++ '_' :: 'C' ::
        ((Numeral.decimal crm).toList ++ '_' :: (Numeral.decimal op2).toList)))) := by
    simp [genericName, h0, h1, hn, hm, h2]
  refine isName_of_toList hlist (by decide) (by decide) ?_
  intro c hc
  simp only [List.mem_append, List.mem_cons] at hc
  rcases hc with hc | rfl | hc | rfl | rfl | hc | rfl | rfl | hc | rfl | hc
  all_goals first | exact isWordPart_of_mem_decimal hc | decide

theorem SystemRegister.isName_text {r : SystemRegister} (h : r.hasNaturals = true) :
    IsName r.text := by
  rw [text]
  split
  · exact isName_genericName h
  · exact isName_genericName h
  · rename_i hunknown hunlisted
    cases hname : r.name
    case unknown => exact absurd hname hunknown
    case unlisted name => exact absurd hname (hunlisted name)
    all_goals decide

/-! ### Modifiers -/

theorem spellsTerm_placeholder : SpellsTerm "<unsupported_opnd>".toList placeholderTerm :=
  spellsTerm_word (by decide)

/-- A placeholder behind its comma. -/
theorem follows_placeholder :
    Follows SpellsTerms (Token.chars [.comma, .unsupportedOperand]) [placeholderTerm] :=
  .inr ⟨_, rfl, spellsTerm_placeholder.spellsTerms⟩

/-- A text that is one word, which reading keeps. -/
def IsKeyword (s : String) : Prop := Lexeme.IsWord s.toList ∧ normalName s.toList = s

instance (s : String) : Decidable (IsKeyword s) := inferInstanceAs (Decidable (_ ∧ _))

theorem IsKeyword.spellsTerm {s : String} (h : IsKeyword s) :
    SpellsTerm s.toList ⟨some s, none⟩ := by
  have hterm := spellsTerm_word h.1
  rwa [h.2] at hterm

/-- A shift prints its keyword and its amount as one term. -/
theorem Shift.follows {s : Shift} (h : s.hasIntegers = true) :
    Follows SpellsTerms (Token.chars s.tokens) s.reading := by
  obtain ⟨kind, count⟩ := s
  obtain ⟨n, rfl⟩ := Json.isInt_iff.1 h
  have hlisted : ∀ keyword : String, IsKeyword keyword →
      Follows SpellsTerms
        (Token.chars [.comma, .text keyword, .blank, Immediate.hexToken n])
        [⟨some keyword, some n⟩] := by
    intro keyword hkeyword
    have hterm := spellsTerm_amount hkeyword.1 (Lexeme.spellsNumber_hex n)
    rw [hkeyword.2] at hterm
    refine .inr ⟨_, ?_, hterm.spellsTerms⟩
    simp [Immediate.hexToken]
  cases kind with
  | none => exact .inl ⟨rfl, rfl⟩
  | unlisted name => exact follows_placeholder
  | lsl => exact hlisted "lsl" (by decide)
  | lsr => exact hlisted "lsr" (by decide)
  | asr => exact hlisted "asr" (by decide)
  | ror => exact hlisted "ror" (by decide)

theorem ExtendKind.isKeyword {k : ExtendKind} (hnone : k ≠ .none) (hlisted : k.isListed = true) :
    IsKeyword k.keyword ∧ modifierKeywords.contains k.keyword = true := by
  cases k
  case none => exact absurd rfl hnone
  case unlisted name => cases hlisted
  all_goals decide

/-- A keyword behind its comma. -/
theorem follows_keyword {keyword : String} (h : IsKeyword keyword) :
    Follows SpellsTerms (Token.chars [.comma, .text keyword]) [⟨some keyword, none⟩] := by
  refine .inr ⟨keyword.toList, ?_, h.spellsTerm.spellsTerms⟩
  simp

/-- A keyword and its amount behind commas of their own fuse to one term. -/
theorem follows_keyword_amount {keyword : String} (h : IsKeyword keyword)
    (hmodifier : modifierKeywords.contains keyword = true) (n : Int) :
    Follows SpellsTerms (Token.chars [.comma, .text keyword, .comma, Extend.amountToken (.int n)])
      [⟨some keyword, some n⟩] := by
  have hnumber := spellsTerm_immediate (Lexeme.spellsNumber_decimal n)
  refine .inr ⟨commaJoin keyword.toList ('#' :: (Numeral.decimal n).toList), ?_,
    [⟨some keyword, none⟩, ⟨none, some n⟩], h.spellsTerm.readsTerms.commaJoin hnumber.readsTerms,
    h.spellsTerm.readsItems.commaJoin hnumber.readsItems, fusesAlike_amount hmodifier n,
    fusesAlike_amount_items hmodifier n⟩
  simp [Extend.amountToken, commaJoin]

/-- An extend prints as its reading, up to fusing. -/
theorem Extend.follows {e : Extend} (h : e.hasIntegers = true) :
    Follows SpellsTerms (Token.chars e.tokens) e.reading := by
  obtain ⟨kind, count⟩ := e
  obtain ⟨n, rfl⟩ := Json.isInt_iff.1 h
  by_cases hnone : kind = .none
  · subst hnone
    exact .inl ⟨rfl, rfl⟩
  by_cases hlisted : kind.isListed = true
  · obtain ⟨hkeyword, hmodifier⟩ := ExtendKind.isKeyword hnone hlisted
    by_cases hn : n = 0
    · subst hn
      by_cases hlsl : kind = .lsl
      · subst hlsl
        exact .inl ⟨rfl, rfl⟩
      · have hbare : tokens ⟨kind, .int 0⟩ = [.comma, .text kind.keyword] ∧
            reading ⟨kind, .int 0⟩ = [⟨some kind.keyword, none⟩] := by
          cases kind <;> first | exact ⟨rfl, rfl⟩ | exact absurd rfl hnone | exact absurd rfl hlsl |
            cases hlisted
        rw [hbare.1, hbare.2]
        exact follows_keyword hkeyword
    · have hamount : tokens ⟨kind, .int n⟩ =
            [.comma, .text kind.keyword, .comma, amountToken (.int n)] ∧
          reading ⟨kind, .int n⟩ = [⟨some kind.keyword, some n⟩] := by
        have htruthy : (Json.int n).isTruthy = true := by simp [Json.isTruthy, hn]
        cases kind <;> simp_all [tokens, reading, ExtendKind.keyword, ExtendKind.isListed]
      rw [hamount.1, hamount.2]
      exact follows_keyword_amount hkeyword hmodifier n
  · cases kind
    case unlisted name => exact follows_placeholder
    all_goals exact absurd rfl hlisted

/-! ### Addresses -/

/-- The text of an address: the base between brackets, and the offset inside or behind them. -/
theorem Indexing.chars_addressTokens (mode : Indexing) (base : Register) (offset : List Token) :
    Token.chars (mode.addressTokens base offset) =
      match mode with
      | plain => '[' :: (base.text.toList ++ Token.chars (Token.behindComma offset)) ++ closing false
      | pre => '[' :: (base.text.toList ++ Token.chars (Token.behindComma offset)) ++ closing true
      | post => '[' :: base.text.toList ++ closing false ++
          Token.chars (Token.behindComma offset) := by
  cases mode <;> simp [addressTokens, Register.tokens, Token.spelling, closing]

/-- A term that takes nothing stays as it is in front of others. -/
theorem fuseTerms_cons {t : Term} (h : ∀ u, t.fuse? u = none) (us : List Term) :
    fuseTerms (t :: us) = t :: fuseTerms us :=
  coalesceFrom_of_none h us

theorem Shift.fuseTerms_reading (s : Shift) : fuseTerms s.reading = s.reading := by
  rw [reading]
  split <;> rfl

theorem Extend.fuseTerms_reading (e : Extend) : fuseTerms e.reading = e.reading := by
  rw [reading]
  split
  · rfl
  · rfl
  · split <;> rfl
  · split <;> rfl

/-- An address is read with its offset, if no term of it fuses with another. -/
theorem Indexing.readsAs (mode : Indexing) (base : Register) {offset : List Token}
    {terms : List Term}
    (hoffset : Follows SpellsTerms (Token.chars (Token.behindComma offset)) terms)
    (hfused : fuseTerms (base.reading :: terms) = base.reading :: terms) :
    ReadsAs (Token.chars (mode.addressTokens base offset)) (mode.reading base terms) := by
  have hbase := base.spellsTerm.spellsTerms
  rw [chars_addressTokens]
  cases mode with
  | plain => exact (hbase.append hoffset).memory hfused false
  | pre => exact (hbase.append hoffset).memory hfused true
  | post =>
    have hmemory := hbase.memory rfl false
    exact hmemory.append (hoffset.mono fun _ _ h ↦ h.readsAs)

theorem ImmediateOffset.readsAs {a : ImmediateOffset} (hshift : a.shift.hasIntegers = true) :
    ReadsAs (Token.chars a.tokens) a.reading := by
  rw [tokens, reading]
  split
  · refine a.indexing.readsAs a.base ?_ ?_
    · have hoffset := (spellsTerm_immediate (Lexeme.spellsNumber_hex a.offset.signed)).spellsTerms
      refine .inr ⟨_, ?_, hoffset.append (Shift.follows hshift)⟩
      rw [Token.chars_behindComma (by simp [Immediate.signedTokens])]
      simp [Immediate.signedTokens, Immediate.hexToken]
    · rw [fuseTerms_cons a.base.fuse?_reading, fuseTerms_cons fun u ↦ ?_, a.shift.fuseTerms_reading]
      rfl
  · exact a.indexing.readsAs a.base (.inl ⟨rfl, rfl⟩) rfl

theorem RegisterOffset.readsAs {a : RegisterOffset} (hextend : a.extend.hasIntegers = true) :
    ReadsAs (Token.chars a.tokens) a.reading := by
  refine a.indexing.readsAs a.base ?_ ?_
  · have hoffset := a.offset.spellsTerm.spellsTerms
    refine .inr ⟨_, ?_, hoffset.append (Extend.follows hextend)⟩
    rw [Token.chars_behindComma (by simp [Register.tokens])]
    simp [Register.tokens]
  · rw [fuseTerms_cons a.base.fuse?_reading, fuseTerms_cons a.offset.fuse?_reading,
      a.extend.fuseTerms_reading]

/-! ### Operands -/

/-- An operand that is no modifier is read as its reading. -/
theorem Operand.readsAs {o : Operand} (h : o.hasIntegers = true) (hnat : o.hasNaturals = true)
    (hmodifier : o.isModifier = false) : ReadsAs (Token.chars o.tokens) o.reading := by
  cases o with
  | register r =>
    simpa [tokens, Register.tokens, reading] using r.spellsTerm.spellsTerms.readsAs
  | immediate imm =>
    have hterm := spellsTerm_immediate (Lexeme.spellsNumber_hex imm.value)
    simpa [tokens, Immediate.tokens, Immediate.hexToken, reading] using hterm.spellsTerms.readsAs
  | systemRegister r =>
    have hterm := (SystemRegister.isName_text hnat).spellsTerm
    simpa [tokens, SystemRegister.tokens, reading, SystemRegister.reading]
      using hterm.spellsTerms.readsAs
  | shift s => cases hmodifier
  | extend e => cases hmodifier
  | immediateOffset a =>
    simp only [hasIntegers, ImmediateOffset.hasIntegers, Bool.and_eq_true] at h
    exact ImmediateOffset.readsAs h.1.2
  | registerOffset a =>
    simp only [hasIntegers, RegisterOffset.hasIntegers, Bool.and_eq_true] at h
    exact RegisterOffset.readsAs h.1.2
  | bare =>
    simpa [tokens, Token.unsupportedOperand, reading] using spellsTerm_placeholder.spellsTerms.readsAs

/-- A modifier follows as its reading. -/
theorem Operand.follows {o : Operand} (h : o.hasIntegers = true) (hmodifier : o.isModifier = true) :
    Follows ReadsAs (Token.chars o.tokens) o.reading := by
  cases o with
  | shift s => exact (Shift.follows h).mono fun _ _ hs ↦ hs.readsAs
  | extend e => exact (Extend.follows h).mono fun _ _ he ↦ he.readsAs
  | _ => cases hmodifier

end A64Text
