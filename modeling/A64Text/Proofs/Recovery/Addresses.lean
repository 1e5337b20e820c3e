import A64Text.Proofs.Recovery.Slots

/-!
# Addresses

The text of an address tells which access it is of (`Operand.sameAccess_of_text`). Two addresses of
the architecture that print alike have both an immediate offset or both a register offset; they have
one base register, one indexing mode, and one offset; and they have one modifier, as far as it does
something and is shown (`Operand.SameAccess`).

Addresses that print alike are read alike, and nothing in a reading fuses, so the readings are
equal. A reading shows the indexing mode by the place of the offset and by the mark of writeback,
which is enough because a post-indexed address never leaves its offset out
(`Indexing.reading_inj`).
-/

namespace A64Text

open Line

/-! ### Access -/

/-- An address with registers and a shift of the architecture, and with integers in its offset. -/
structure ImmediateOffset.IsGeneral (a : ImmediateOffset) : Prop where
  base : a.base.IsGeneral
  offset : a.offset.hasIntegers = true
  shift : a.shift.kind.isListed = true
  amount : a.shift.hasIntegers = true

/-- An address with registers and an extend of the architecture, and an integer as its amount. -/
structure RegisterOffset.IsGeneral (a : RegisterOffset) : Prop where
  base : a.base.IsGeneral
  offset : a.offset.IsGeneral
  extend : a.extend.kind.isListed = true
  amount : a.extend.hasIntegers = true

/-- An operand that is an address of the architecture. -/
def Operand.IsAddress : Operand → Prop
  | immediateOffset a => a.IsGeneral
  | registerOffset a => a.IsGeneral
  | _ => False

/-- Two addresses with immediate offsets that are of one access. What was given for the flags and
for the access size does not matter beyond the indexing mode, and neither does the width of the
field of the offset, nor its bits above that. -/
structure ImmediateOffset.SameAccess (a b : ImmediateOffset) : Prop where
  base : a.base.number = b.base.number ∧ a.base.size = b.base.size
  indexing : a.indexing = b.indexing
  offset : a.offset.signed = b.offset.signed
  /-- The shifts are one, or are of no kind, if they are shown. -/
  shift : a.indexing = .plain ∧ a.offset.value = 0 ∧ b.offset.value = 0 ∨
    a.shift.kind = b.shift.kind ∧ (a.shift.kind ≠ .none → a.shift.count = b.shift.count)

/-- Two addresses with register offsets that are of one access. -/
structure RegisterOffset.SameAccess (a b : RegisterOffset) : Prop where
  base : a.base.number = b.base.number ∧ a.base.size = b.base.size
  indexing : a.indexing = b.indexing
  offset : a.offset.number = b.offset.number ∧ a.offset.size = b.offset.size
  /-- The extends are one, or do nothing. -/
  extend : a.extend.isTrivial = true ∧ b.extend.isTrivial = true ∨
    a.extend.kind = b.extend.kind ∧ a.extend.count = b.extend.count

/-- Two addresses of one access. -/
def Operand.SameAccess : Operand → Operand → Prop
  | immediateOffset a, immediateOffset b => a.SameAccess b
  | registerOffset a, registerOffset b => a.SameAccess b
  | _, _ => False

/-! ### Readings of addresses -/

/-- No term of an address fuses with another, if none of its offset does. -/
theorem Indexing.fuseItems_reading (mode : Indexing) (base : Register) {terms : List Term}
    (h : fuseTerms terms = terms) :
    fuseItems (mode.reading base terms) = mode.reading base terms := by
  cases mode with
  | plain => rfl
  | pre => rfl
  | post =>
    show coalesceFrom Item.fuse? (.memory [base.reading] false) (terms.map .term) = _
    rw [coalesceFrom_of_none fun _ ↦ rfl]
    exact congrArg _ ((fuseItems_map_term terms).trans (congrArg _ h))

/-- The reading of an address shows the indexing mode, the base and the terms of the offset, if a
post-indexed address has an offset. -/
theorem Indexing.reading_inj {mode mode' : Indexing} {base base' : Register}
    {terms terms' : List Term} (h : mode = .post → terms ≠ []) (h' : mode' = .post → terms' ≠ [])
    (heq : mode.reading base terms = mode'.reading base' terms') :
    mode = mode' ∧ base.reading = base'.reading ∧ terms = terms' := by
  have hterms : Function.Injective (List.map Item.term) :=
    List.map_injective_iff.2 fun t u htu ↦ Item.term.inj htu
  cases mode <;> cases mode' <;>
    simp only [reading, List.cons.injEq, Item.memory.injEq, List.nil_eq, List.map_eq_nil_iff,
      reduceCtorEq, and_false, false_and, and_true] at heq
  case plain.plain => exact ⟨rfl, heq⟩
  case pre.pre => exact ⟨rfl, heq⟩
  case post.post => exact ⟨rfl, heq.1, hterms heq.2⟩
  case plain.post => exact absurd heq.2 (h' rfl)
  case post.plain => exact absurd heq.2 (h rfl)

namespace ImmediateOffset

/-- The terms of an offset: none if it is not shown. -/
def offsetTerms (a : ImmediateOffset) : List Term :=
  if a.showsOffset then ⟨none, some a.offset.signed⟩ :: a.shift.reading else []

theorem fuseTerms_offsetTerms (a : ImmediateOffset) : fuseTerms a.offsetTerms = a.offsetTerms := by
  rw [offsetTerms]
  split
  · rw [fuseTerms_cons fun u ↦ rfl, a.shift.fuseTerms_reading]
  · rfl

/-- An address that is written back shows its offset. -/
theorem showsOffset_of_indexing {a : ImmediateOffset} (h : a.indexing ≠ .plain) :
    a.showsOffset = true := by
  have hwriteback : a.writeback.isTruthy = true := by
    by_contra hnot
    rw [indexing, Indexing.ofFlags, if_neg hnot] at h
    exact h rfl
  rw [showsOffset, hwriteback, Bool.or_true]

/-- An offset that is not shown is zero. -/
theorem value_of_not_showsOffset {a : ImmediateOffset} (ha : a.offset.hasIntegers = true)
    (h : a.showsOffset = false) :
    a.indexing = .plain ∧ a.offset.value = 0 ∧ a.offset.signed = 0 := by
  have hplain : a.indexing = .plain := by
    by_contra hne
    rw [showsOffset_of_indexing hne] at h
    cases h
  have hvalue : a.offset.value = 0 := by
    rw [showsOffset, Immediate.given_eq_value ha, Number.isZero_int, Bool.or_eq_false_iff] at h
    simpa using h.1
  refine ⟨hplain, hvalue, ?_⟩
  simp [Immediate.signed, Immediate.isNegative, hvalue]

/-- A post-indexed address has an offset. -/
theorem offsetTerms_ne_nil (a : ImmediateOffset) (h : a.indexing = .post) : a.offsetTerms ≠ [] := by
  rw [offsetTerms, showsOffset_of_indexing (by simp [h]), if_pos rfl]
  exact List.cons_ne_nil _ _

end ImmediateOffset

theorem RegisterOffset.fuseTerms_offset (a : RegisterOffset) :
    fuseTerms (a.offset.reading :: a.extend.reading) = a.offset.reading :: a.extend.reading := by
  rw [fuseTerms_cons a.offset.fuse?_reading, a.extend.fuseTerms_reading]

/-- Addresses of the architecture that print alike have equal readings. -/
theorem Operand.IsAddress.reading_eq {p q : Operand} (hp : p.IsAddress) (hq : q.IsAddress)
    (h : p.text = q.text) : p.reading = q.reading := by
  have hreads : ∀ {o : Operand}, o.IsAddress →
      ReadsAs o.text.toList o.reading ∧ fuseItems o.reading = o.reading := by
    intro o ho
    cases o with
    | immediateOffset a =>
      exact ⟨ImmediateOffset.readsAs ho.amount,
        a.indexing.fuseItems_reading a.base a.fuseTerms_offsetTerms⟩
    | registerOffset a =>
      exact ⟨RegisterOffset.readsAs ho.amount,
        a.indexing.fuseItems_reading a.base a.fuseTerms_offset⟩
    | _ => cases ho
  obtain ⟨hpreads, hpfused⟩ := hreads hp
  obtain ⟨hqreads, hqfused⟩ := hreads hq
  rw [h] at hpreads
  rw [← hpfused, ← hqfused, hpreads.fuseItems_eq hqreads]

/-! ### Texts of addresses -/

theorem Token.concat_behindComma {ts : List Token} (h : ts ≠ []) :
    concat (behindComma ts) = ", " ++ concat ts := by
  obtain ⟨t, ts, rfl⟩ := List.exists_cons_of_ne_nil h
  rfl

theorem Indexing.concat_post (base : Register) {offset : List Token} (h : offset ≠ []) :
    Token.concat (post.addressTokens base offset) =
      "[" ++ base.text ++ "], " ++ Token.concat offset := by
  have hclose : ∀ s : String, "]" ++ (", " ++ s) = "], " ++ s :=
    fun s ↦ (@String.append_assoc "]" ", " s).symm
  simp [addressTokens, Token.concat_behindComma h, Register.tokens, Token.spelling, hclose,
    String.append_assoc]

theorem Indexing.concat_pre (base : Register) {offset : List Token} (h : offset ≠ []) :
    Token.concat (pre.addressTokens base offset) =
      "[" ++ base.text ++ ", " ++ Token.concat offset ++ "]!" := by
  simp [addressTokens, Token.concat_behindComma h, Register.tokens, Token.spelling,
    String.append_assoc]

/-- The tokens of an address that is written back are those of its offset too. -/
theorem ImmediateOffset.tokens_of_indexing {a : ImmediateOffset} (h : a.indexing ≠ .plain) :
    a.tokens = a.indexing.addressTokens a.base (a.offset.signedTokens ++ a.shift.tokens) := by
  rw [tokens, showsOffset_of_indexing h, if_pos rfl]

theorem Register.IsGeneral.fault?_eq_none {r : Register} (h : r.IsGeneral) : r.fault? = none := by
  refine Register.fault?_eq_none ?_
  obtain ⟨-, hsize | hsize⟩ := h <;> rw [hasIntegers, hsize] <;> rfl

/-- Addresses of the architecture print. -/
theorem Operand.IsAddress.fault?_eq_none {p : Operand} (h : p.IsAddress) : p.fault? = none := by
  cases p with
  | immediateOffset a =>
    simp [fault?, ImmediateOffset.fault?, h.base.fault?_eq_none, Shift.fault?_eq_none h.amount,
      Immediate.signedFault?_eq_none h.offset]
  | registerOffset a =>
    simp [fault?, RegisterOffset.fault?, h.base.fault?_eq_none, h.offset.fault?_eq_none]
  | _ => cases h

/-! ### Addresses that print alike -/

theorem ImmediateOffset.sameAccess_of_reading_eq {a b : ImmediateOffset} (ha : a.IsGeneral)
    (hb : b.IsGeneral) (h : a.reading = b.reading) : a.SameAccess b := by
  obtain ⟨hindexing, hbase, hterms⟩ :=
    Indexing.reading_inj a.offsetTerms_ne_nil b.offsetTerms_ne_nil h
  have hregister := Register.eq_of_reading ha.base hb.base hbase
  cases hashows : a.showsOffset <;> cases hbshows : b.showsOffset <;>
    simp only [offsetTerms, hashows, hbshows, if_true, if_false, Bool.false_eq_true,
      reduceCtorEq, List.cons.injEq, Term.mk.injEq, Option.some.injEq, true_and] at hterms
  · obtain ⟨hplain, hvalue, hsigned⟩ := value_of_not_showsOffset ha.offset hashows
    obtain ⟨-, hvalue', hsigned'⟩ := value_of_not_showsOffset hb.offset hbshows
    exact ⟨hregister, hindexing, hsigned.trans hsigned'.symm, .inl ⟨hplain, hvalue, hvalue'⟩⟩
  · exact ⟨hregister, hindexing, hterms.1, .inr (Shift.agree_of_reading ha.shift hb.shift ha.amount
      hb.amount (congrArg modifierArgs hterms.2))⟩

theorem RegisterOffset.sameAccess_of_reading_eq {a b : RegisterOffset} (ha : a.IsGeneral)
    (hb : b.IsGeneral) (h : a.reading = b.reading) : a.SameAccess b := by
  obtain ⟨hindexing, hbase, hterms⟩ :=
    Indexing.reading_inj (fun _ ↦ List.cons_ne_nil _ _) (fun _ ↦ List.cons_ne_nil _ _) h
  obtain ⟨hoffset, hextend⟩ := List.cons.inj hterms
  exact ⟨Register.eq_of_reading ha.base hb.base hbase, hindexing,
    Register.eq_of_reading ha.offset hb.offset hoffset,
    Extend.agree_of_reading ha.extend hb.extend ha.amount hb.amount
      (congrArg modifierArgs hextend)⟩

/-- An immediate offset is not read as a register. -/
theorem Indexing.reading_ne {a : ImmediateOffset} {b : RegisterOffset} : a.reading ≠ b.reading := by
  intro h
  obtain ⟨-, -, hterms⟩ :=
    Indexing.reading_inj a.offsetTerms_ne_nil (fun _ ↦ List.cons_ne_nil _ _) h
  cases hshows : a.showsOffset <;>
    simp [ImmediateOffset.offsetTerms, hshows, Register.reading] at hterms

/-- Addresses of the architecture that print alike are of one access. -/
theorem Operand.IsAddress.sameAccess {p q : Operand} (hp : p.IsAddress) (hq : q.IsAddress)
    (h : p.text = q.text) : p.SameAccess q := by
  have hreading := hp.reading_eq hq h
  cases p with
  | immediateOffset a =>
    cases q with
    | immediateOffset b => exact ImmediateOffset.sameAccess_of_reading_eq hp hq hreading
    | registerOffset b => exact absurd hreading Indexing.reading_ne
    | _ => cases hq
  | registerOffset a =>
    cases q with
    | immediateOffset b => exact absurd hreading.symm Indexing.reading_ne
    | registerOffset b => exact RegisterOffset.sameAccess_of_reading_eq hp hq hreading
    | _ => cases hq
  | _ => cases hp

/-- The text of an address of the architecture determines the access. Two addresses that print alike
have the same kind of offset, base register, indexing mode and offset, and the same modifier as far
as it does something and is shown. Every address of the architecture prints. If the base is written
back, the offset is printed always: behind the closing bracket if the address is post-indexed, and
inside of the brackets, with the mark of writeback behind them, if it is pre-indexed. -/
theorem Operand.sameAccess_of_text :
    (∀ p q : Operand, p.IsAddress → q.IsAddress → p.text = q.text → p.SameAccess q) ∧
    (∀ p : Operand, p.IsAddress → p.fault? = none) ∧
    (∀ a : ImmediateOffset,
      (a.indexing = .post → (immediateOffset a).text =
        "[" ++ a.base.text ++ "], " ++ ("#" ++ Numeral.hex a.offset.signed) ++
          Token.concat a.shift.tokens) ∧
      (a.indexing = .pre → (immediateOffset a).text =
        "[" ++ a.base.text ++ ", " ++ ("#" ++ Numeral.hex a.offset.signed) ++
          Token.concat a.shift.tokens ++ "]!")) ∧
    ∀ a : RegisterOffset,
      (a.indexing = .post → (registerOffset a).text =
        "[" ++ a.base.text ++ "], " ++ a.offset.text ++ Token.concat a.extend.tokens) ∧
      (a.indexing = .pre → (registerOffset a).text =
        "[" ++ a.base.text ++ ", " ++ a.offset.text ++ Token.concat a.extend.tokens ++ "]!") := by
  refine ⟨fun p q hp hq h ↦ hp.sameAccess hq h, fun p hp ↦ hp.fault?_eq_none,
    fun a ↦ ⟨fun h ↦ ?_, fun h ↦ ?_⟩, fun a ↦ ⟨fun h ↦ ?_, fun h ↦ ?_⟩⟩
  · rw [text, tokens, a.tokens_of_indexing (by simp [h]), h,
      Indexing.concat_post _ (by simp [Immediate.signedTokens])]
    simp [Immediate.signedTokens, Immediate.hexToken, String.append_assoc]
  · rw [text, tokens, a.tokens_of_indexing (by simp [h]), h,
      Indexing.concat_pre _ (by simp [Immediate.signedTokens])]
    simp [Immediate.signedTokens, Immediate.hexToken, String.append_assoc]
  · rw [text, tokens, RegisterOffset.tokens, h, Indexing.concat_post _ (by simp [Register.tokens])]
    simp [Register.tokens, String.append_assoc]
  · rw [text, tokens, RegisterOffset.tokens, h, Indexing.concat_pre _ (by simp [Register.tokens])]
    simp [Register.tokens, String.append_assoc]

/-- A post-indexed address whose offset has seven bits, and a bit above them. -/
def steppedBack : ImmediateOffset where
  base := ⟨32, .int 64⟩
  offset := .ofNats 0x178 7 (by decide) (by decide)
  shift := ⟨.none, .int 5⟩
  writeback := .bool true
  postIndex := .bool true

/-- The same access, written in other ways. -/
def steppedBackWide : ImmediateOffset where
  base := ⟨32, .int 64⟩
  offset := .ofNats 0xF8 8 (by decide) (by decide)
  writeback := .int 1
  postIndex := .int 1
  size := .int 32

/-- Two addresses that print alike are of one access, a step by minus eight. -/
theorem Operand.sameAccess_of_text_step :
    (immediateOffset steppedBack).text = "[sp], #-0x8" ∧ steppedBack.IsGeneral ∧
      steppedBackWide.IsGeneral ∧ steppedBack.SameAccess steppedBackWide := by
  have ha : steppedBack.IsGeneral := ⟨by decide, by decide, by decide, by decide⟩
  have hb : steppedBackWide.IsGeneral := ⟨by decide, by decide, by decide, by decide⟩
  have htext : (immediateOffset steppedBack).text = "[sp], #-0x8" := by decide +kernel
  have htext' : (immediateOffset steppedBackWide).text = "[sp], #-0x8" := by decide +kernel
  exact ⟨htext, ha, hb, sameAccess_of_text.1 (.immediateOffset steppedBack)
    (.immediateOffset steppedBackWide) ha hb (htext.trans htext'.symm)⟩

end A64Text
