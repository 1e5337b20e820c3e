import A64Text.Proofs.Layout.Family
import A64Text.Proofs.Line.Operands

/-!
# Reading what is printed

Printing an instruction and reading the line gives back what was printed: the mnemonic, and the
readings of the parts in their order, with modifiers fused to their amounts
(`Instruction.read_of_text`). A first operand that is a modifier would start the operands with a
comma, and a negative field of a system register would put a minus sign inside a word, so both are
excluded.
-/

namespace A64Text

open Line

variable {i : Instruction}

/-! ### Parts -/

theorem Instruction.hasNaturals_of_mem (h : i.hasNaturals = true) {o : Operand}
    (ho : o ∈ i.operands) : o.hasNaturals = true :=
  List.all_eq_true.1 h o ho

/-- A part that brings no comma is read as its reading. -/
theorem Part.Derives.readsAs {p : Part} (hp : p.Derives i) (h : i.hasIntegers = true)
    (hnat : i.hasNaturals = true) (hattaches : p.attaches = false) :
    ReadsAs (Token.chars p.tokens) p.reading := by
  cases hp with
  | operand ho =>
    exact Operand.readsAs (Instruction.hasIntegers_of_mem h ho)
      (Instruction.hasNaturals_of_mem hnat ho) hattaches
  | @immediate imm himm => exact Operand.readsAs (o := .immediate imm) himm rfl rfl
  | @signed imm himm =>
    have hterm := spellsTerm_immediate (Lexeme.spellsNumber_hex imm.signed)
    simpa [tokens, Immediate.signedTokens, Immediate.hexToken, reading]
      using hterm.spellsTerms.readsAs
  | decimal n =>
    have hterm := spellsTerm_immediate (Lexeme.spellsNumber_decimal n)
    simpa [tokens, Immediate.decimalToken, Number.display, reading] using hterm.spellsTerms.readsAs
  | word hs => simpa [tokens, reading] using hs.spellsTerm.spellsTerms.readsAs

/-- A part that is not the first one follows as its reading. -/
theorem Part.Derives.follows {p : Part} (hp : p.Derives i) (h : i.hasIntegers = true)
    (hnat : i.hasNaturals = true) :
    Follows ReadsAs (Token.chars p.segment.following) p.reading := by
  rw [Segment.following]
  split
  · rename_i hattaches
    cases hp with
    | operand ho => exact Operand.follows (Instruction.hasIntegers_of_mem h ho) hattaches
    | _ => cases hattaches
  · rename_i hattaches
    refine .inr ⟨_, ?_, hp.readsAs h hnat (Bool.eq_false_iff.2 hattaches)⟩
    simp [segment]

/-- Parts behind the first one follow as their readings. -/
theorem follows_parts {ps : List Part} (hps : ∀ p ∈ ps, p.Derives i) (h : i.hasIntegers = true)
    (hnat : i.hasNaturals = true) :
    Follows ReadsAs (Token.chars ((ps.map Part.segment).flatMap Segment.following))
      (ps.flatMap Part.reading) := by
  induction ps with
  | nil => exact .inl ⟨rfl, rfl⟩
  | cons p ps ih =>
    obtain ⟨hp, hps⟩ := List.forall_mem_cons.1 hps
    rw [List.map_cons, List.flatMap_cons, List.flatMap_cons, Token.chars_append]
    exact (hp.follows h hnat).append (ih hps)

/-! ### Layouts -/

/-- A text that starts with a word is read without trimming. -/
theorem read_of_chars {s : String} {cs ds : List Char} {l : Line} (hs : s.toList = cs ++ ds)
    (hword : Lexeme.IsWord cs) (hends : EndsSolid (cs ++ ds))
    (hread : readChars (cs ++ ds) = .ok l) : Line.read s = .ok l := by
  have hblank := hword.isBlank_eq_false
  obtain ⟨c, tail, rfl, -⟩ := hword.exists_cons
  have htrim : Text.trimChars (c :: tail ++ ds) = c :: tail ++ ds :=
    trimChars_eq (hblank c (by simp)) hends
  rw [Line.read, hs, htrim, hread]
  rfl

/-- The text of a layout with a word for a mnemonic is read as the mnemonic and its parts. -/
theorem Layout.Derives.read_text {l : Layout} (hl : l.Derives i) (h : i.hasIntegers = true)
    (hnat : i.hasNaturals = true) (hfirst : i.operands.head?.any Operand.isModifier = false)
    (hm : IsMnemonic l.mnemonic) :
    Line.read l.text = .ok ⟨l.mnemonic, fuseItems (l.parts.flatMap Part.reading)⟩ := by
  obtain ⟨m, parts⟩ := l
  cases parts with
  | nil =>
    have hread := readChars_mnemonic hm.1
    rw [hm.2] at hread
    rw [← List.append_nil m.toList] at hread
    refine read_of_chars ?_ hm.1 ?_ hread
    · simp [text, tokens, Segment.line]
    · rw [List.append_nil]
      exact hm.1.endsSolid
  | cons p ps =>
    obtain ⟨hp, hps⟩ := List.forall_mem_cons.1 hl.parts
    have hattaches : p.attaches = false := by
      by_contra hmodifier
      have hhead := hl.head (Bool.not_eq_false _ ▸ hmodifier)
      rw [hfirst] at hhead
      cases hhead
    have hparts := (hp.readsAs h hnat hattaches).append (follows_parts hps h hnat)
    obtain ⟨raw, hitems, hfuse⟩ := hparts
    have hread := readChars_phrase hm.1 hitems
    rw [hm.2] at hread
    refine read_of_chars ?_ hm.1 ((hitems.1.cons ' ').append _) ?_
    · show Token.chars (tokens ⟨m, p :: ps⟩) = _
      simp [tokens, Segment.line, Segment.join, Part.segment]
    · rw [hread]
      exact congrArg (fun items ↦ Except.ok (Line.mk m items)) hfuse.coalesce_eq

/-! ### Instructions -/

/-- The profiling barrier is two words, and the second one is read as an operand. -/
theorem read_psbCsync : Line.read "psb csync" = .ok ⟨"psb", [.term ⟨some "csync", none⟩]⟩ := by
  have hpsb : Lexeme.IsWord "psb".toList := by decide
  have hcsync : Lexeme.IsWord "csync".toList := by decide
  exact read_of_chars rfl hpsb ((hcsync.endsSolid.cons ' ').append _)
    (readChars_phrase hpsb (spellsTerm_word hcsync).readsItems)

/-- The placeholder is read as a mnemonic alone. -/
theorem read_unsupportedInstruction :
    Line.read "<unsupported_insn>" = .ok ⟨"<unsupported_insn>", []⟩ := by
  have hword : Lexeme.IsWord "<unsupported_insn>".toList := by decide
  have hread := readChars_mnemonic hword
  rw [← List.append_nil "<unsupported_insn>".toList] at hread
  exact read_of_chars rfl hword hword.endsSolid hread

theorem Layout.system_psbCsync (hop : i.opcode? = some (.system .psbCsync)) :
    system i = .ok ⟨"psb csync", []⟩ := by
  rw [system, hop]
  rfl

/-- What a family lays out is read as the mnemonic and the readings of the parts. -/
theorem Family.read_of_layout {f : Family} {l : Layout} (h : i.hasIntegers = true)
    (hnat : i.hasNaturals = true) (hfirst : i.operands.head?.any Operand.isModifier = false)
    (hkey : i.operation.isKey = true) (hl : f.layout i = .ok l) :
    Line.read l.text =
      if i.opcode? = some (.system .psbCsync) then .ok ⟨"psb", [.term ⟨some "csync", none⟩]⟩
      else .ok ⟨l.mnemonic, fuseItems (l.parts.flatMap Part.reading)⟩ := by
  have houtcome := f.outcome h hkey
  rw [hl] at houtcome
  cases houtcome with
  | laidOut hop hfamily haccepts hwide hderives =>
    by_cases hpsb : i.opcode? = some (.system .psbCsync)
    · rw [if_pos hpsb]
      obtain rfl := Option.some.inj (hop.symm.trans hpsb)
      obtain rfl : system = f := hfamily
      obtain rfl : ⟨"psb csync", []⟩ = l := Except.ok.inj ((Layout.system_psbCsync hop).symm.trans hl)
      exact read_psbCsync
    · rw [if_neg hpsb]
      rcases hderives.mnemonic with hm | ⟨hpsb', -⟩
      · exact hderives.read_text h hnat hfirst hm
      · exact absurd hpsb' hpsb

/-- What an instruction prints is read as its mnemonic and the readings of its parts, fused. -/
theorem Instruction.read_of_text {s : String} (h : i.hasIntegers = true)
    (hnat : i.hasNaturals = true) (hfirst : i.operands.head?.any Operand.isModifier = false)
    (htext : i.text = .ok s) :
    match i.operation.family? with
    | none => Line.read s = .ok ⟨"<unsupported_insn>", []⟩
    | some f =>
      ∃ l, f.layout i = .ok l ∧ i.tokens = .ok l.tokens ∧
        Line.read s =
          if i.opcode? = some (.system .psbCsync) then .ok ⟨"psb", [.term ⟨some "csync", none⟩]⟩
          else .ok ⟨l.mnemonic, fuseItems (l.parts.flatMap Part.reading)⟩ := by
  cases hnumber : i.operation.number? with
  | none =>
    rw [text, tokens, hnumber] at htext
    cases htext
  | some n =>
    have hkey := Operation.isKey_of_number? hnumber
    have htokens := tokens_of_number? hnumber
    cases hfamily : i.operation.family? with
    | none =>
      rw [hfamily] at htokens
      rw [text, htokens] at htext
      obtain rfl := Except.ok.inj htext
      exact read_unsupportedInstruction
    | some f =>
      rw [hfamily] at htokens
      dsimp only at htokens ⊢
      rw [f.tokens_eq h hkey] at htokens
      cases hlayout : f.layout i with
      | error fault =>
        rw [text, htokens, hlayout] at htext
        cases htext
      | ok l =>
        rw [hlayout] at htokens
        rw [text, htokens] at htext
        obtain rfl := Except.ok.inj htext
        exact ⟨l, rfl, htokens, Family.read_of_layout h hnat hfirst hkey hlayout⟩

/-- A move to a system register, with operands that its layout shows unchecked: an extend without
an amount, a number, and an address that is post-indexed by an extended register. -/
def uncheckedMove : Instruction where
  operation := .named (.system .msr)
  operands :=
    [.systemRegister ⟨.unknown, .int 3, .int 0, .int 12, .int 10, .int 7⟩, .extend ⟨.uxtw, .int 0⟩,
      .immediate (.halfword 0x1F),
      .registerOffset ⟨⟨32, .int 64⟩, ⟨5, .int 32⟩, ⟨.sxtw, .int 2⟩, .bool true, .bool true, .int 64⟩]

/-- The amount of the post-index is read into its keyword, and so is the number behind the extend. -/
theorem Instruction.read_of_text_unchecked :
    uncheckedMove.hasIntegers = true ∧ uncheckedMove.hasNaturals = true ∧
      uncheckedMove.operands.head?.any Operand.isModifier = false ∧
      uncheckedMove.text = .ok "msr S3_0_C12_C10_7, uxtw, #0x1f, [sp], w5, sxtw, #2" ∧
      Line.read "msr S3_0_C12_C10_7, uxtw, #0x1f, [sp], w5, sxtw, #2" =
        .ok ⟨"msr", [.term ⟨some "s3_0_c12_c10_7", none⟩, .term ⟨some "uxtw", some 0x1F⟩,
          .memory [⟨some "sp", none⟩] false, .term ⟨some "w5", none⟩,
          .term ⟨some "sxtw", some 2⟩]⟩ := by
  have htext : uncheckedMove.text =
      .ok "msr S3_0_C12_C10_7, uxtw, #0x1f, [sp], w5, sxtw, #2" := by decide +kernel
  have hread := read_of_text (i := uncheckedMove) rfl rfl rfl htext
  have hfamily : uncheckedMove.operation.family? = some .system := by decide +kernel
  rw [hfamily] at hread
  obtain ⟨l, hlayout, -, hread⟩ := hread
  obtain rfl := Except.ok.inj hlayout
  exact ⟨rfl, rfl, rfl, htext, hread.trans (by decide +kernel)⟩

end A64Text
