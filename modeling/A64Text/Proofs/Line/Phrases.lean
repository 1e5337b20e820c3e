import A64Text.Line.Reader
import A64Text.Proofs.Line.Ends
import A64Text.Proofs.Line.Words

/-!
# Phrases of a line

A phrase is a piece of text that the reader takes in one go, whatever stands before it: a term
(`SpellsTerm`), terms between brackets (`ReadsTerms`), or operands (`ReadsItems`). Each notion joins
the scanner and the machine: the characters spell lexemes in front of every boundary, and over those
lexemes the machine moves from the beginning of a term or operand to a state that holds what was
read. Phrases are put together with commas and brackets, and a mnemonic in front of a phrase makes a
line (`readChars_phrase`).
-/

namespace A64Text.Line

/-! ### The machine without columns -/

namespace State

/-- The steps of the machine over lexemes, without their columns. -/
def steps : State → List Lexeme → Option State
  | s, [] => some s
  | s, t :: ts => (s.step t).bind fun s' ↦ s'.steps ts

theorem steps_append (s : State) (ts us : List Lexeme) :
    s.steps (ts ++ us) = (s.steps ts).bind fun s' ↦ s'.steps us := by
  induction ts generalizing s with
  | nil => rfl
  | cons t ts ih =>
    rw [List.cons_append, steps, steps, Option.bind_assoc]
    exact congrArg _ (funext ih)

theorem steps_append_of_eq {s s' : State} {ts us : List Lexeme} (h : s.steps ts = some s') :
    s.steps (ts ++ us) = s'.steps us := by
  rw [steps_append, h, Option.bind_some]

/-- The columns of lexemes that are all taken do not matter. -/
theorem run_eq_ok {s s' : State} {ls : List (Nat × Lexeme)}
    (h : s.steps (ls.map (·.2)) = some s') : s.run ls = .ok s' := by
  induction ls generalizing s with
  | nil =>
    obtain rfl : s = s' := Option.some.inj h
    rfl
  | cons l ls ih =>
    obtain ⟨s₁, hstep, hrest⟩ := Option.bind_eq_some_iff.1 h
    rw [run, hstep]
    exact ih hrest

/-- A state behind the last of the operands that have been read. -/
inductive Holds (m : String) : List Item → State → Prop
  | operand {before : List Item} {pending : Pending} {t : Term} (h : pending.term? = some t) :
      Holds m (before ++ [.term t]) (.operand m before pending)
  | closed {before : List Item} {parts : List Term} {writeback : Bool} :
      Holds m (before ++ [.memory (fuseTerms parts) writeback])
        (.closed m before parts writeback)

theorem Holds.step_comma {m : String} {items : List Item} {s : State} (h : Holds m items s) :
    s.step .comma = some (.operand m items .vacant) := by
  cases h with
  | operand h =>
    rename_i pending _
    cases pending <;> simp_all [step, Pending.term?]
  | closed => simp [step]

theorem Holds.line? {m : String} {items : List Item} {s : State} (h : Holds m items s) :
    s.line? = some ⟨m, fuseItems items⟩ := by
  cases h with
  | operand h => simp [State.line?, h]
  | closed => rfl

/-- A state inside brackets, behind the last of the terms that have been read. -/
inductive HoldsTerms (m : String) (before : List Item) : List Term → State → Prop
  | intro {parts : List Term} {pending : Pending} {t : Term} (h : pending.term? = some t) :
      HoldsTerms m before (parts ++ [t]) (.memory m before parts pending)

theorem HoldsTerms.step_comma {m : String} {before : List Item} {ts : List Term} {s : State}
    (h : HoldsTerms m before ts s) : s.step .comma = some (.memory m before ts .vacant) := by
  obtain ⟨h⟩ := h
  simp [step, h]

theorem HoldsTerms.step_endMemory {m : String} {before : List Item} {ts : List Term} {s : State}
    (h : HoldsTerms m before ts s) : s.step .endMemory = some (.closed m before ts false) := by
  obtain ⟨h⟩ := h
  simp [step, h]

end State

/-! ### Terms -/

namespace Pending

/-- The steps inside a term over lexemes. -/
def steps : Pending → List Lexeme → Option Pending
  | s, [] => some s
  | s, t :: ts => (s.step t).bind fun s' ↦ s'.steps ts

theorem step_operand {pending pending' : Pending} {t : Lexeme}
    (h : pending.step t = some pending') (m : String)
    (before : List Item) :
    (State.operand m before pending).step t = some (.operand m before pending') := by
  cases pending <;> cases t <;> simp_all [step, State.step, State.startOperand]

theorem step_memory {pending pending' : Pending} {t : Lexeme}
    (h : pending.step t = some pending') (m : String)
    (before : List Item) (parts : List Term) :
    (State.memory m before parts pending).step t = some (.memory m before parts pending') := by
  cases pending <;> cases t <;> simp_all [step, State.step]

theorem steps_operand {pending pending' : Pending} {ts : List Lexeme}
    (h : pending.steps ts = some pending')
    (m : String) (before : List Item) :
    (State.operand m before pending).steps ts = some (.operand m before pending') := by
  induction ts generalizing pending with
  | nil => rw [Option.some.inj h]; rfl
  | cons t ts ih =>
    obtain ⟨pending₁, hstep, hrest⟩ := Option.bind_eq_some_iff.1 h
    rw [State.steps, step_operand hstep]
    exact ih hrest

theorem steps_memory {pending pending' : Pending} {ts : List Lexeme}
    (h : pending.steps ts = some pending')
    (m : String) (before : List Item) (parts : List Term) :
    (State.memory m before parts pending).steps ts = some (.memory m before parts pending') := by
  induction ts generalizing pending with
  | nil => rw [Option.some.inj h]; rfl
  | cons t ts ih =>
    obtain ⟨pending₁, hstep, hrest⟩ := Option.bind_eq_some_iff.1 h
    rw [State.steps, step_memory hstep]
    exact ih hrest

end Pending

/-- Characters spell lexemes in front of every boundary. -/
def SpellsBefore (cs : List Char) (ts : List Lexeme) : Prop :=
  ∀ {rest : List Char} {us : List Lexeme}, Lexeme.Boundary rest → Lexeme.Spells rest us →
    Lexeme.Spells (cs ++ rest) (ts ++ us)

/-- Characters that are read as a term. -/
def SpellsTerm (cs : List Char) (t : Term) : Prop :=
  EndsSolid cs ∧
    ∃ ts pending, SpellsBefore cs ts ∧ Pending.vacant.steps ts = some pending ∧
      pending.term? = some t

/-- A word is a term. -/
theorem spellsTerm_word {cs : List Char} (h : Lexeme.IsWord cs) :
    SpellsTerm cs ⟨some (normalName cs), none⟩ :=
  ⟨h.endsSolid, [.word cs], .named (normalName cs), fun hb hs ↦ hs.word h hb, rfl, rfl⟩

/-- A number behind its mark is a term. -/
theorem spellsTerm_immediate {cs : List Char} {n : Int} (h : Lexeme.SpellsNumber cs n) :
    SpellsTerm ('#' :: cs) ⟨none, some n⟩ := by
  obtain ⟨hnumber, rfl, hsolid⟩ := h
  exact ⟨hsolid.cons _, [.hash, .number cs], .filled ⟨none, some (Lexeme.numberValue cs)⟩,
    fun hb hs ↦ (hs.number hnumber hb).hash, rfl, rfl⟩

/-- A word with an amount is a term. -/
theorem spellsTerm_amount {cs ns : List Char} {n : Int} (h : Lexeme.IsWord cs)
    (hn : Lexeme.SpellsNumber ns n) :
    SpellsTerm (cs ++ ' ' :: '#' :: ns) ⟨some (normalName cs), some n⟩ := by
  obtain ⟨hnumber, rfl, hsolid⟩ := hn
  refine ⟨((hsolid.cons _).cons _).append _, [.word cs, .hash, .number ns],
    .filled ⟨some (normalName cs), some (Lexeme.numberValue ns)⟩, fun {rest us} hb hs ↦ ?_,
    rfl, rfl⟩
  have hspace := (hs.number hnumber hb).hash.space.word h (Lexeme.boundary_space _)
  simpa using hspace

/-! ### Terms between brackets -/

/-- Characters that are read as terms between brackets. -/
def ReadsTerms (cs : List Char) (terms : List Term) : Prop :=
  EndsSolid cs ∧
    ∃ ts, SpellsBefore cs ts ∧ ∀ m before parts, ∃ s,
      (State.memory m before parts .vacant).steps ts = some s ∧
        s.HoldsTerms m before (parts ++ terms)

theorem SpellsTerm.readsTerms {cs : List Char} {t : Term} (h : SpellsTerm cs t) :
    ReadsTerms cs [t] := by
  obtain ⟨hsolid, ts, pending, hspell, hsteps, hterm⟩ := h
  exact ⟨hsolid, ts, hspell,
    fun m before parts ↦ ⟨_, Pending.steps_memory hsteps m before parts, ⟨hterm⟩⟩⟩

/-- Two pieces of text with a comma and a space between them. -/
def commaJoin (cs ds : List Char) : List Char := cs ++ ',' :: ' ' :: ds

theorem EndsSolid.commaJoin {ds : List Char} (h : EndsSolid ds) (cs : List Char) :
    EndsSolid (commaJoin cs ds) :=
  ((h.cons _).cons _).append cs

theorem SpellsBefore.commaJoin {cs ds : List Char} {ts us : List Lexeme}
    (h : SpellsBefore cs ts) (h' : SpellsBefore ds us) :
    SpellsBefore (commaJoin cs ds) (ts ++ .comma :: us) := by
  intro rest vs hb hs
  have hjoin := h (Lexeme.boundary_comma _) (h' hb hs).space.comma
  simpa [Line.commaJoin] using hjoin

theorem ReadsTerms.commaJoin {cs ds : List Char} {terms terms' : List Term}
    (h : ReadsTerms cs terms) (h' : ReadsTerms ds terms') :
    ReadsTerms (commaJoin cs ds) (terms ++ terms') := by
  obtain ⟨-, ts, hspell, hsteps⟩ := h
  obtain ⟨hsolid, us, hspell', hsteps'⟩ := h'
  refine ⟨hsolid.commaJoin cs, ts ++ .comma :: us, hspell.commaJoin hspell',
    fun m before parts ↦ ?_⟩
  obtain ⟨s, hs, hholds⟩ := hsteps m before parts
  obtain ⟨s', hs', hholds'⟩ := hsteps' m before (parts ++ terms)
  refine ⟨s', ?_, by rwa [List.append_assoc] at hholds'⟩
  rw [State.steps_append_of_eq hs, State.steps, hholds.step_comma]
  exact hs'

/-! ### Operands -/

/-- Characters that are read as operands. -/
def ReadsItems (cs : List Char) (items : List Item) : Prop :=
  EndsSolid cs ∧
    ∃ ts, SpellsBefore cs ts ∧ ∀ m before, ∃ s,
      (State.operand m before .vacant).steps ts = some s ∧ s.Holds m (before ++ items)

theorem SpellsTerm.readsItems {cs : List Char} {t : Term} (h : SpellsTerm cs t) :
    ReadsItems cs [.term t] := by
  obtain ⟨hsolid, ts, pending, hspell, hsteps, hterm⟩ := h
  exact ⟨hsolid, ts, hspell,
    fun m before ↦ ⟨_, Pending.steps_operand hsteps m before, .operand hterm⟩⟩

theorem ReadsItems.commaJoin {cs ds : List Char} {items items' : List Item}
    (h : ReadsItems cs items) (h' : ReadsItems ds items') :
    ReadsItems (commaJoin cs ds) (items ++ items') := by
  obtain ⟨-, ts, hspell, hsteps⟩ := h
  obtain ⟨hsolid, us, hspell', hsteps'⟩ := h'
  refine ⟨hsolid.commaJoin cs, ts ++ .comma :: us, hspell.commaJoin hspell', fun m before ↦ ?_⟩
  obtain ⟨s, hs, hholds⟩ := hsteps m before
  obtain ⟨s', hs', hholds'⟩ := hsteps' m (before ++ items)
  refine ⟨s', ?_, by rwa [List.append_assoc] at hholds'⟩
  rw [State.steps_append_of_eq hs, State.steps, hholds.step_comma]
  exact hs'

/-- The closing bracket, with the mark of writeback if there is one. -/
def closing (writeback : Bool) : List Char := if writeback then [']', '!'] else [']']

/-- Terms between brackets are one operand. -/
theorem ReadsTerms.readsItems {cs : List Char} {terms : List Term} (h : ReadsTerms cs terms)
    (writeback : Bool) :
    ReadsItems ('[' :: cs ++ closing writeback) [.memory (fuseTerms terms) writeback] := by
  obtain ⟨-, ts, hspell, hsteps⟩ := h
  refine ⟨EndsSolid.append ?_ _,
    .beginMemory :: ts ++ (if writeback then [.endMemory, .bang] else [.endMemory]),
    fun {rest us} hb hs ↦ ?_, fun m before ↦ ?_⟩
  · cases writeback with
    | false => exact ⟨[], ']', rfl, by decide⟩
    | true => exact ⟨[']'], '!', rfl, by decide⟩
  · cases writeback with
    | false => simpa [closing] using (hspell (Lexeme.boundary_endMemory _) hs.endMemory).beginMemory
    | true =>
      simpa [closing] using (hspell (Lexeme.boundary_endMemory _) hs.bang.endMemory).beginMemory
  · obtain ⟨s, hs, hholds⟩ := hsteps m before []
    rw [List.nil_append] at hholds
    have hopen : (State.operand m before .vacant).steps (.beginMemory :: ts) = some s := hs
    refine ⟨.closed m before terms writeback, ?_, .closed⟩
    rw [State.steps_append_of_eq hopen]
    cases writeback with
    | false => simp [State.steps, hholds.step_endMemory]
    | true =>
      have hbang : (State.closed m before terms false).step .bang =
          some (.closed m before terms true) := rfl
      simp [State.steps, hholds.step_endMemory, hbang]

/-! ### Lines -/

theorem readChars_of_spells {cs : List Char} {ts : List Lexeme} {s : State} {l : Line}
    (hspells : Lexeme.Spells cs ts) (hsteps : State.start.steps ts = some s)
    (hline : s.line? = some l) : readChars cs = .ok l := by
  obtain ⟨hlexemes, hstop⟩ := hspells 1
  have hrun : State.start.run (Lexeme.scan 1 cs).lexemes = .ok s :=
    State.run_eq_ok (by rw [hlexemes, hsteps])
  simp [readChars, hrun, hstop, hline]

/-- A mnemonic alone is a line. -/
theorem readChars_mnemonic {cs : List Char} (h : Lexeme.IsWord cs) :
    readChars cs = .ok ⟨normalMnemonic cs, []⟩ := by
  have hspells := Lexeme.spells_nil.word h Lexeme.boundary_nil
  rw [List.append_nil] at hspells
  exact readChars_of_spells hspells rfl rfl

/-- A mnemonic in front of operands is a line. -/
theorem readChars_phrase {cs ds : List Char} {items : List Item} (h : Lexeme.IsWord cs)
    (hitems : ReadsItems ds items) :
    readChars (cs ++ ' ' :: ds) = .ok ⟨normalMnemonic cs, fuseItems items⟩ := by
  obtain ⟨-, ts, hspell, hsteps⟩ := hitems
  have htail := hspell Lexeme.boundary_nil Lexeme.spells_nil
  rw [List.append_nil, List.append_nil] at htail
  have hspells := htail.space.word h (Lexeme.boundary_space _)
  obtain ⟨s, hs, hholds⟩ := hsteps (normalMnemonic cs) []
  have hfirst : (State.mnemonic (normalMnemonic cs)).steps ts = some s := by
    -- Behind the mnemonic the machine starts an operand as it does behind a comma.
    cases ts with
    | nil =>
      obtain rfl : State.operand (normalMnemonic cs) [] .vacant = s := Option.some.inj hs
      cases hholds with
      | operand h => simp [Pending.term?] at h
    | cons t ts => exact hs
  exact readChars_of_spells hspells (by rw [State.steps]; exact hfirst) hholds.line?

end A64Text.Line
