import A64Text.Proofs.Line.Cuts

/-!
# The first fault of a text

A text that is no line is refused at the first place where something stands that no line has there.
What is in front of that place is lexed as far as it goes (`Lexes`), and for lexemes the place is
found by the grammar alone: it is behind the longest part that a line can start with (`IsViable`).
A fault of the characters is reported only if no lexeme in front of it is at fault, and an early end
only if there is neither (`FirstFault`).

The reader knows nothing of lines that could come; it takes one lexeme at a time. That it refuses
the right one rests on a property of its states: each of them can be left for the end of a line
(`State.exists_completion`). So the lexemes that it takes are those that lines start with
(`isViable_iff`), and what it reports is the first fault (`read_eq_error_iff_firstFault`).
-/

namespace A64Text.Line

open Lexeme

/-! ### Columns -/

/-- The column behind some characters, counted from one behind the last line feed. -/
def columnBehind (front : List Char) : Nat := (front.rtakeWhile (· ≠ '\n')).length + 1

theorem columnBehind_concat (front : List Char) (c : Char) :
    columnBehind (front ++ [c]) = columnAfter (columnBehind front) c := by
  rw [columnBehind, List.rtakeWhile_concat, columnAfter]
  by_cases hc : c = '\n'
  · simp [hc]
  · simp [hc, columnBehind]

/-- Characters of one row move the column by their number. -/
theorem columnBehind_append (front : List Char) {w : List Char} (hw : '\n' ∉ w) :
    columnBehind (front ++ w) = columnBehind front + w.length := by
  induction w generalizing front with
  | nil => simp
  | cons c w ih =>
    rw [List.mem_cons, not_or] at hw
    rw [List.append_cons, ih _ hw.2, columnBehind_concat, columnAfter, if_neg (Ne.symm hw.1),
      List.length_cons]
    omega

/-! ### Lexing as far as it goes -/

/-- Characters in front of which nothing is skipped and no lexeme starts. -/
def Stops (cs : List Char) : Prop :=
  (∀ c, cs.head? = some c → isSpace c = false) ∧ ∀ t : Lexeme, ∀ w ∈ t.pattern, ¬ w <+: cs

/-- Lexing from a place in a text. The place has `front` before it and `cs` behind it; the lexemes
are found one after the other, each with what stands in front of it, up to a place with `stop`
before it and `rest` behind it, where lexing stops. -/
inductive Lexes :
    List Char → List Char → List (List Char × Lexeme) → List Char → List Char → Prop
  | stop {front rest : List Char} (h : Stops rest) : Lexes front rest [] front rest
  | space {front cs stop rest : List Char} {ls : List (List Char × Lexeme)} {c : Char}
      (hc : isSpace c = true) (h : Lexes (front ++ [c]) cs ls stop rest) :
      Lexes front (c :: cs) ls stop rest
  | cons {front cs behind stop rest : List Char} {ls : List (List Char × Lexeme)} {t : Lexeme}
      (hmatch : LongestMatch t.pattern cs t.spelling behind)
      (h : Lexes (front ++ t.spelling) behind ls stop rest) :
      Lexes front cs ((front, t) :: ls) stop rest

/-- Where a pattern matches, a lexeme starts. -/
theorem exists_next_of_prefix {t : Lexeme} {w cs : List Char} (hw : w ∈ t.pattern)
    (hpre : w <+: cs) : ∃ u rest, next cs = some (u, rest) := by
  cases t with
  | word =>
    obtain ⟨v, rest, htake, -⟩ := takesLongest_word.longest hw hpre
    exact ⟨.word v, rest, next_eq_some_iff.2 (takesLongest_word.eq_some_iff.1 htake)⟩
  | number =>
    obtain ⟨v, rest, htake, -⟩ := takesLongest_number.longest hw hpre
    exact ⟨.number v, rest, next_eq_some_iff.2 (takesLongest_number.eq_some_iff.1 htake)⟩
  | _ =>
    obtain rfl : w = _ := hw
    obtain ⟨rest, rfl⟩ := hpre
    exact ⟨_, rest, rfl⟩

theorem stops_nil : Stops [] := by
  refine ⟨by simp, fun t w hw hpre ↦ ?_⟩
  obtain ⟨c, tail, rfl, -⟩ := exists_cons_of_mem_pattern hw
  cases List.prefix_nil.1 hpre

/-- Lexing stops in front of a character that is no space and has no lexeme. -/
theorem stops_cons_iff {c : Char} {cs : List Char} :
    Stops (c :: cs) ↔ isSpace c = false ∧ next (c :: cs) = none := by
  constructor
  · rintro ⟨hspace, hnone⟩
    refine ⟨hspace c rfl, Option.eq_none_iff_forall_ne_some.2 fun ⟨t, rest⟩ hnext ↦ ?_⟩
    have hmatch := next_eq_some_iff.1 hnext
    exact hnone t t.spelling hmatch.mem ⟨rest, hmatch.append⟩
  · rintro ⟨hspace, hnone⟩
    refine ⟨fun d hd ↦ ?_, fun t w hw hpre ↦ ?_⟩
    · obtain rfl : c = d := Option.some.inj hd
      exact hspace
    · obtain ⟨u, rest, hnext⟩ := exists_next_of_prefix hw hpre
      rw [hnone] at hnext
      cases hnext

/-- Every text is lexed up to some place. -/
theorem exists_lexes (column : Nat) (front cs : List Char) :
    ∃ ls stop rest, Lexes front cs ls stop rest := by
  fun_induction scan column cs generalizing front with
  | case1 => exact ⟨[], front, [], .stop stops_nil⟩
  | case2 column c cs hspace ih =>
    obtain ⟨ls, stop, rest, h⟩ := ih (front ++ [c])
    exact ⟨ls, stop, rest, .space hspace h⟩
  | case3 column c cs hspace hnone =>
    exact ⟨[], front, c :: cs, .stop (stops_cons_iff.2 ⟨Bool.eq_false_iff.2 hspace, hnone⟩)⟩
  | case4 column c cs hspace t behind hnext found ih =>
    obtain ⟨ls, stop, rest, h⟩ := ih (front ++ t.spelling)
    exact ⟨(front, t) :: ls, stop, rest, .cons (next_eq_some_iff.1 hnext) h⟩

/-- The lexemes of a text, and the place where lexing stops, are determined by it. -/
theorem Lexes.unique {front cs stop rest stop' rest' : List Char}
    {ls ls' : List (List Char × Lexeme)} (h : Lexes front cs ls stop rest)
    (h' : Lexes front cs ls' stop' rest') : ls' = ls ∧ stop' = stop ∧ rest' = rest := by
  induction h generalizing ls' with
  | stop hstop =>
    cases h' with
    | stop => exact ⟨rfl, rfl, rfl⟩
    | space hc => exact absurd ((hstop.1 _ rfl).symm.trans hc) Bool.false_ne_true
    | cons hmatch => exact absurd ⟨_, hmatch.append⟩ (hstop.2 _ _ hmatch.mem)
  | space hc _ ih =>
    cases h' with
    | stop hstop => exact absurd ((hstop.1 _ rfl).symm.trans hc) Bool.false_ne_true
    | space _ h' => exact ih h'
    | cons hmatch =>
      exact absurd ((isSpace_head_of_longestMatch hmatch _ rfl).symm.trans hc) Bool.false_ne_true
  | cons hmatch _ ih =>
    cases h' with
    | stop hstop => exact absurd ⟨_, hmatch.append⟩ (hstop.2 _ _ hmatch.mem)
    | space hc =>
      exact absurd ((isSpace_head_of_longestMatch hmatch _ rfl).symm.trans hc) Bool.false_ne_true
    | cons hmatch' h' =>
      have hnext := (next_eq_some_iff.2 hmatch).symm.trans (next_eq_some_iff.2 hmatch')
      obtain ⟨rfl, rfl⟩ := Prod.mk.inj (Option.some.inj hnext)
      obtain ⟨rfl, hstop⟩ := ih h'
      exact ⟨rfl, hstop⟩

/-- The lexemes with their columns. -/
def placed (ls : List (List Char × Lexeme)) : List (Nat × Lexeme) :=
  ls.map fun l ↦ (columnBehind l.1, l.2)

theorem map_placed (ls : List (List Char × Lexeme)) : (placed ls).map (·.2) = ls.map (·.2) := by
  simp [placed]

/-- No lexeme goes on in the next row. -/
theorem lineFeed_not_mem_spelling {t : Lexeme} (h : t.spelling ∈ t.pattern) :
    '\n' ∉ t.spelling := by
  intro hmem
  exact absurd (visible_of_mem_pattern h _ hmem).1 (by decide)

/-- Scanning finds the lexemes at their columns, and the column at which lexing stops. -/
theorem Lexes.scan_eq {front cs stop rest : List Char} {ls : List (List Char × Lexeme)}
    (h : Lexes front cs ls stop rest) :
    scan (columnBehind front) cs =
      ⟨placed ls, if rest = [] then none else some (columnBehind stop)⟩ := by
  induction h with
  | @stop front rest hstop =>
    cases rest with
    | nil => rw [scan, if_pos rfl, placed, List.map_nil]
    | cons c rest =>
      obtain ⟨hspace, hnone⟩ := stops_cons_iff.1 hstop
      rw [scan, if_neg (Bool.eq_false_iff.1 hspace), if_neg (List.cons_ne_nil c rest)]
      split
      · rfl
      · rename_i hsome
        rw [hnone] at hsome
        cases hsome
  | space hc _ ih => rw [scan, if_pos hc, ← columnBehind_concat, ih]
  | @cons front cs behind stop rest ls t hmatch _ ih =>
    have hnext := next_eq_some_iff.2 hmatch
    obtain ⟨c, tail, rfl⟩ : ∃ c tail, cs = c :: tail := by
      obtain ⟨c, tail, heq, -⟩ := exists_cons_of_mem_pattern hmatch.mem
      exact ⟨c, tail ++ behind, by rw [← hmatch.append, heq, List.cons_append]⟩
    have hspace := isSpace_head_of_longestMatch hmatch c rfl
    rw [scan, if_neg (Bool.eq_false_iff.1 hspace)]
    split
    · rename_i hnone
      rw [hnone] at hnext
      cases hnext
    · rename_i u behind' hsome
      rw [hsome] at hnext
      obtain ⟨rfl, rfl⟩ := Prod.mk.inj (Option.some.inj hnext)
      rw [← columnBehind_append front (lineFeed_not_mem_spelling hmatch.mem), ih]
      rfl

/-! ### Lexemes that a line can start with -/

/-- Lexemes that some line starts with. -/
def IsViable (ts : List Lexeme) : Prop := ∃ tree : LineTree, ts <+: tree.yield

/-- Every term in progress can be completed. -/
theorem Pending.exists_completion (pending : Pending) :
    ∃ us pending' t, pending.steps us = some pending' ∧ pending'.term? = some t := by
  cases pending with
  | vacant => exact ⟨[.word ['x']], _, _, rfl, rfl⟩
  | named name => exact ⟨[], _, _, rfl, rfl⟩
  | hash name? => exact ⟨[.number ['0']], _, _, rfl, rfl⟩
  | filled t => exact ⟨[], _, _, rfl, rfl⟩

/-- Every state can be left for the end of a line. -/
theorem State.exists_completion (s : State) :
    ∃ us s' l, s.steps us = some s' ∧ s'.line? = some l := by
  cases s with
  | start => exact ⟨[.word ['x']], _, _, rfl, rfl⟩
  | mnemonic m => exact ⟨[], _, _, rfl, rfl⟩
  | operand m before pending =>
    obtain ⟨us, pending', t, hsteps, hterm⟩ := pending.exists_completion
    exact ⟨us, _, _, Pending.steps_operand hsteps m before, (Holds.operand hterm).line?⟩
  | memory m before parts pending =>
    obtain ⟨us, pending', t, hsteps, hterm⟩ := pending.exists_completion
    refine ⟨us ++ [.endMemory], .closed m before (parts ++ [t]) false, _, ?_, rfl⟩
    rw [steps_append_of_eq (Pending.steps_memory hsteps m before parts), steps,
      HoldsTerms.step_endMemory ⟨hterm⟩]
    rfl
  | closed m before parts writeback => exact ⟨[], _, _, rfl, rfl⟩

/-- The lexemes that the machine takes are those that a line can start with. -/
theorem isViable_iff {ts : List Lexeme} : IsViable ts ↔ ∃ s, State.start.steps ts = some s := by
  constructor
  · rintro ⟨tree, us, hyield⟩
    obtain ⟨s, hsteps, -⟩ := tree.steps_yield
    rw [← hyield, State.steps_append] at hsteps
    obtain ⟨s', hs', -⟩ := Option.bind_eq_some_iff.1 hsteps
    exact ⟨s', hs'⟩
  · rintro ⟨s, hs⟩
    obtain ⟨us, s', l, hsteps, hline⟩ := s.exists_completion
    obtain ⟨tree, hyield, -⟩ :=
      exists_line?_iff.1 ⟨s', (State.steps_append_of_eq hs).trans hsteps, hline⟩
    exact ⟨tree, us, hyield.symm⟩

/-! ### The first fault -/

/-- Behind `front` stands a lexeme that no line has there, though lines start with those before. -/
def Foreign (ls : List (List Char × Lexeme)) (front : List Char) : Prop :=
  ∃ before t after, ls = before ++ (front, t) :: after ∧ IsViable (before.map (·.2)) ∧
    ¬ IsViable (before.map (·.2) ++ [t])

/-- What is wrong with a text that has been lexed, and its column. -/
inductive FirstFault (ls : List (List Char × Lexeme)) (stop rest : List Char) :
    Fault → Int → Prop
  /-- A lexeme is foreign. -/
  | lexeme {front : List Char} (h : Foreign ls front) :
    FirstFault ls stop rest (.lexeme (columnBehind front)) (columnBehind front)
  /-- No lexeme is, and lexing stops in front of a character. -/
  | character (hnone : ∀ front, ¬ Foreign ls front) (hrest : rest ≠ []) :
    FirstFault ls stop rest (.character (columnBehind stop)) (columnBehind stop)
  /-- No lexeme is and all characters are lexed, but lines that start so go on. -/
  | ending (hnone : ∀ front, ¬ Foreign ls front) (hrest : rest = [])
      (hstart : ∃ tree : LineTree, ls.map (·.2) <+: tree.yield ∧ ls.map (·.2) ≠ tree.yield)
      (hline : ∀ tree : LineTree, tree.yield ≠ ls.map (·.2)) :
    FirstFault ls stop rest .ending (-1)

/-- The machine refuses the first lexeme that it has no step for. -/
theorem State.run_eq_error_iff {s : State} {ls : List (Nat × Lexeme)} {column : Nat} :
    s.run ls = .error column ↔
      ∃ before t after s', ls = before ++ (column, t) :: after ∧
        s.steps (before.map (·.2)) = some s' ∧ s'.step t = none := by
  induction ls generalizing s with
  | nil =>
    refine ⟨fun h ↦ (by cases h), ?_⟩
    rintro ⟨before, t, after, s', hls, -⟩
    exact absurd hls.symm (by simp)
  | cons l ls ih =>
    obtain ⟨column', t⟩ := l
    rw [run]
    cases hstep : s.step t with
    | none =>
      constructor
      · rintro h
        obtain rfl := Except.error.inj h
        exact ⟨[], t, ls, s, rfl, rfl, hstep⟩
      · rintro ⟨before, t', after, s', hls, hsteps, hnone⟩
        cases before with
        | nil =>
          obtain ⟨hl, -⟩ := List.cons.inj hls
          rw [(Prod.mk.inj hl).1]
        | cons b before =>
          obtain ⟨rfl, -⟩ := List.cons.inj hls
          simp [steps, hstep] at hsteps
    | some s₁ =>
      constructor
      · intro h
        obtain ⟨before, t', after, s', rfl, hsteps, hnone⟩ := ih.1 h
        exact ⟨(column', t) :: before, t', after, s', rfl, by simpa [steps, hstep] using hsteps,
          hnone⟩
      · rintro ⟨before, t', after, s', hls, hsteps, hnone⟩
        cases before with
        | nil =>
          obtain ⟨hl, -⟩ := List.cons.inj hls
          obtain rfl : s = s' := Option.some.inj hsteps
          rw [(Prod.mk.inj hl).2, hnone] at hstep
          cases hstep
        | cons b before =>
          obtain ⟨rfl, rfl⟩ := List.cons.inj hls
          exact ih.2 ⟨before, t', after, s', rfl, by simpa [steps, hstep] using hsteps, hnone⟩

/-- Behind lexemes that the machine takes, a line can go on with those it has a step for. -/
theorem isViable_concat_iff {ts : List Lexeme} {t : Lexeme} {s : State}
    (hs : State.start.steps ts = some s) : IsViable (ts ++ [t]) ↔ (s.step t).isSome = true := by
  rw [isViable_iff, State.steps_append_of_eq hs, State.steps]
  cases s.step t <;> simp [State.steps]

/-- The machine refuses a lexeme at its column exactly if it is foreign. -/
theorem run_placed_eq_error_iff {ls : List (List Char × Lexeme)} {column : Nat} :
    State.start.run (placed ls) = .error column ↔
      ∃ front, Foreign ls front ∧ column = columnBehind front := by
  rw [State.run_eq_error_iff]
  constructor
  · rintro ⟨before, t, after, s, hls, hsteps, hnone⟩
    obtain ⟨before, rest, rfl, rfl, hrest⟩ := List.map_eq_append_iff.1 hls
    obtain ⟨⟨front, u⟩, after, rfl, hl, -⟩ := List.map_eq_cons_iff.1 hrest
    obtain ⟨rfl, rfl⟩ := Prod.mk.inj hl
    have hs : State.start.steps (before.map (·.2)) = some s := by
      rw [← map_placed]
      exact hsteps
    refine ⟨front, ⟨before, u, after, rfl, isViable_iff.2 ⟨s, hs⟩, ?_⟩, rfl⟩
    rw [isViable_concat_iff hs, hnone]
    exact Bool.false_ne_true
  · rintro ⟨front, ⟨before, t, after, rfl, hbefore, hforeign⟩, rfl⟩
    obtain ⟨s, hs⟩ := isViable_iff.1 hbefore
    refine ⟨placed before, t, placed after, s, by simp [placed], by rw [map_placed, hs], ?_⟩
    rwa [isViable_concat_iff hs, Bool.not_eq_true, Option.isSome_eq_false_iff,
      Option.isNone_iff_eq_none] at hforeign

/-- All foreign lexemes stand at one column. -/
theorem Foreign.columnBehind_eq {ls : List (List Char × Lexeme)} {front front' : List Char}
    (h : Foreign ls front) (h' : Foreign ls front') : columnBehind front = columnBehind front' := by
  have hrun := run_placed_eq_error_iff.2 ⟨front, h, rfl⟩
  have hrun' := run_placed_eq_error_iff.2 ⟨front', h', rfl⟩
  exact Except.error.inj (hrun.symm.trans hrun')

/-- There is one first fault at most. -/
theorem FirstFault.unique {ls : List (List Char × Lexeme)} {stop rest : List Char}
    {fault fault' : Fault} {column column' : Int} (h : FirstFault ls stop rest fault column)
    (h' : FirstFault ls stop rest fault' column') : fault = fault' := by
  cases h with
  | lexeme hforeign =>
    cases h' with
    | lexeme hforeign' => rw [hforeign.columnBehind_eq hforeign']
    | character hnone => exact absurd hforeign (hnone _)
    | ending hnone => exact absurd hforeign (hnone _)
  | character hnone hrest =>
    cases h' with
    | lexeme hforeign => exact absurd hforeign (hnone _)
    | character => rfl
    | ending _ hrest' => exact absurd hrest' hrest
  | ending hnone hrest =>
    cases h' with
    | lexeme hforeign => exact absurd hforeign (hnone _)
    | character _ hrest' => exact absurd hrest hrest'
    | ending => rfl

/-- Characters are a line, and have no first fault, or what the reader says of them is one. -/
theorem readChars_outcome {cs stop rest : List Char} {ls : List (List Char × Lexeme)}
    (h : Lexes [] cs ls stop rest) :
    (∃ l, readChars cs = .ok l ∧ ∀ fault column, ¬ FirstFault ls stop rest fault column) ∨
      ∃ fault, readChars cs = .error fault ∧ FirstFault ls stop rest fault fault.column := by
  have hscan : scan 1 cs = ⟨placed ls, if rest = [] then none else some (columnBehind stop)⟩ :=
    h.scan_eq
  rw [readChars, hscan]
  dsimp only
  cases hrun : State.start.run (placed ls) with
  | error column =>
    obtain ⟨front, hforeign, rfl⟩ := run_placed_eq_error_iff.1 hrun
    exact .inr ⟨_, rfl, .lexeme hforeign⟩
  | ok s =>
    have hnone : ∀ front, ¬ Foreign ls front := by
      intro front hforeign
      rw [run_placed_eq_error_iff.2 ⟨front, hforeign, rfl⟩] at hrun
      cases hrun
    have hsteps : State.start.steps (ls.map (·.2)) = some s := by
      rw [← map_placed]
      exact State.steps_of_run hrun
    dsimp only
    by_cases hrest : rest = []
    · rw [if_pos hrest]
      cases hline : s.line? with
      | some l =>
        obtain ⟨tree, hyield, -⟩ := exists_line?_iff.1 ⟨s, hsteps, hline⟩
        refine .inl ⟨l, rfl, fun fault column hfault ↦ ?_⟩
        cases hfault with
        | lexeme hforeign => exact hnone _ hforeign
        | character _ hrest' => exact hrest' hrest
        | ending _ _ _ hline' => exact hline' tree hyield
      | none =>
        have hline' : ∀ tree : LineTree, tree.yield ≠ ls.map (·.2) := by
          intro tree hyield
          obtain ⟨s', hsteps', hl⟩ := exists_line?_iff.2 ⟨tree, hyield, rfl⟩
          obtain rfl : s = s' := Option.some.inj (hsteps.symm.trans hsteps')
          rw [hline] at hl
          cases hl
        obtain ⟨tree, hstart⟩ := isViable_iff.2 ⟨s, hsteps⟩
        exact .inr ⟨_, rfl, .ending hnone hrest ⟨tree, hstart, (hline' tree).symm⟩ hline'⟩
    · rw [if_neg hrest]
      exact .inr ⟨_, rfl, .character hnone hrest⟩

/-- What the reader says of characters that are no line is their first fault. -/
theorem readChars_eq_error_iff {cs stop rest : List Char} {ls : List (List Char × Lexeme)}
    (h : Lexes [] cs ls stop rest) {fault : Fault} :
    readChars cs = .error fault ↔ FirstFault ls stop rest fault fault.column := by
  obtain ⟨l, hread, hnone⟩ | ⟨fault', hread, hfault'⟩ := readChars_outcome h
  · rw [hread]
    exact ⟨fun heq ↦ (by cases heq), fun hfault ↦ absurd hfault (hnone _ _)⟩
  · rw [hread]
    refine ⟨fun heq ↦ ?_, fun hfault ↦ congrArg Except.error (hfault'.unique hfault)⟩
    obtain rfl := Except.error.inj heq
    exact hfault'

/-- An error of reading points at the first fault. The text between its blanks is lexed in one way,
up to its end or up to the first character at which no lexeme starts. The error says that a lexeme
is foreign, if one is; if none is, that no lexeme starts at that character; and if all characters
are lexed, that the text ends where no line does. It carries the text as it was given. -/
theorem read_eq_error_iff_firstFault (text : String) :
    ∃ ls stop rest, Lexes [] (Text.trimChars text.toList) ls stop rest ∧
      (∀ ls' stop' rest', Lexes [] (Text.trimChars text.toList) ls' stop' rest' →
        ls' = ls ∧ stop' = stop ∧ rest' = rest) ∧
      ∀ e, read text = .error e ↔
        e.text = text ∧ FirstFault ls stop rest e.fault e.fault.column := by
  obtain ⟨ls, stop, rest, hlexes⟩ := exists_lexes 1 [] (Text.trimChars text.toList)
  refine ⟨ls, stop, rest, hlexes, fun ls' stop' rest' h' ↦ hlexes.unique h', fun e ↦ ?_⟩
  rw [← readChars_eq_error_iff hlexes, read]
  obtain ⟨text', fault⟩ := e
  cases readChars (Text.trimChars text.toList) with
  | ok l => simp [Except.mapError]
  | error fault' => simp [Except.mapError, @eq_comm _ text]

/-- A branch behind two blanks, an ideographic space and a no-break space, and in front of an em
space. Its seventh character without them is a bracket that no line has there, and what is wrong
with the character behind the bracket is not said. -/
def strayBracket : String := "\u3000\u00A0b x0, ]@\u2003"

/-- Columns do not count the blanks in front, and the text of the error keeps them. -/
theorem read_eq_error_iff_firstFault_bracket :
    read strayBracket = .error ⟨strayBracket, .lexeme 7⟩ ∧
      ∃ ls stop rest, Lexes [] "b x0, ]@".toList ls stop rest ∧
        FirstFault ls stop rest (.lexeme 7) 7 := by
  have hread : read strayBracket = .error ⟨strayBracket, .lexeme 7⟩ := by decide +kernel
  have htrim : Text.trimChars strayBracket.toList = "b x0, ]@".toList := by decide +kernel
  obtain ⟨ls, stop, rest, hlexes, -, herror⟩ := read_eq_error_iff_firstFault strayBracket
  rw [htrim] at hlexes
  exact ⟨hread, ls, stop, rest, hlexes, ((herror _).1 hread).2⟩

end A64Text.Line
