import A64Text.Proofs.Routing
import A64Text.Session

/-!
# What tracing shows and what it leaves alone

A session serves requests one after another, and its state says for which settings a router is found
again. Two facts hold of every session that requests lead to. A router that is found again has the
settings that it is found by (`Session.Valid`), so what is logged depends on the settings asked for
and on nothing that was done before. And every router uses the layouts of the families themselves
(`Session.Direct`), unless one was told otherwise, so what is printed depends on the instruction
alone. Each is kept by one request (`Session.Valid.serve`, `Session.Direct.serve`), and so by a run
of them.

The two are put together with what a router logs (`Router.log_eq`): tracing never makes a difference
to what is printed, and the log says exactly what was routed (`Session.tokens_traced`).
-/

namespace A64Text

variable {i : Instruction} {m : Number}

/-! ### What a router logs -/

/-- A text of small letters and underscores is folded already. -/
theorem Text.caseFold_eq_self {s : String}
    (h : s.toList.all (fun c ↦ c.isLower || c = '_') = true) : caseFold s = s := by
  have hascii : ∀ n < 0x80, ((Char.ofNat n).isLower || Char.ofNat n = '_') = true →
      foldChar (Char.ofNat n) = [Char.ofNat n] := by decide +kernel
  have hchar : ∀ c ∈ s.toList, foldChar c = [c] := by
    intro c hc
    have hlower := List.all_eq_true.1 h c hc
    have hlt : c.toNat < 0x80 := by
      rcases Bool.or_eq_true_iff.1 hlower with hlower | hlower
      · exact Nat.lt_of_le_of_lt (Line.Lexeme.isLower_iff.1 hlower).2 (by decide)
      · obtain rfl := of_decide_eq_true hlower
        decide
    simpa only [Char.ofNat_toNat, hlower, forall_const] using hascii c.toNat hlt
  rw [caseFold, List.flatMap_def, List.map_congr_left hchar, ← List.flatMap_def,
    List.flatMap_singleton', String.ofList_toList]

theorem Family.caseFold_name (f : Family) : Text.caseFold f.name = f.name := by
  refine Text.caseFold_eq_self ?_
  cases f <;> decide +kernel

theorem Family.name_injective {f g : Family} (h : f.name = g.name) : f = g := by
  have hall : ∀ f ∈ all, ∀ g ∈ all, f.name = g.name → f = g := by decide +kernel
  exact hall f (by cases f <;> decide) g (by cases g <;> decide) h

/-- A family is traced if tracing is on and the family is named, or none is. -/
theorem TraceSettings.traces_iff (s : TraceSettings) (f : Family) :
    s.traces f.name = true ↔
      s.trace = true ∧ (s.families.isEmpty = true ∨ s.families.contains f.name = true) := by
  rw [traces, f.caseFold_name, Bool.and_eq_true, Bool.or_eq_true]

/-- An entry as it is shown: its level and its wording. -/
def LogEntry.shown (e : LogEntry) : String × String := (e.level, e.message)

/-- What is logged of an instruction under some settings. -/
def TraceSettings.log (s : TraceSettings) (i : Instruction) (m : Number) : List LogEntry :=
  match Family.of? m with
  | some f => if s.traces f.name then [.routed m f] else []
  | none => [.unrouted i.name]

/-- A router logs by its settings, whatever layouts it uses and whatever they come to. -/
theorem Router.log_eq (r : Router) (hm : i.operation.number? = some m) :
    (r.tokens i).2 = r.settings.log i m := by
  rw [tokens, select, hm, TraceSettings.log]
  dsimp only
  cases Family.of? m with
  | none => rfl
  | some f => rfl

section

variable {s : TraceSettings}

/-- The route to a family is logged, and nothing else is, exactly if it is the instruction's family
and is traced. -/
theorem TraceSettings.shown_log_routed_iff (f : Family) :
    (s.log i m).map LogEntry.shown =
        [("DEBUG", "opcode " ++ m.display ++ " -> " ++ f.name)] ↔
      Family.of? m = some f ∧ s.traces f.name = true := by
  rw [log]
  cases hfamily : Family.of? m with
  | none => simp [LogEntry.shown, LogEntry.level]
  | some g =>
    dsimp only
    constructor
    · intro hlog
      split at hlog
      · rename_i htraces
        have hname : g.name = f.name := by
          simpa [LogEntry.shown, LogEntry.level, LogEntry.message] using hlog
        obtain rfl := Family.name_injective hname
        exact ⟨rfl, htraces⟩
      · cases hlog
    · rintro ⟨hsome, htraces⟩
      obtain rfl := Option.some.inj hsome
      rw [if_pos htraces]
      rfl

/-- An instruction is warned of, and nothing else is logged, exactly if it has no family. -/
theorem TraceSettings.shown_log_unrouted_iff :
    (s.log i m).map LogEntry.shown = [("WARNING", "No renderer for " ++ i.name)] ↔
      Family.of? m = none := by
  rw [log]
  cases Family.of? m with
  | none => simp [LogEntry.shown, LogEntry.level, LogEntry.message]
  | some g =>
    dsimp only
    split <;> simp [LogEntry.shown, LogEntry.level]

/-- Nothing is logged exactly if the instruction has a family that is not traced. -/
theorem TraceSettings.log_eq_nil_iff :
    s.log i m = [] ↔ ∃ f, Family.of? m = some f ∧ s.traces f.name = false := by
  rw [log]
  cases Family.of? m with
  | none => simp
  | some g => simp

end

/-! ### Requests -/

namespace Session

/-- What can be asked of a session. -/
inductive Request where
  | setEnvironment (e : Environment)
  | readDefault
  | clearDefault
  | newRouter (settings? : Option TraceSettings)
  | routerFor (settings : TraceSettings)
  | reroute (h : Handle) (f target : Family)
  | print (i : Instruction) (settings? : Option TraceSettings)

/-- Whether a request makes a router use another family's layout. -/
def Request.reroutes : Request → Bool
  | reroute .. => true
  | _ => false

/-- The session behind a request. -/
def serve (s : Session) : Request → Session
  | .setEnvironment e => { s with environment := e }
  | .readDefault => s.default.2
  | .clearDefault => s.clearDefault
  | .newRouter settings? => (s.newRouter settings?).2
  | .routerFor settings => (s.routerFor settings).2
  | .reroute h f target => s.reroute h f target
  | .print i settings? => (s.tokens i settings?).2

/-- The session behind a run of requests. -/
def run (s : Session) (rs : List Request) : Session := rs.foldl serve s

/-- What every request keeps is kept by every run. -/
theorem run_induction {P : Session → Prop} {rs : List Request} {s : Session} (hs : P s)
    (hserve : ∀ r ∈ rs, ∀ s, P s → P (s.serve r)) : P (s.run rs) := by
  induction rs generalizing s with
  | nil => exact hs
  | cons r rs ih =>
    refine ih (hserve r (by simp) s hs) fun q hq ↦ hserve q (by simp [hq])

/-! ### What a request changes -/

/-- What a request can do to the routers and to what is found again: nothing but forgetting, making
one router that may be found again by its settings, or making one use another layout. -/
inductive RouterStep (rerouting : Bool) (s s' : Session) : Prop
  | kept (hrouters : s'.routers = s.routers)
      (hrecent : s'.recent.entries ⊆ s.recent.entries)
  | made (settings : TraceSettings)
      (hrouters : s'.routers = s.routers ++ [{ settings := settings }])
      (hrecent : s'.recent.entries ⊆ (settings, s.routers.length) :: s.recent.entries)
  | rerouted (h : Handle) (f target : Family) (hrerouting : rerouting = true)
      (hrouters : s'.routers = s.routers.modify h fun r ↦ r.reroute f target)
      (hrecent : s'.recent.entries ⊆ s.recent.entries)

variable {s s' : Session} {rerouting : Bool}

/-- Asking for settings makes no difference to the routers. -/
@[simp] theorem routers_settingsOr (s : Session) (settings? : Option TraceSettings) :
    (s.settingsOr settings?).2.routers = s.routers := by
  cases settings? with
  | some settings => rfl
  | none =>
    rw [settingsOr, default]
    split <;> rfl

@[simp] theorem recent_settingsOr (s : Session) (settings? : Option TraceSettings) :
    (s.settingsOr settings?).2.recent = s.recent := by
  cases settings? with
  | some settings => rfl
  | none =>
    rw [settingsOr, default]
    split <;> rfl

/-- The router of some settings is one that is found by them, or a new one at the end. -/
theorem routerFor_cases (s : Session) (settings : TraceSettings) :
    ((settings, (s.routerFor settings).1) ∈ s.recent.entries ∧
        (s.routerFor settings).2.routers = s.routers ∧
        (s.routerFor settings).2.recent.entries ⊆ s.recent.entries) ∨
      ((s.routerFor settings).1 = s.routers.length ∧
        (s.routerFor settings).2.routers = s.routers ++ [{ settings := settings }] ∧
        (s.routerFor settings).2.recent.entries ⊆
          (settings, s.routers.length) :: s.recent.entries) := by
  rw [routerFor, Recency.find?]
  cases hlookup : s.recent.entries.lookup settings with
  | none =>
    refine .inr ⟨rfl, rfl, ?_⟩
    exact List.take_subset _ _
  | some h =>
    obtain ⟨before, behind, hentries, -⟩ := List.lookup_eq_some_iff.1 hlookup
    have hmem : (settings, h) ∈ s.recent.entries := by simp [hentries]
    refine .inl ⟨hmem, rfl, ?_⟩
    exact List.cons_subset.2 ⟨hmem, List.filter_sublist.subset⟩

theorem change_routerFor (s : Session) (settings : TraceSettings) :
    RouterStep rerouting s (s.routerFor settings).2 := by
  rcases s.routerFor_cases settings with ⟨-, hrouters, hrecent⟩ | ⟨-, hrouters, hrecent⟩
  · exact .kept hrouters hrecent
  · exact .made settings hrouters hrecent

/-- Printing leaves the session that the search for the router leaves. -/
theorem tokens_snd (s : Session) (i : Instruction) (settings? : Option TraceSettings) :
    (s.tokens i settings?).2 =
      ((s.settingsOr settings?).2.routerFor (s.settingsOr settings?).1).2 := by
  simp only [tokens]
  split <;> rfl

/-- A change to the session behind the settings is a change to the session. -/
theorem RouterStep.of_settingsOr (settings? : Option TraceSettings)
    (h : RouterStep rerouting (s.settingsOr settings?).2 s') : RouterStep rerouting s s' := by
  rcases h with ⟨hrouters, hrecent⟩ | ⟨settings, hrouters, hrecent⟩ |
    ⟨h, f, target, hrerouting, hrouters, hrecent⟩ <;>
    simp only [routers_settingsOr, recent_settingsOr] at hrouters hrecent
  · exact .kept hrouters hrecent
  · exact .made settings hrouters hrecent
  · exact .rerouted h f target hrerouting hrouters hrecent

/-- Every request does one of the three, and only a request to reroute does the last. -/
theorem routerStep_serve (s : Session) (q : Request) : RouterStep q.reroutes s (s.serve q) := by
  cases q with
  | setEnvironment e => exact .kept rfl (List.Subset.refl _)
  | readDefault =>
    exact .of_settingsOr none (.kept rfl (List.Subset.refl _))
  | clearDefault => exact .kept rfl (List.Subset.refl _)
  | newRouter settings? =>
    exact .of_settingsOr settings? (.made _ rfl (List.subset_cons_self _ _))
  | routerFor settings => exact s.change_routerFor settings
  | reroute h f target => exact .rerouted h f target rfl rfl (List.Subset.refl _)
  | print i settings? =>
    rw [serve, tokens_snd]
    exact .of_settingsOr settings? (change_routerFor _ _)

/-! ### What every session keeps -/

/-- A router that is found again has the settings that it is found by. -/
def Valid (s : Session) : Prop :=
  ∀ e ∈ s.recent.entries, (s.routers.map Router.settings)[e.2]? = some e.1

/-- Every router uses the layouts of the families themselves. -/
def Direct (s : Session) : Prop := ∀ r ∈ s.routers, r.route = id

/-- A router that uses another layout keeps its settings. -/
theorem settings_modify_reroute (routers : List Router) (h : Handle) (f target : Family) :
    (routers.modify h fun r ↦ r.reroute f target).map Router.settings =
      routers.map Router.settings := by
  refine List.ext_getElem? fun n ↦ ?_
  rw [List.getElem?_map, List.getElem?_map, List.getElem?_modify]
  cases routers[n]? with
  | none => rfl
  | some r =>
    by_cases hn : h = n
    · simp [hn, Router.reroute]
    · simp [hn]

theorem Valid.of_routerStep (hs : s.Valid) (hstep : RouterStep rerouting s s') : s'.Valid := by
  intro e he
  cases hstep with
  | kept hrouters hrecent =>
    rw [hrouters]
    exact hs e (hrecent he)
  | made settings hrouters hrecent =>
    rw [hrouters, List.map_append]
    rcases List.mem_cons.1 (hrecent he) with rfl | he
    · simp
    · have hplace := hs e he
      rw [List.getElem?_append_left (List.getElem?_eq_some_iff.1 hplace).1, hplace]
  | rerouted h f target _ hrouters hrecent =>
    rw [hrouters, settings_modify_reroute]
    exact hs e (hrecent he)

theorem Direct.of_routerStep (hs : s.Direct) (hstep : RouterStep false s s') : s'.Direct := by
  intro r hr
  cases hstep with
  | kept hrouters _ =>
    rw [hrouters] at hr
    exact hs r hr
  | made settings hrouters _ =>
    rw [hrouters] at hr
    rcases List.mem_append.1 hr with hr | hr
    · exact hs r hr
    · obtain rfl := List.mem_singleton.1 hr
      rfl
  | rerouted _ _ _ hrerouting => cases hrerouting

theorem Valid.serve (hs : s.Valid) (q : Request) : (s.serve q).Valid :=
  hs.of_routerStep (s.routerStep_serve q)

theorem Direct.serve (hs : s.Direct) {q : Request} (hq : q.reroutes = false) :
    (s.serve q).Direct :=
  hs.of_routerStep (hq ▸ s.routerStep_serve q)

/-- Whatever is asked of a new session, a router that is found again has the settings that it is
found by. -/
theorem valid_run (qs : List Request) : (run {} qs).Valid :=
  run_induction (by simp [Valid]) fun q _ _ hs ↦ hs.serve q

/-- Unless it is asked to reroute, a new session keeps to the layouts of the families themselves. -/
theorem direct_run {qs : List Request} (hqs : ∀ q ∈ qs, q.reroutes = false) :
    (run {} qs).Direct :=
  run_induction (by simp [Direct]) fun q hq _ hs ↦ hs.serve (hqs q hq)

/-! ### Printing -/

/-- The router of some settings has them. -/
theorem Valid.router?_routerFor (hs : s.Valid) (settings : TraceSettings) :
    ∃ r, (s.routerFor settings).2.router? (s.routerFor settings).1 = some r ∧
      r.settings = settings := by
  rcases s.routerFor_cases settings with ⟨hmem, hrouters, -⟩ | ⟨hplace, hrouters, -⟩
  · have hsettings := hs _ hmem
    rw [List.getElem?_map] at hsettings
    obtain ⟨r, hr, hsettings⟩ := Option.map_eq_some_iff.1 hsettings
    exact ⟨r, by rw [router?, hrouters, hr], hsettings⟩
  · exact ⟨{ settings := settings }, by simp [router?, hrouters, hplace], rfl⟩

/-- What is printed is printed by a router of the session with the settings asked for, or the
default ones. -/
theorem Valid.exists_router (hs : s.Valid) (i : Instruction) (settings? : Option TraceSettings) :
    ∃ r ∈ (s.tokens i settings?).2.routers, r.settings = (s.settingsOr settings?).1 ∧
      (s.tokens i settings?).1 = r.tokens i := by
  have hsettings : (s.settingsOr settings?).2.Valid := by simpa [Valid] using hs
  obtain ⟨r, hr, hrsettings⟩ := hsettings.router?_routerFor (s.settingsOr settings?).1
  refine ⟨r, ?_, hrsettings, ?_⟩
  · rw [tokens_snd]
    exact List.mem_of_getElem? hr
  · simp only [tokens, hr]

/-- A session that keeps to the layouts of the families prints what the instruction's own family
prints. -/
theorem Direct.tokens_fst (hdirect : s.Direct) (hs : s.Valid) (i : Instruction)
    (settings? : Option TraceSettings) : (s.tokens i settings?).1.1 = i.tokens := by
  obtain ⟨r, hr, -, htokens⟩ := hs.exists_router i settings?
  have hroute : r.route = id := hdirect.serve (q := .print i settings?) rfl r hr
  obtain ⟨settings, route⟩ := r
  obtain rfl : route = id := hroute
  rw [htokens, Router.tokens_eq]

/-- What is logged depends on the settings asked for and on the instruction. -/
theorem Valid.tokens_log (hs : s.Valid) (settings? : Option TraceSettings)
    (hm : i.operation.number? = some m) :
    (s.tokens i settings?).1.2 = (s.settingsOr settings?).1.log i m := by
  obtain ⟨r, -, hsettings, htokens⟩ := hs.exists_router i settings?
  rw [htokens, r.log_eq hm, hsettings]

/-- **Tracing leaves alone what is printed, and logs exactly what was routed.** Whatever was asked
of a session before, short of making a router use another layout, an instruction comes to the same
under all settings. The log is the route to the instruction's family if it has one and the settings
trace it, whether or not the layout then fails; it is a warning if the instruction has no family;
and otherwise it is empty. -/
theorem tokens_traced (qs : List Request) (settings? : Option TraceSettings)
    (hm : i.operation.number? = some m) :
    let s := run {} qs
    let settings := (s.settingsOr settings?).1
    let log := (s.tokens i settings?).1.2.map LogEntry.shown
    ((∀ q ∈ qs, q.reroutes = false) → (s.tokens i settings?).1.1 = i.tokens) ∧
      (∀ f : Family, log = [("DEBUG", "opcode " ++ m.display ++ " -> " ++ f.name)] ↔
        Family.of? m = some f ∧ settings.trace = true ∧
          (settings.families.isEmpty = true ∨ settings.families.contains f.name = true)) ∧
      (log = [("WARNING", "No renderer for " ++ i.name)] ↔ Family.of? m = none) ∧
      (log = [] ↔ ∃ f : Family, Family.of? m = some f ∧ ¬ (settings.trace = true ∧
        (settings.families.isEmpty = true ∨ settings.families.contains f.name = true))) := by
  intro s settings log
  have hs : s.Valid := valid_run qs
  have hlog : log = (settings.log i m).map LogEntry.shown :=
    congrArg _ (hs.tokens_log settings? hm)
  refine ⟨fun hqs ↦ (direct_run hqs).tokens_fst hs i settings?, fun f ↦ ?_, ?_, ?_⟩
  · rw [hlog, TraceSettings.shown_log_routed_iff, TraceSettings.traces_iff]
  · rw [hlog, TraceSettings.shown_log_unrouted_iff]
  · simp only [hlog, List.map_eq_nil_iff, TraceSettings.log_eq_nil_iff, ← TraceSettings.traces_iff,
      Bool.not_eq_true]

/-- A wide move that shifts by a negative count, which has no layout. -/
def negativeMove : Instruction where
  operation := .numbered (.int 10)
  operands := [.register ⟨0, .int 64⟩, .immediate (.halfword 1), .shift ⟨.lsl, .int (-16)⟩]

/-- Turns tracing on and prints once under settings that trace nothing. -/
def tracingRequests : List Request :=
  [.setEnvironment { trace? := some "on" }, .print negativeMove (some {}), .readDefault]

/-- A wide move that fails is logged as routed under the default settings. -/
theorem tokens_traced_negativeMove :
    negativeMove.operation.number? = some (.int 10) ∧
      (∀ q ∈ tracingRequests, q.reroutes = false) ∧
      ((run {} tracingRequests).tokens negativeMove none).1.1 = .error .negativeShift ∧
      ((run {} tracingRequests).tokens negativeMove none).1.2.map LogEntry.shown =
        [("DEBUG", "opcode 10 -> move_wide_immediate")] := by
  have hreroutes : ∀ q ∈ tracingRequests, q.reroutes = false := by decide
  have hsettings : ((run {} tracingRequests).settingsOr none).1 = { trace := true } := by
    decide +kernel
  obtain ⟨htokens, hrouted, -⟩ :=
    tokens_traced (i := negativeMove) (m := .int 10) tracingRequests none rfl
  refine ⟨rfl, hreroutes, (htokens hreroutes).trans (by decide +kernel), ?_⟩
  refine (hrouted .moveWideImmediate).2 ⟨by decide +kernel, ?_⟩
  rw [hsettings]
  exact ⟨rfl, .inl rfl⟩

end Session

end A64Text
