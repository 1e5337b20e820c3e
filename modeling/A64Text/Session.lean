import A64Text.Router

/-!
# Sessions

A session prints many instructions and keeps what is worth keeping between them: the environment,
the default settings once they have been read from it, and the routers that were made. The routers
for the eight settings used most recently are found again by their settings; every router that was
ever made stays in reach through its handle, and a change to it is seen by everyone who holds it.
-/

namespace A64Text

/-! ### Stores by recency

A store of a few values by key. When it is full, the value that was used least recently makes room
for a new one. The entries are kept in order of use, the most recent one first, and the store counts
how often a key was found and how often it was not. -/

/-- A store of values by key that forgets what was used least recently. -/
structure Recency (κ ν : Type) where
  capacity : Nat
  /-- The most recently used entry first. -/
  entries : List (κ × ν) := []
  hits : Nat := 0
  misses : Nat := 0

namespace Recency

variable {κ ν : Type} [DecidableEq κ]

/-- The number of entries. -/
def size (s : Recency κ ν) : Nat := s.entries.length

/-- Finds a key; finding it makes it the most recently used one. -/
def find? (s : Recency κ ν) (key : κ) : Option (ν × Recency κ ν) :=
  (s.entries.lookup key).map fun v ↦
    (v, { s with
      entries := (key, v) :: s.entries.filter fun e ↦ e.1 ≠ key
      hits := s.hits + 1 })

/-- Puts in a key that was not found; the entries beyond the capacity are dropped. -/
def insert (s : Recency κ ν) (key : κ) (v : ν) : Recency κ ν :=
  { s with
    entries := ((key, v) :: s.entries).take s.capacity
    misses := s.misses + 1 }

end Recency

/-! ### What is kept -/

/-- What a session keeps. -/
structure Session where
  environment : Environment := {}
  /-- The default settings, once they have been read. -/
  defaults? : Option TraceSettings := none
  /-- All routers, in the order in which they were made. -/
  routers : List Router := []
  /-- The routers of the settings used most recently, by their places among all. -/
  recent : Recency TraceSettings Nat := { capacity := 8 }

namespace Session

/-- The place of a router among those that were made. -/
abbrev Handle := Nat

/-! ### Settings -/

/-- The settings that the environment gives now. -/
def load (s : Session) : TraceSettings := .ofEnvironment s.environment

/-- The default settings: read when they are first asked for, and kept. -/
def default (s : Session) : TraceSettings × Session :=
  match s.defaults? with
  | some settings => (settings, s)
  | none => (s.load, { s with defaults? := some s.load })

/-- Forgets the default settings. -/
def clearDefault (s : Session) : Session := { s with defaults? := none }

/-- The settings asked for, or the default ones. -/
def settingsOr (s : Session) : Option TraceSettings → TraceSettings × Session
  | some settings => (settings, s)
  | none => s.default

/-! ### Routers -/

/-- The router with a handle. -/
def router? (s : Session) (h : Handle) : Option Router := s.routers[h]?

/-- Makes a router. -/
def make (s : Session) (settings : TraceSettings) : Handle × Session :=
  (s.routers.length, { s with routers := s.routers ++ [{ settings := settings }] })

/-- A new router with the settings asked for, or the default ones. -/
def newRouter (s : Session) (settings? : Option TraceSettings) : Handle × Session :=
  let (settings, s) := s.settingsOr settings?
  s.make settings

/-- The router of some settings: a recent one, or a new one. -/
def routerFor (s : Session) (settings : TraceSettings) : Handle × Session :=
  match s.recent.find? settings with
  | some (h, recent) => (h, { s with recent := recent })
  | none =>
    let (h, s) := s.make settings
    (h, { s with recent := s.recent.insert settings h })

/-- Makes a router use the layout of family `target` for the instructions of family `f`. -/
def reroute (s : Session) (h : Handle) (f target : Family) : Session :=
  { s with routers := s.routers.modify h fun r ↦ r.reroute f target }

/-! ### Printing -/

/-- The tokens of an instruction by the router of the settings asked for, or the default ones. -/
def tokens (s : Session) (i : Instruction) (settings? : Option TraceSettings) :
    (Except LayoutFault (List Token) × List LogEntry) × Session :=
  let (settings, s) := s.settingsOr settings?
  let (h, s) := s.routerFor settings
  match s.router? h with
  | some r => (r.tokens i, s)
  | none => ((i.tokens, []), s)

end Session

end A64Text
