import A64Text.Layout.Family
import A64Text.Trace

/-!
# Routing

A router finds the family of an instruction and hands the instruction to that family's layout, or to
the layout of another family if it has been told to. It keeps a log: a family that is traced is
logged when an instruction is routed to it, before the layout is tried, and an opcode without a
family is logged always. What is printed does not depend on what is logged.
-/

namespace A64Text

/-- An entry of the log. -/
inductive LogEntry where
  /-- An opcode was routed to its family. -/
  | routed (opcode : Number) (family : Family)
  /-- An instruction has no family. -/
  | unrouted (name : String)
  deriving DecidableEq, Repr

namespace LogEntry

/-- The level of an entry. -/
def level : LogEntry → String
  | routed .. => "DEBUG"
  | unrouted _ => "WARNING"

/-- The wording of an entry. -/
def message : LogEntry → String
  | routed opcode family => "opcode " ++ opcode.display ++ " -> " ++ family.name
  | unrouted name => "No renderer for " ++ name

end LogEntry

/-- A router. -/
structure Router where
  settings : TraceSettings := {}
  /-- The family whose layout is used for a family's instructions. -/
  route : Family → Family := id

namespace Router

/-- A router that uses the layout of family `target` for the instructions of family `f`. -/
def reroute (r : Router) (f target : Family) : Router :=
  { r with route := fun g ↦ if g = f then target else r.route g }

/-- The family whose layout is used for an operation, if it has one, and the log. -/
def select (r : Router) (o : Operation) : Except LayoutFault (Option Family) × List LogEntry :=
  match o.number? with
  | none => (.error .noNumber, [])
  | some n =>
    match Family.of? n with
    | none => (.ok none, [])
    | some f => (.ok (some (r.route f)), if r.settings.traces f.name then [.routed n f] else [])

/-- The tokens of an instruction, and the log. -/
def tokens (r : Router) (i : Instruction) : Except LayoutFault (List Token) × List LogEntry :=
  match r.select i.operation with
  | (.error fault, log) => (.error fault, log)
  | (.ok none, log) => (.ok [.unsupportedInstruction], log ++ [.unrouted i.name])
  | (.ok (some f), log) => (f.tokens i, log)

end Router

end A64Text
