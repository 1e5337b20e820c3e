import A64Text.Line.Fusion
import A64Text.Line.Lexeme
import A64Text.Text.Case

/-!
# Reading lines

The second half of reading a line: a machine that takes one lexeme at a time. Its states are the
places in the grammar

* a line is a word, then operands separated by commas if there are any;
* an operand is a term, or terms separated by commas between brackets, with a bang behind them if
  the address is written back;
* a term is a word, an immediate, or a word and an immediate;
* an immediate is a number, with a hash in front of it or not.

In every state that the machine can reach, the lexemes read so far can be completed to a line.
Hence the first lexeme that the machine refuses is the first one that no line could have in its
place, and faults are reported from the left: a lexeme that is refused, then a character that starts
no lexeme, then a text that ends too early.

The line that is read is in normal form. Words are in lower-case, the two second names of registers
are replaced, numbers have lost their spelling, and modifiers are fused with their amounts.
-/

namespace A64Text.Line

/-! ### Normal names -/

/-- The second names of registers in the procedure call standard. -/
def registerAliases : List (String × String) := [("fp", "x29"), ("lr", "x30")]

/-- A mnemonic in normal form. -/
def normalMnemonic (spelling : List Char) : String := String.ofList (spelling.map Char.toLower)

/-- An operand name in normal form. -/
def normalName (spelling : List Char) : String :=
  let name := normalMnemonic spelling
  (registerAliases.lookup name).getD name

/-! ### The machine -/

/-- What has been read of the term in progress. -/
inductive Pending where
  /-- Nothing. -/
  | vacant
  /-- A word, behind which an immediate may follow. -/
  | named (name : String)
  /-- A hash, behind which a number must follow. -/
  | hash (name? : Option String)
  /-- A number; the term is complete. -/
  | filled (t : Term)
  deriving DecidableEq, Repr

namespace Pending

/-- One step inside a term. -/
def step : Pending → Lexeme → Option Pending
  | vacant, .word cs => some (named (normalName cs))
  | vacant, .hash => some (hash none)
  | vacant, .number cs => some (filled ⟨none, some (Lexeme.numberValue cs)⟩)
  | named name, .hash => some (hash (some name))
  | named name, .number cs => some (filled ⟨some name, some (Lexeme.numberValue cs)⟩)
  | hash name?, .number cs => some (filled ⟨name?, some (Lexeme.numberValue cs)⟩)
  | _, _ => none

/-- The term, if it may end here. -/
def term? : Pending → Option Term
  | named name => some ⟨some name, none⟩
  | filled t => some t
  | _ => none

end Pending

/-- A place in the grammar, with what has been read before it. -/
inductive State where
  /-- The beginning. -/
  | start
  /-- Behind the mnemonic. -/
  | mnemonic (m : String)
  /-- In a term that is an operand. -/
  | operand (m : String) (before : List Item) (pending : Pending)
  /-- In a term between brackets. -/
  | memory (m : String) (before : List Item) (parts : List Term) (pending : Pending)
  /-- Behind a closing bracket. -/
  | closed (m : String) (before : List Item) (parts : List Term) (writeback : Bool)
  deriving DecidableEq, Repr

namespace State

/-- A step at the beginning of an operand. -/
def startOperand (m : String) (before : List Item) : Lexeme → Option State
  | .beginMemory => some (memory m before [] .vacant)
  | t => (Pending.vacant.step t).map (operand m before)

/-- One step of the machine. -/
def step : State → Lexeme → Option State
  | start, .word cs => some (mnemonic (normalMnemonic cs))
  | start, _ => none
  | mnemonic m, t => startOperand m [] t
  | operand m before .vacant, t => startOperand m before t
  | operand m before pending, .comma =>
    pending.term?.map fun t ↦ operand m (before ++ [.term t]) .vacant
  | operand m before pending, t => (pending.step t).map (operand m before)
  | memory m before parts pending, .comma =>
    pending.term?.map fun t ↦ memory m before (parts ++ [t]) .vacant
  | memory m before parts pending, .endMemory =>
    pending.term?.map fun t ↦ closed m before (parts ++ [t]) false
  | memory m before parts pending, t => (pending.step t).map (memory m before parts)
  -- A second bang has no place behind the first.
  | closed m before parts false, .bang => some (closed m before parts true)
  | closed m before parts writeback, .comma =>
    some (operand m (before ++ [.memory (fuseTerms parts) writeback]) .vacant)
  | closed .., _ => none

/-- The line that has been read, if it may end here. -/
def line? : State → Option Line
  | start | memory .. => none
  | mnemonic m => some ⟨m, []⟩
  | operand m before pending => pending.term?.map fun t ↦ ⟨m, fuseItems (before ++ [.term t])⟩
  | closed m before parts writeback =>
    some ⟨m, fuseItems (before ++ [.memory (fuseTerms parts) writeback])⟩

/-- The steps of the machine over lexemes; the error is the column of the first one refused. -/
def run : State → List (Nat × Lexeme) → Except Nat State
  | s, [] => .ok s
  | s, (column, t) :: rest =>
    match s.step t with
    | some s' => s'.run rest
    | none => .error column

end State

/-! ### Reading -/

/-- What is wrong with a text that is no line. -/
inductive Fault where
  /-- No lexeme starts at a column. -/
  | character (column : Nat)
  /-- The lexeme at a column cannot stand there. -/
  | lexeme (column : Nat)
  /-- The text ends too early. -/
  | ending
  deriving DecidableEq, Repr

/-- The column of a fault, which is -1 at the end of the text. -/
def Fault.column : Fault → Int
  | character column | lexeme column => column
  | ending => -1

/-- A text that is no line, and what is wrong with it. -/
structure SyntaxError where
  text : String
  fault : Fault
  deriving DecidableEq, Repr

/-- The line that characters spell. -/
def readChars (cs : List Char) : Except Fault Line :=
  let found := Lexeme.scan 1 cs
  match State.start.run found.lexemes with
  | .error column => .error (.lexeme column)
  | .ok s =>
    match found.stop? with
    | some column => .error (.character column)
    | none =>
      match s.line? with
      | some l => .ok l
      | none => .error .ending

/-- Reads a text as a line. Blanks around it do not count, in columns either. -/
def read (text : String) : Except SyntaxError Line :=
  (readChars (Text.trimChars text.toList)).mapError (⟨text, ·⟩)

/-- Whether two texts spell the same line; the first one is read first. -/
def equivalent (a b : String) : Except SyntaxError Bool := do
  let left ← read a
  let right ← read b
  return left = right

end A64Text.Line
