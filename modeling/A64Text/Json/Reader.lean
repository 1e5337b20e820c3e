import A64Text.Json.Lexeme

/-!
# Reading JSON

The second half of reading JSON: a machine that takes one lexeme at a time and keeps a stack of the
arrays and objects that are still open. A text is JSON when the machine takes all of its lexemes and
ends with one finished value and nothing open.
-/

namespace A64Text.Json

/-- An array or object that is still open, with what it holds so far. -/
inductive Frame where
  | array (items : List Json)
  | object (members : List (String × Json)) (key : String)

/-- What the machine has read, and so what may come next. -/
inductive State where
  /-- A value must follow. -/
  | value (stack : List Frame)
  /-- An array was just opened: a value or its end follows. -/
  | arrayStart (stack : List Frame)
  /-- An object was just opened: a key or its end follows. -/
  | objectStart (stack : List Frame)
  /-- A key must follow. -/
  | key (members : List (String × Json)) (stack : List Frame)
  /-- The colon behind a key must follow. -/
  | colon (members : List (String × Json)) (key : String) (stack : List Frame)
  /-- A value is complete. -/
  | complete (v : Json) (stack : List Frame)

namespace State

/-- A lexeme where a value starts. -/
def startValue (stack : List Frame) : Lexeme → Option State
  | .str ps => some (complete (.ofPoints ps) stack)
  | .scalar v => some (complete v stack)
  | .beginArray => some (arrayStart stack)
  | .beginObject => some (objectStart stack)
  | _ => none

/-- A lexeme behind a value that is complete. -/
def continue? (v : Json) : List Frame → Lexeme → Option State
  | .array items :: stack, .comma => some (value (.array (items ++ [v]) :: stack))
  | .array items :: stack, .endArray => some (complete (.arr (items ++ [v])) stack)
  | .object members k :: stack, .comma => some (key (members ++ [(k, v)]) stack)
  | .object members k :: stack, .endObject => some (complete (.obj (members ++ [(k, v)])) stack)
  | _, _ => none

/-- One step of the machine. -/
def step : State → Lexeme → Option State
  | value stack, t => startValue stack t
  | arrayStart stack, .endArray => some (complete (.arr []) stack)
  | arrayStart stack, t => startValue (.array [] :: stack) t
  | objectStart stack, .endObject => some (complete (.obj []) stack)
  | objectStart stack, .str ps => some (colon [] (Text.ofPoints ps) stack)
  | objectStart _, _ => none
  | key members stack, .str ps => some (colon members (Text.ofPoints ps) stack)
  | key _ _, _ => none
  | colon members k stack, .colon => some (value (.object members k :: stack))
  | colon _ _ _, _ => none
  | complete v stack, t => continue? v stack t

/-- The steps of the machine over a list of lexemes. -/
def run : State → List Lexeme → Option State
  | s, [] => some s
  | s, t :: rest => (s.step t).bind fun s' ↦ s'.run rest

/-- The value of a machine that has read exactly one. -/
def result? : State → Option Json
  | complete v [] => some v
  | _ => none

end State

/-- The value that lexemes spell, if they spell exactly one. -/
def ofLexemes (lexemes : List Lexeme) : Option Json :=
  ((State.value []).run lexemes).bind State.result?

/-- The value that a text spells, if it is JSON. -/
def read (text : String) : Option Json :=
  (Lexeme.scan text.toList).bind ofLexemes

end A64Text.Json
