import A64Text.Json.Equality

/-!
# Tokens

A printed line is a list of tokens, so that a viewer can colour and link its parts. A token knows
its kind and its spelling; the text of a line is the spellings one after the other, and blanks and
commas are tokens of their own.

Decoding does not look into widths, amounts and encoding fields, so an operand may hold anything
there. Most of it prints one way or another; what does not is a register whose width is no number,
and a shift whose amount is none. Whether an operand prints is told apart from what it prints
(`PrintFault`): the tokens of an operand are always defined, and mean something if its fault is
`none`.
-/

namespace A64Text

/-- One piece of a printed line. -/
inductive Token where
  /-- The mnemonic. -/
  | instruction (mnemonic : String)
  /-- A blank or a comma between two pieces. -/
  | separator (s : String)
  /-- A keyword, a condition or a placeholder. -/
  | text (s : String)
  /-- A number with its mark. -/
  | integer (s : String)
  /-- A register. -/
  | register (s : String)
  /-- The bracket that opens an address. -/
  | beginMemory
  /-- The bracket that closes an address, with the mark of writeback if there is one. -/
  | endMemory (writeback : Bool)
  deriving DecidableEq, Repr

namespace Token

/-- The characters that a token puts into the line. -/
def spelling : Token → String
  | instruction s | separator s | text s | integer s | register s => s
  | beginMemory => "["
  | endMemory false => "]"
  | endMemory true => "]!"

/-- The name of a token's kind. -/
def kindName : Token → String
  | instruction _ => "instruction"
  | separator _ => "separator"
  | text _ => "text"
  | integer _ => "integer"
  | register _ => "register"
  | beginMemory => "begin_memory"
  | endMemory _ => "end_memory"

/-- A token as it is shown for inspection. -/
def inspect : Token → String
  | instruction s => "TInstr(" ++ s ++ ")"
  | separator s => "TSep(" ++ s ++ ")"
  | text s => "TText(" ++ s ++ ")"
  | integer s => "TInt(" ++ s ++ ")"
  | register s => "TReg(" ++ s ++ ")"
  | beginMemory => "TBegMem()"
  | endMemory false => "TEndMem(False)"
  | endMemory true => "TEndMem(True)"

/-- The text of a list of tokens. -/
def concat : List Token → String
  | [] => ""
  | t :: rest => t.spelling ++ concat rest

@[simp] theorem concat_nil : concat [] = "" := rfl

@[simp] theorem concat_cons (t : Token) (rest : List Token) :
    concat (t :: rest) = t.spelling ++ concat rest := rfl

/-- The text of two lists is the one text behind the other. -/
@[simp] theorem concat_append (ts us : List Token) :
    concat (ts ++ us) = concat ts ++ concat us := by
  induction ts with
  | nil => simp
  | cons t rest ih => simp [ih, String.append_assoc]

/-- How many different tokens a list holds. -/
def countDistinct (tokens : List Token) : Nat := tokens.eraseDups.length

/-- The comma between two operands. -/
def comma : Token := separator ", "

/-- The blank behind a mnemonic or a keyword. -/
def blank : Token := separator " "

/-- Stands for an operand that has no written form. -/
def unsupportedOperand : Token := text "<unsupported_opnd>"

/-- Stands for an instruction whose opcode belongs to no family. -/
def unsupportedInstruction : Token := text "<unsupported_insn>"

/-- Tokens behind a comma; no tokens need none. -/
def behindComma (tokens : List Token) : List Token :=
  if tokens.isEmpty then [] else comma :: tokens

end Token

/-! ### Faults of printing -/

/-- Why an operand does not print. -/
inductive PrintFault where
  /-- A number is called for, and something that is neither number nor text was given. -/
  | notANumber
  /-- An integer in base sixteen is called for, and a value of this kind was given. -/
  | noBaseSixteen (kind : String)
  deriving DecidableEq, Repr

namespace PrintFault

/-- The wording of a fault. -/
def message : PrintFault → String
  | notANumber => "a number must stand here"
  | noBaseSixteen kind => "Unknown format code 'x' for object of type '" ++ kind ++ "'"

/-- The fault of a value that is compared with a number. -/
def ofCompared? (v : Json) : Option PrintFault :=
  if v.toNumber?.isSome then none else some notANumber

@[simp] theorem ofCompared?_int (n : Int) : ofCompared? (.int n) = none := rfl

/-- The fault of a value shown in base sixteen. -/
def ofBaseSixteen? : Json → Option PrintFault
  | .int _ | .bool _ => none
  | .str _ | .unpaired _ => some (noBaseSixteen "str")
  | .real _ => some (noBaseSixteen "float")
  | .null | .arr _ | .obj _ => some notANumber

@[simp] theorem ofBaseSixteen?_int (n : Int) : ofBaseSixteen? (.int n) = none := rfl

end PrintFault

end A64Text
