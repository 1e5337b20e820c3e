import A64Text.Layout.Field

/-!
# Loads and stores

Layouts of the families that access memory. The access size shows in the mnemonic: accesses of one
and two bytes get a letter, and a sign-extending load of four bytes gets one too. The size comes
from the transferred register for exclusive accesses and from the address otherwise.
-/

namespace A64Text

/-- The letter for an access size; a size that is no number has none. -/
def Layout.sizeSuffix (bits : Json) : String :=
  if bits.whole? = some 8 then "b" else if bits.whole? = some 16 then "h" else ""

/-! ### Exclusive accesses -/

/-- The mnemonic of an exclusive access without its size. -/
def ExclusiveOp.mnemonic (op : ExclusiveOp) : String := Text.lowerAscii op.name

/-- Whether an exclusive access transfers a pair of registers. -/
def ExclusiveOp.isPair : ExclusiveOp → Bool
  | .ldxp | .ldaxp | .stxp | .stlxp => true
  | _ => false

/-- The position of the transferred register: behind the status register if there is one. -/
def ExclusiveOp.transferIndex : ExclusiveOp → Nat
  | .stxr | .stxp | .stlxr | .stlxp => 1
  | _ => 0

/-- An exclusive or ordered access. Only the transferred register is checked. -/
def Layout.loadStoreExclusive (i : Instruction) : Except LayoutFault Layout :=
  match i.opcode? with
  | some (.loadStoreExclusive op) =>
    let index := op.transferIndex
    match i.operands[index]? with
    | some (.register rt) =>
      let suffix := if op.isPair then "" else sizeSuffix rt.size
      .ok ⟨op.mnemonic ++ suffix, i.operands.map Part.operand⟩
    | some o => .error (i.misfitFault .register index o)
    | none => .error (i.absentFault .register index)
  | _ => .error (i.notListedFault Family.loadStoreExclusive.name)

/-! ### Literals and pairs -/

/-- A load from an offset to the program counter. The address is checked first, then the opcode says
what the other operand has to be. -/
def Layout.loadLiteral (i : Instruction) : Except LayoutFault Layout :=
  match i.operands with
  | [first, .immediateOffset address] =>
    let target (mnemonic : String) : Except LayoutFault Layout :=
      match first with
      | .register rt => .ok ⟨mnemonic, [rt, .signed address.offset]⟩
      | o => .error (i.misfitFault .register 0 o)
    match i.opcode? with
    | some (.loadLiteral .prfm) =>
      match first with
      | .immediate operation =>
        (Prefetch.part operation.given).map fun part ↦ ⟨"prfm", [part, .signed address.offset]⟩
      | o => .error (i.misfitFault .immediate 0 o)
    | some (.loadLiteral .ldr) => target "ldr"
    | some (.loadLiteral .ldrs) => target "ldrsw"
    | _ => .error (i.notListedFault Family.loadLiteral.name)
  | [_, o] => .error (i.misfitFault .immediateOffset 1 o)
  | _ => .error (i.arityFault 2)

/-- The mnemonic of an access to a pair is its listed name in lower-case. -/
def LoadStorePairOp.mnemonic (op : LoadStorePairOp) : String := Text.lowerAscii op.name

/-- An access to a pair of registers. Only the number of operands is checked. -/
def Layout.loadStorePair (i : Instruction) : Except LayoutFault Layout :=
  if i.operands.length = 3 then
    match i.opcode? with
    | some (.loadStorePair op) => .ok ⟨op.mnemonic, i.operands.map Part.operand⟩
    | _ => .error (i.notListedFault Family.loadStorePair.name)
  else .error (i.arityFault 3)

/-! ### Single registers -/

/-- The mnemonic of an access to one register without its size. -/
def LoadStoreOp.mnemonic (op : LoadStoreOp) : String := Text.lowerAscii op.name

/-- Whether a load extends the sign. -/
def LoadStoreOp.isSigned : LoadStoreOp → Bool
  | .ldrs | .ldurs | .ldtrs => true
  | _ => false

/-- The access size of an address. -/
def Layout.addressSize? : Operand → Option Json
  | .immediateOffset a => some a.size
  | .registerOffset a => some a.size
  | _ => none

/-- The letter that an access of one register adds to its mnemonic. -/
def LoadStoreOp.sizeSuffix (op : LoadStoreOp) (size : Json) : String :=
  if size.whole? = some 32 ∧ op.isSigned then "w" else Layout.sizeSuffix size

/-- An access to one register. The address is checked first; only a prefetch also checks the other
operand. -/
def Layout.loadStore (i : Instruction) : Except LayoutFault Layout :=
  match i.operands with
  | [first, address] =>
    match addressSize? address with
    | some size =>
      match i.opcode? with
      | some (.loadStore .prfm) =>
        match first with
        | .immediate operation =>
          (Prefetch.part operation.given).map fun part ↦ ⟨"prfm", [part, address]⟩
        | o => .error (i.misfitFault .immediate 0 o)
      | some (.loadStore op) =>
        .ok ⟨op.mnemonic ++ op.sizeSuffix size, [first, address]⟩
      | _ => .error (i.notListedFault Family.loadStore.name)
    | none => .error (.noAddress i.name address.kind)
  | _ => .error (i.arityFault 2)

end A64Text
