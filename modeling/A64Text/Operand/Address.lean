import A64Text.Operand.Modifier
import A64Text.Operand.Register

/-!
# Addresses

An address operand is a base register with an offset, which is an immediate or a register. Its two
flags give the indexing mode: without writeback the base keeps its value, and the post-index flag
then means nothing; with writeback the offset is added before the access, or after it when the
post-index flag is set. A flag is set if what was given for it counts as true.

A plain or pre-indexed address prints its offset inside the brackets. A post-indexed one prints it
behind them. An immediate offset of zero is left out of a plain address, together with its shift.
The offset is made out before the base, and so is its fault.
-/

namespace A64Text

/-- When the offset of an address is added to the base register. -/
inductive Indexing where
  | plain
  | pre
  | post
  deriving DecidableEq, Repr

namespace Indexing

/-- The indexing mode that the two flags of an address select. -/
def ofFlags (writeback postIndex : Bool) : Indexing :=
  if writeback then (if postIndex then post else pre) else plain

/-- The tokens of an address with the given base and offset. -/
def addressTokens (mode : Indexing) (base : Register) (offset : List Token) : List Token :=
  match mode with
  | plain => .beginMemory :: base.tokens ++ Token.behindComma offset ++ [.endMemory false]
  | pre => .beginMemory :: base.tokens ++ Token.behindComma offset ++ [.endMemory true]
  | post => .beginMemory :: base.tokens ++ [.endMemory false] ++ Token.behindComma offset

end Indexing

/-- An address with an immediate offset. -/
structure ImmediateOffset where
  base : Register
  offset : Immediate
  shift : Shift := {}
  writeback : Json := .bool false
  postIndex : Json := .bool false
  /-- The access size in bits, as it was given. -/
  size : Json := .int 64
  deriving DecidableEq, Repr

namespace ImmediateOffset

/-- The indexing mode of the address. -/
def indexing (a : ImmediateOffset) : Indexing := .ofFlags a.writeback.isTruthy a.postIndex.isTruthy

/-- Whether the offset is printed. -/
def showsOffset (a : ImmediateOffset) : Bool := !a.offset.given.isZero || a.writeback.isTruthy

/-- The tokens of the address. -/
def tokens (a : ImmediateOffset) : List Token :=
  a.indexing.addressTokens a.base
    (if a.showsOffset then a.offset.signedTokens ++ a.shift.tokens else [])

/-- Why the address does not print. -/
def fault? (a : ImmediateOffset) : Option PrintFault :=
  (if a.showsOffset then a.offset.signedFault?.or a.shift.fault? else none).or a.base.fault?

/-- Whether two addresses are equal. -/
def same (a b : ImmediateOffset) : Bool :=
  a.base.same b.base && a.offset.same b.offset && a.shift.same b.shift &&
    a.writeback.same b.writeback && a.postIndex.same b.postIndex && a.size.same b.size

/-- Whether the address can be looked up. -/
def isKey (a : ImmediateOffset) : Bool :=
  a.base.isKey && a.shift.isKey && a.writeback.isKey && a.postIndex.isKey && a.size.isKey

end ImmediateOffset

/-- An address with a register offset. -/
structure RegisterOffset where
  base : Register
  offset : Register
  extend : Extend := {}
  writeback : Json := .bool false
  postIndex : Json := .bool false
  /-- The access size in bits, as it was given. -/
  size : Json := .int 64
  deriving DecidableEq, Repr

namespace RegisterOffset

/-- The indexing mode of the address. -/
def indexing (a : RegisterOffset) : Indexing := .ofFlags a.writeback.isTruthy a.postIndex.isTruthy

/-- The tokens of the address. -/
def tokens (a : RegisterOffset) : List Token :=
  a.indexing.addressTokens a.base (a.offset.tokens ++ a.extend.tokens)

/-- Why the address does not print. -/
def fault? (a : RegisterOffset) : Option PrintFault := a.offset.fault?.or a.base.fault?

/-- Whether two addresses are equal. -/
def same (a b : RegisterOffset) : Bool :=
  a.base.same b.base && a.offset.same b.offset && a.extend.same b.extend &&
    a.writeback.same b.writeback && a.postIndex.same b.postIndex && a.size.same b.size

/-- Whether the address can be looked up. -/
def isKey (a : RegisterOffset) : Bool :=
  a.base.isKey && a.offset.isKey && a.extend.isKey && a.writeback.isKey && a.postIndex.isKey &&
    a.size.isKey

end RegisterOffset

end A64Text
