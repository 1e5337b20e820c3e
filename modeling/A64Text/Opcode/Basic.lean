import A64Text.Text.Case

/-!
# Opcodes

The operations of the instruction set, grouped by encoding family: an opcode is a family together
with one of that family's operations. Every opcode has a listed name and a number. Numbers start at
one and follow the order of `Opcode.all`, in which the families come one after the other.
-/

namespace A64Text

/-! ### The operations of each family -/

/-- Operations that form an address from the program counter. -/
inductive PcRelativeOp where
  | adr | adrp
  deriving DecidableEq, Repr

/-- The operations of this group, in the order of their numbers. -/
def PcRelativeOp.all : List PcRelativeOp :=
  [.adr, .adrp]

/-- The listed name of the operation. -/
def PcRelativeOp.name : PcRelativeOp → String
  | .adr => "ADR"
  | .adrp => "ADRP"

/-- Addition and subtraction, in each of their three forms. -/
inductive AddSubOp where
  | add | sub
  deriving DecidableEq, Repr

/-- The operations of this group, in the order of their numbers. -/
def AddSubOp.all : List AddSubOp :=
  [.add, .sub]

/-- The name of the operation, without what marks its form. -/
def AddSubOp.name : AddSubOp → String
  | .add => "ADD"
  | .sub => "SUB"

/-- Logical operations with an immediate. -/
inductive LogicalImmediateOp where
  | and | orr | eor
  deriving DecidableEq, Repr

/-- The operations of this group, in the order of their numbers. -/
def LogicalImmediateOp.all : List LogicalImmediateOp :=
  [.and, .orr, .eor]

/-- The name of the operation, without what marks its form. -/
def LogicalImmediateOp.name : LogicalImmediateOp → String
  | .and => "AND"
  | .orr => "ORR"
  | .eor => "EOR"

/-- Moves of a wide immediate. -/
inductive MoveWideOp where
  | movn | movk | movz
  deriving DecidableEq, Repr

/-- The operations of this group, in the order of their numbers. -/
def MoveWideOp.all : List MoveWideOp :=
  [.movn, .movk, .movz]

/-- The listed name of the operation. -/
def MoveWideOp.name : MoveWideOp → String
  | .movn => "MOVN"
  | .movk => "MOVK"
  | .movz => "MOVZ"

/-- Bitfield moves. -/
inductive BitfieldOp where
  | sbfm | bfm | ubfm
  deriving DecidableEq, Repr

/-- The operations of this group, in the order of their numbers. -/
def BitfieldOp.all : List BitfieldOp :=
  [.sbfm, .bfm, .ubfm]

/-- The listed name of the operation. -/
def BitfieldOp.name : BitfieldOp → String
  | .sbfm => "SBFM"
  | .bfm => "BFM"
  | .ubfm => "UBFM"

/-- Operations that raise an exception. -/
inductive ExceptionOp where
  | brk | dcps1 | dcps2 | dcps3 | hlt | hvc | smc | svc
  deriving DecidableEq, Repr

/-- The operations of this group, in the order of their numbers. -/
def ExceptionOp.all : List ExceptionOp :=
  [.brk, .dcps1, .dcps2, .dcps3, .hlt, .hvc, .smc, .svc]

/-- The listed name of the operation. -/
def ExceptionOp.name : ExceptionOp → String
  | .brk => "BRK"
  | .dcps1 => "DCPS1"
  | .dcps2 => "DCPS2"
  | .dcps3 => "DCPS3"
  | .hlt => "HLT"
  | .hvc => "HVC"
  | .smc => "SMC"
  | .svc => "SVC"

/-- Hints, barriers and accesses to system registers. -/
inductive SystemOp where
  | autia1716 | autiasp | autiaz | autib1716 | autibsp | autibz | clrex | dmb | dsb | esb | hint
  | isb | mrs | msr | nop | pacia1716 | paciasp | paciaz | pacib1716 | pacibsp | pacibz
  | psbCsync | sev | sevl | sys | sysl | wfe | wfi | xpaclri | yield
  deriving DecidableEq, Repr

/-- The operations of this group, in the order of their numbers. -/
def SystemOp.all : List SystemOp :=
  [.autia1716, .autiasp, .autiaz, .autib1716, .autibsp, .autibz, .clrex, .dmb, .dsb, .esb, .hint,
    .isb, .mrs, .msr, .nop, .pacia1716, .paciasp, .paciaz, .pacib1716, .pacibsp, .pacibz,
    .psbCsync, .sev, .sevl, .sys, .sysl, .wfe, .wfi, .xpaclri, .yield]

/-- The listed name of the operation. -/
def SystemOp.name : SystemOp → String
  | .autia1716 => "AUTIA1716"
  | .autiasp => "AUTIASP"
  | .autiaz => "AUTIAZ"
  | .autib1716 => "AUTIB1716"
  | .autibsp => "AUTIBSP"
  | .autibz => "AUTIBZ"
  | .clrex => "CLREX"
  | .dmb => "DMB"
  | .dsb => "DSB"
  | .esb => "ESB"
  | .hint => "HINT"
  | .isb => "ISB"
  | .mrs => "MRS"
  | .msr => "MSR"
  | .nop => "NOP"
  | .pacia1716 => "PACIA1716"
  | .paciasp => "PACIASP"
  | .paciaz => "PACIAZ"
  | .pacib1716 => "PACIB1716"
  | .pacibsp => "PACIBSP"
  | .pacibz => "PACIBZ"
  | .psbCsync => "PSB_CSYNC"
  | .sev => "SEV"
  | .sevl => "SEVL"
  | .sys => "SYS"
  | .sysl => "SYSL"
  | .wfe => "WFE"
  | .wfi => "WFI"
  | .xpaclri => "XPACLRI"
  | .yield => "YIELD"

/-- Branches to the address in a register. -/
inductive BranchRegisterOp where
  | blr | blraa | blraaz | blrab | blrabz | br | braa | braaz | brab | brabz | drps | eret
  | eretaa | eretab | ret | retaa | retab
  deriving DecidableEq, Repr

/-- The operations of this group, in the order of their numbers. -/
def BranchRegisterOp.all : List BranchRegisterOp :=
  [.blr, .blraa, .blraaz, .blrab, .blrabz, .br, .braa, .braaz, .brab, .brabz, .drps, .eret,
    .eretaa, .eretab, .ret, .retaa, .retab]

/-- The listed name of the operation. -/
def BranchRegisterOp.name : BranchRegisterOp → String
  | .blr => "BLR"
  | .blraa => "BLRAA"
  | .blraaz => "BLRAAZ"
  | .blrab => "BLRAB"
  | .blrabz => "BLRABZ"
  | .br => "BR"
  | .braa => "BRAA"
  | .braaz => "BRAAZ"
  | .brab => "BRAB"
  | .brabz => "BRABZ"
  | .drps => "DRPS"
  | .eret => "ERET"
  | .eretaa => "ERETAA"
  | .eretab => "ERETAB"
  | .ret => "RET"
  | .retaa => "RETAA"
  | .retab => "RETAB"

/-- Unconditional branches to an offset. -/
inductive BranchImmediateOp where
  | b | bl
  deriving DecidableEq, Repr

/-- The operations of this group, in the order of their numbers. -/
def BranchImmediateOp.all : List BranchImmediateOp :=
  [.b, .bl]

/-- The listed name of the operation. -/
def BranchImmediateOp.name : BranchImmediateOp → String
  | .b => "B"
  | .bl => "BL"

/-- Branches on a register that is zero or is not. -/
inductive CompareBranchOp where
  | cbnz | cbz
  deriving DecidableEq, Repr

/-- The operations of this group, in the order of their numbers. -/
def CompareBranchOp.all : List CompareBranchOp :=
  [.cbnz, .cbz]

/-- The listed name of the operation. -/
def CompareBranchOp.name : CompareBranchOp → String
  | .cbnz => "CBNZ"
  | .cbz => "CBZ"

/-- Branches on one bit of a register. -/
inductive TestBranchOp where
  | tbnz | tbz
  deriving DecidableEq, Repr

/-- The operations of this group, in the order of their numbers. -/
def TestBranchOp.all : List TestBranchOp :=
  [.tbnz, .tbz]

/-- The listed name of the operation. -/
def TestBranchOp.name : TestBranchOp → String
  | .tbnz => "TBNZ"
  | .tbz => "TBZ"

/-- Exclusive and ordered loads and stores. -/
inductive ExclusiveOp where
  | ldar | ldaxp | ldaxr | ldlar | ldxp | ldxr | stllr | stlr | stlxp | stlxr | stxp | stxr
  deriving DecidableEq, Repr

/-- The operations of this group, in the order of their numbers. -/
def ExclusiveOp.all : List ExclusiveOp :=
  [.ldar, .ldaxp, .ldaxr, .ldlar, .ldxp, .ldxr, .stllr, .stlr, .stlxp, .stlxr, .stxp, .stxr]

/-- The listed name of the operation. -/
def ExclusiveOp.name : ExclusiveOp → String
  | .ldar => "LDAR"
  | .ldaxp => "LDAXP"
  | .ldaxr => "LDAXR"
  | .ldlar => "LDLAR"
  | .ldxp => "LDXP"
  | .ldxr => "LDXR"
  | .stllr => "STLLR"
  | .stlr => "STLR"
  | .stlxp => "STLXP"
  | .stlxr => "STLXR"
  | .stxp => "STXP"
  | .stxr => "STXR"

/-- Loads from an offset to the program counter. -/
inductive LoadLiteralOp where
  | ldr | ldrs | prfm
  deriving DecidableEq, Repr

/-- The operations of this group, in the order of their numbers. -/
def LoadLiteralOp.all : List LoadLiteralOp :=
  [.ldr, .ldrs, .prfm]

/-- The name of the operation, without what marks its form. -/
def LoadLiteralOp.name : LoadLiteralOp → String
  | .ldr => "LDR"
  | .ldrs => "LDRS"
  | .prfm => "PRFM"

/-- Loads and stores of two registers. -/
inductive LoadStorePairOp where
  | ldnp | ldp | ldpsw | stnp | stp
  deriving DecidableEq, Repr

/-- The operations of this group, in the order of their numbers. -/
def LoadStorePairOp.all : List LoadStorePairOp :=
  [.ldnp, .ldp, .ldpsw, .stnp, .stp]

/-- The listed name of the operation. -/
def LoadStorePairOp.name : LoadStorePairOp → String
  | .ldnp => "LDNP"
  | .ldp => "LDP"
  | .ldpsw => "LDPSW"
  | .stnp => "STNP"
  | .stp => "STP"

/-- Loads and stores of one register. -/
inductive LoadStoreOp where
  | ldr | ldrs | ldtr | ldtrs | ldur | ldurs | prfm | str | sttr | stur
  deriving DecidableEq, Repr

/-- The operations of this group, in the order of their numbers. -/
def LoadStoreOp.all : List LoadStoreOp :=
  [.ldr, .ldrs, .ldtr, .ldtrs, .ldur, .ldurs, .prfm, .str, .sttr, .stur]

/-- The listed name of the operation. -/
def LoadStoreOp.name : LoadStoreOp → String
  | .ldr => "LDR"
  | .ldrs => "LDRS"
  | .ldtr => "LDTR"
  | .ldtrs => "LDTRS"
  | .ldur => "LDUR"
  | .ldurs => "LDURS"
  | .prfm => "PRFM"
  | .str => "STR"
  | .sttr => "STTR"
  | .stur => "STUR"

/-- Data processing with two source registers. -/
inductive TwoSourceOp where
  | asr | crc32b | crc32cb | crc32ch | crc32cw | crc32cx | crc32h | crc32w | crc32x | lsl | lsr
  | pacga | ror | sdiv | udiv
  deriving DecidableEq, Repr

/-- The operations of this group, in the order of their numbers. -/
def TwoSourceOp.all : List TwoSourceOp :=
  [.asr, .crc32b, .crc32cb, .crc32ch, .crc32cw, .crc32cx, .crc32h, .crc32w, .crc32x, .lsl, .lsr,
    .pacga, .ror, .sdiv, .udiv]

/-- The listed name of the operation. -/
def TwoSourceOp.name : TwoSourceOp → String
  | .asr => "ASR"
  | .crc32b => "CRC32B"
  | .crc32cb => "CRC32CB"
  | .crc32ch => "CRC32CH"
  | .crc32cw => "CRC32CW"
  | .crc32cx => "CRC32CX"
  | .crc32h => "CRC32H"
  | .crc32w => "CRC32W"
  | .crc32x => "CRC32X"
  | .lsl => "LSL"
  | .lsr => "LSR"
  | .pacga => "PACGA"
  | .ror => "ROR"
  | .sdiv => "SDIV"
  | .udiv => "UDIV"

/-- Data processing with one source register. -/
inductive OneSourceOp where
  | autda | autdb | autia | autib | cls | clz | pacda | pacdb | pacia | pacib | rbit | rev
  | rev16 | rev32 | xpacd | xpaci
  deriving DecidableEq, Repr

/-- The operations of this group, in the order of their numbers. -/
def OneSourceOp.all : List OneSourceOp :=
  [.autda, .autdb, .autia, .autib, .cls, .clz, .pacda, .pacdb, .pacia, .pacib, .rbit, .rev,
    .rev16, .rev32, .xpacd, .xpaci]

/-- The listed name of the operation. -/
def OneSourceOp.name : OneSourceOp → String
  | .autda => "AUTDA"
  | .autdb => "AUTDB"
  | .autia => "AUTIA"
  | .autib => "AUTIB"
  | .cls => "CLS"
  | .clz => "CLZ"
  | .pacda => "PACDA"
  | .pacdb => "PACDB"
  | .pacia => "PACIA"
  | .pacib => "PACIB"
  | .rbit => "RBIT"
  | .rev => "REV"
  | .rev16 => "REV16"
  | .rev32 => "REV32"
  | .xpacd => "XPACD"
  | .xpaci => "XPACI"

/-- Logical operations with a shifted register. -/
inductive LogicalShiftedOp where
  | and | bic | eor | orn | orr | eon
  deriving DecidableEq, Repr

/-- The operations of this group, in the order of their numbers. -/
def LogicalShiftedOp.all : List LogicalShiftedOp :=
  [.and, .bic, .eor, .orn, .orr, .eon]

/-- The name of the operation, without what marks its form. -/
def LogicalShiftedOp.name : LogicalShiftedOp → String
  | .and => "AND"
  | .bic => "BIC"
  | .eor => "EOR"
  | .orn => "ORN"
  | .orr => "ORR"
  | .eon => "EON"

/-- Addition and subtraction with carry. -/
inductive CarryOp where
  | adc | sbc
  deriving DecidableEq, Repr

/-- The operations of this group, in the order of their numbers. -/
def CarryOp.all : List CarryOp :=
  [.adc, .sbc]

/-- The listed name of the operation. -/
def CarryOp.name : CarryOp → String
  | .adc => "ADC"
  | .sbc => "SBC"

/-- Comparisons under a condition. -/
inductive ConditionalCompareOp where
  | ccmn | ccmp
  deriving DecidableEq, Repr

/-- The operations of this group, in the order of their numbers. -/
def ConditionalCompareOp.all : List ConditionalCompareOp :=
  [.ccmn, .ccmp]

/-- The listed name of the operation. -/
def ConditionalCompareOp.name : ConditionalCompareOp → String
  | .ccmn => "CCMN"
  | .ccmp => "CCMP"

/-- Choices between two registers by a condition. -/
inductive ConditionalSelectOp where
  | csel | csinc | csinv | csneg
  deriving DecidableEq, Repr

/-- The operations of this group, in the order of their numbers. -/
def ConditionalSelectOp.all : List ConditionalSelectOp :=
  [.csel, .csinc, .csinv, .csneg]

/-- The listed name of the operation. -/
def ConditionalSelectOp.name : ConditionalSelectOp → String
  | .csel => "CSEL"
  | .csinc => "CSINC"
  | .csinv => "CSINV"
  | .csneg => "CSNEG"

/-- Multiplications, with or without an accumulator. -/
inductive ThreeSourceOp where
  | madd | msub | smaddl | smsubl | smulh | umaddl | umulh | umsubl
  deriving DecidableEq, Repr

/-- The operations of this group, in the order of their numbers. -/
def ThreeSourceOp.all : List ThreeSourceOp :=
  [.madd, .msub, .smaddl, .smsubl, .smulh, .umaddl, .umulh, .umsubl]

/-- The listed name of the operation. -/
def ThreeSourceOp.name : ThreeSourceOp → String
  | .madd => "MADD"
  | .msub => "MSUB"
  | .smaddl => "SMADDL"
  | .smsubl => "SMSUBL"
  | .smulh => "SMULH"
  | .umaddl => "UMADDL"
  | .umulh => "UMULH"
  | .umsubl => "UMSUBL"

/-! ### Opcodes -/

/-- An operation of the instruction set. -/
inductive Opcode where
  | pcRelativeAddressing (op : PcRelativeOp)
  | addSubtractImmediate (op : AddSubOp)
  | logicalImmediate (op : LogicalImmediateOp)
  | moveWideImmediate (op : MoveWideOp)
  | bitfield (op : BitfieldOp)
  | extract
  | conditionalBranch
  | exceptionGeneration (op : ExceptionOp)
  | system (op : SystemOp)
  | branchRegister (op : BranchRegisterOp)
  | branchImmediate (op : BranchImmediateOp)
  | compareAndBranch (op : CompareBranchOp)
  | testAndBranch (op : TestBranchOp)
  | loadStoreExclusive (op : ExclusiveOp)
  | loadLiteral (op : LoadLiteralOp)
  | loadStorePair (op : LoadStorePairOp)
  | loadStore (op : LoadStoreOp)
  | dataProcessingTwoSource (op : TwoSourceOp)
  | dataProcessingOneSource (op : OneSourceOp)
  | logicalShiftedRegister (op : LogicalShiftedOp)
  | addSubtractShiftedRegister (op : AddSubOp)
  | addSubtractExtendedRegister (op : AddSubOp)
  | addSubtractWithCarry (op : CarryOp)
  | conditionalCompare (op : ConditionalCompareOp)
  | conditionalSelect (op : ConditionalSelectOp)
  | dataProcessingThreeSource (op : ThreeSourceOp)
  deriving DecidableEq, Repr

namespace Opcode

/-- The listed name of an opcode. -/
def name : Opcode → String
  | pcRelativeAddressing op => op.name
  | addSubtractImmediate op => op.name ++ "_IMMEDIATE"
  | logicalImmediate op => op.name ++ "_IMMEDIATE"
  | moveWideImmediate op => op.name
  | bitfield op => op.name
  | extract => "EXTR"
  | conditionalBranch => "B_COND"
  | exceptionGeneration op => op.name
  | system op => op.name
  | branchRegister op => op.name
  | branchImmediate op => op.name
  | compareAndBranch op => op.name
  | testAndBranch op => op.name
  | loadStoreExclusive op => op.name
  | loadLiteral op => op.name ++ "_LITERAL"
  | loadStorePair op => op.name
  | loadStore op => op.name
  | dataProcessingTwoSource op => op.name
  | dataProcessingOneSource op => op.name
  | logicalShiftedRegister op => op.name ++ "_SHIFTED_REGISTER"
  | addSubtractShiftedRegister op => op.name ++ "_SHIFTED_REGISTER"
  | addSubtractExtendedRegister op => op.name ++ "_EXTENDED_REGISTER"
  | addSubtractWithCarry op => op.name
  | conditionalCompare op => op.name
  | conditionalSelect op => op.name
  | dataProcessingThreeSource op => op.name

/-- All opcodes, in the order of their numbers. -/
def all : List Opcode :=
  PcRelativeOp.all.map pcRelativeAddressing ++
  AddSubOp.all.map addSubtractImmediate ++
  LogicalImmediateOp.all.map logicalImmediate ++
  MoveWideOp.all.map moveWideImmediate ++
  BitfieldOp.all.map bitfield ++
  [extract] ++
  [conditionalBranch] ++
  ExceptionOp.all.map exceptionGeneration ++
  SystemOp.all.map system ++
  BranchRegisterOp.all.map branchRegister ++
  BranchImmediateOp.all.map branchImmediate ++
  CompareBranchOp.all.map compareAndBranch ++
  TestBranchOp.all.map testAndBranch ++
  ExclusiveOp.all.map loadStoreExclusive ++
  LoadLiteralOp.all.map loadLiteral ++
  LoadStorePairOp.all.map loadStorePair ++
  LoadStoreOp.all.map loadStore ++
  TwoSourceOp.all.map dataProcessingTwoSource ++
  OneSourceOp.all.map dataProcessingOneSource ++
  LogicalShiftedOp.all.map logicalShiftedRegister ++
  AddSubOp.all.map addSubtractShiftedRegister ++
  AddSubOp.all.map addSubtractExtendedRegister ++
  CarryOp.all.map addSubtractWithCarry ++
  ConditionalCompareOp.all.map conditionalCompare ++
  ConditionalSelectOp.all.map conditionalSelect ++
  ThreeSourceOp.all.map dataProcessingThreeSource

/-- The number of an opcode. -/
def number (op : Opcode) : Nat := all.idxOf op + 1

/-- The opcode with a number. -/
def ofNumber? (n : Int) : Option Opcode := if 1 ≤ n then all[(n - 1).toNat]? else none

/-- The opcode with a listed name, in any case. -/
def ofName? (name : String) : Option Opcode :=
  all.find? fun op ↦ op.name = Text.upperName name

end Opcode

end A64Text
