import A64Text.Proofs.Exchange.Names
import A64Text.Proofs.FieldTypes
import A64Text.Proofs.Json.WriteRead

/-!
# Operands that are written

The encoder and the decoder of operands are two case splits that know nothing of one another. What
the first makes of an operand that holds integers and truth values is plain, and the second makes the
same operand of it (`restores_operand`). An operand has a written form unless it is bare or one of its
kinds and names is outside its list (`exists_ofOperand_iff`).
-/

namespace A64Text

/-! ### Fields -/

namespace Json

variable {v : Json}

theorem sorted_of_isInt (h : v.isInt = true) : v.sorted = v := by
  obtain ⟨n, rfl⟩ := isInt_iff.1 h
  exact sorted_int n

theorem sorted_of_isBool (h : v.isBool = true) : v.sorted = v := by
  obtain ⟨b, rfl⟩ := isBool_iff.1 h
  exact sorted_bool b

theorem isPlain_of_isInt (h : v.isInt = true) : v.isPlain = true := by
  obtain ⟨n, rfl⟩ := isInt_iff.1 h
  rfl

theorem isPlain_of_isBool (h : v.isBool = true) : v.isPlain = true := by
  obtain ⟨b, rfl⟩ := isBool_iff.1 h
  rfl

theorem isPlain_ofNumber {n : Number} (h : n.isInt = true) : (ofNumber n).isPlain = true := by
  obtain ⟨k, rfl⟩ := Number.isInt_iff.1 h
  rfl

end Json

/-- Whether an operand has a written form. -/
def Operand.hasForm : Operand → Bool
  | register _ | immediate _ => true
  | systemRegister r => r.name.isListed
  | shift s => s.kind.isListed
  | extend e => e.kind.isListed
  | immediateOffset a => a.shift.kind.isListed
  | registerOffset a => a.extend.kind.isListed
  | bare => false

namespace Exchange

/-- A plain value that is decoded as `a`. -/
def Restores {α : Type} (decode : Json → Except DecodeFault α) (v : Json) (a : α) : Prop :=
  v.isPlain = true ∧ decode v = .ok a

/-- A name that is written is found again. -/
theorem restores_writtenName {α : Type} (group : String) {ofName? : String → Option α}
    {name : String} {a : α} (h : ofName? (Text.lowerAscii name) = some a)
    (hplain : Json.isPlainText (Text.lowerAscii name) = true) :
    Restores (listed group ofName?) (writtenName name) a := by
  refine ⟨hplain, ?_⟩
  rw [writtenName, listed, h]

/-! ### Registers and immediates -/

/-- A register is written with its number, as a name or as it is. -/
theorem exists_ofRegister (r : Register) :
    ∃ name, ofRegister r =
        .obj [("name", name), ("size", r.size.sorted), ("type", .str "reg")] ∧
      Restores registerNumber name r.number := by
  rw [ofRegister]
  cases hname : Register.nameOf? r.number with
  | none => exact ⟨_, rfl, rfl, rfl⟩
  | some name =>
    obtain ⟨hnumber, hnonneg, hplain⟩ := Register.numberOf?_lowerAscii hname
    obtain ⟨hplain, hlisted⟩ := restores_writtenName "RegisterName" hnumber hplain
    refine ⟨_, rfl, hplain, ?_⟩
    show (listed "RegisterName" Register.numberOf? (writtenName name)).map Int.ofNat = _
    rw [hlisted]
    exact congrArg Except.ok (Int.toNat_of_nonneg hnonneg)

theorem restores_register {r : Register} (h : r.hasIntegers = true) :
    Restores register (ofRegister r) r := by
  obtain ⟨name, heq, hplain, hnumber⟩ := exists_ofRegister r
  rw [heq, Json.sorted_of_isInt h]
  constructor
  · simp [Json.isPlain, Json.arePlainMembers, Json.isPlainText, Json.isPlainChar, hplain,
      Json.isPlain_of_isInt h]
  · simp [register, members, required, Exchange.optional, Json.lookup, hnumber, bind, Except.bind,
      pure, Except.pure]

/-- The two numbers of an immediate make an immediate again. -/
theorem ofNumbers_given_width (imm : Immediate) :
    Immediate.ofNumbers imm.given imm.width = .ok imm := by
  rw [Immediate.ofNumbers, dif_pos ⟨imm.given_nonneg, imm.given_le⟩,
    dif_pos ⟨imm.width_pos, imm.width_le⟩]

theorem restores_immediate {imm : Immediate} (h : imm.hasIntegers = true) :
    Restores immediate (ofImmediate imm) imm := by
  simp only [Immediate.hasIntegers, Bool.and_eq_true] at h
  -- The value alone makes an immediate of the largest width.
  have hvalue : ∃ imm', Immediate.ofNumbers imm.given (.int 64) = .ok imm' := by
    rw [Immediate.ofNumbers, dif_pos ⟨imm.given_nonneg, imm.given_le⟩, dif_pos ⟨rfl, rfl⟩]
    exact ⟨_, rfl⟩
  obtain ⟨imm', himm'⟩ := hvalue
  constructor
  · simp [ofImmediate, Json.isPlain, Json.arePlainMembers, Json.isPlainText, Json.isPlainChar,
      Json.isPlain_ofNumber h.1, Json.isPlain_ofNumber h.2]
  · simp [ofImmediate, immediate, members, required, number, Exchange.optional, Json.lookup, himm',
      ofNumbers_given_width, bind, Except.bind, Except.mapError]

/-! ### Modifiers and system registers -/

theorem restores_shift {s : Shift} {v : Json} (h : s.hasIntegers = true) (hv : ofShift s = .ok v) :
    Restores shift v s := by
  rw [ofShift] at hv
  split at hv
  · rename_i hlisted
    obtain rfl := Except.ok.inj hv
    obtain ⟨hname, htext⟩ := ShiftKind.ofName?_lowerAscii hlisted
    obtain ⟨hplain, hkind⟩ := restores_writtenName "ShiftType" hname htext
    rw [Json.sorted_of_isInt h]
    constructor
    · simp [Json.isPlain, Json.arePlainMembers, Json.isPlainText, Json.isPlainChar, hplain,
        Json.isPlain_of_isInt h]
    · simp [shift, members, required, Exchange.optional, Json.lookup, hkind, bind, Except.bind,
        pure, Except.pure]
  · cases hv

theorem restores_extend {e : Extend} {v : Json} (h : e.hasIntegers = true)
    (hv : ofExtend e = .ok v) : Restores extend v e := by
  rw [ofExtend] at hv
  split at hv
  · rename_i hlisted
    obtain rfl := Except.ok.inj hv
    obtain ⟨hname, htext⟩ := ExtendKind.ofName?_lowerAscii hlisted
    obtain ⟨hplain, hkind⟩ := restores_writtenName "ExtendType" hname htext
    rw [Json.sorted_of_isInt h]
    constructor
    · simp [Json.isPlain, Json.arePlainMembers, Json.isPlainText, Json.isPlainChar, hplain,
        Json.isPlain_of_isInt h]
    · simp [extend, members, required, Exchange.optional, Json.lookup, hkind, bind, Except.bind,
        pure, Except.pure]
  · cases hv

theorem restores_systemRegister {r : SystemRegister} {v : Json} (h : r.hasIntegers = true)
    (hv : ofSystemRegister r = .ok v) : Restores systemRegister v r := by
  simp only [SystemRegister.hasIntegers, Bool.and_eq_true] at h
  obtain ⟨⟨⟨⟨hop0, hop1⟩, hcrn⟩, hcrm⟩, hop2⟩ := h
  rw [ofSystemRegister] at hv
  split at hv
  · rename_i hlisted
    obtain rfl := Except.ok.inj hv
    obtain ⟨hname, htext⟩ := SystemRegisterName.ofName?_lowerAscii hlisted
    obtain ⟨hplain, hname⟩ := restores_writtenName "SystemRegisterName" hname htext
    rw [Json.sorted_of_isInt hop0, Json.sorted_of_isInt hop1, Json.sorted_of_isInt hcrn,
      Json.sorted_of_isInt hcrm, Json.sorted_of_isInt hop2]
    constructor
    · simp [Json.isPlain, Json.arePlainMembers, Json.isPlainText, Json.isPlainChar, hplain,
        Json.isPlain_of_isInt hop0, Json.isPlain_of_isInt hop1, Json.isPlain_of_isInt hcrn,
        Json.isPlain_of_isInt hcrm, Json.isPlain_of_isInt hop2]
    · simp [systemRegister, members, required, Exchange.optional, Json.lookup, hname, bind,
        Except.bind, pure, Except.pure]
  · cases hv

/-! ### Addresses -/

theorem restores_immediateOffset {a : ImmediateOffset} {v : Json} (h : a.hasIntegers = true)
    (hflags : (Operand.immediateOffset a).hasFlags = true) (hv : ofImmediateOffset a = .ok v) :
    Restores immediateOffset v a := by
  simp only [ImmediateOffset.hasIntegers, Bool.and_eq_true] at h
  simp only [Operand.hasFlags, Bool.and_eq_true] at hflags
  obtain ⟨⟨⟨hbase, hoffset⟩, hshift⟩, hsize⟩ := h
  obtain ⟨hwriteback, hpost⟩ := hflags
  rw [ofImmediateOffset] at hv
  cases hs : ofShift a.shift with
  | error fault =>
    rw [hs] at hv
    cases hv
  | ok s =>
    rw [hs] at hv
    obtain rfl := Except.ok.inj hv
    obtain ⟨hbase, hbase'⟩ := restores_register hbase
    obtain ⟨hoffset, hoffset'⟩ := restores_immediate hoffset
    obtain ⟨hshift, hshift'⟩ := restores_shift hshift hs
    rw [Json.sorted_of_isInt hsize, Json.sorted_of_isBool hwriteback, Json.sorted_of_isBool hpost]
    constructor
    · simp [Json.isPlain, Json.arePlainMembers, Json.isPlainText, Json.isPlainChar, hbase, hoffset,
        hshift, Json.isPlain_of_isInt hsize, Json.isPlain_of_isBool hwriteback,
        Json.isPlain_of_isBool hpost]
    · simp [immediateOffset, members, required, Exchange.optional, Json.lookup, hbase', hoffset',
        hshift', bind, Except.bind, pure, Except.pure]

theorem restores_registerOffset {a : RegisterOffset} {v : Json} (h : a.hasIntegers = true)
    (hflags : (Operand.registerOffset a).hasFlags = true) (hv : ofRegisterOffset a = .ok v) :
    Restores registerOffset v a := by
  simp only [RegisterOffset.hasIntegers, Bool.and_eq_true] at h
  simp only [Operand.hasFlags, Bool.and_eq_true] at hflags
  obtain ⟨⟨⟨hbase, hoffset⟩, hextend⟩, hsize⟩ := h
  obtain ⟨hwriteback, hpost⟩ := hflags
  rw [ofRegisterOffset] at hv
  cases he : ofExtend a.extend with
  | error fault =>
    rw [he] at hv
    cases hv
  | ok e =>
    rw [he] at hv
    obtain rfl := Except.ok.inj hv
    obtain ⟨hbase, hbase'⟩ := restores_register hbase
    obtain ⟨hoffset, hoffset'⟩ := restores_register hoffset
    obtain ⟨hextend, hextend'⟩ := restores_extend hextend he
    rw [Json.sorted_of_isInt hsize, Json.sorted_of_isBool hwriteback, Json.sorted_of_isBool hpost]
    constructor
    · simp [Json.isPlain, Json.arePlainMembers, Json.isPlainText, Json.isPlainChar, hbase, hoffset,
        hextend, Json.isPlain_of_isInt hsize, Json.isPlain_of_isBool hwriteback,
        Json.isPlain_of_isBool hpost]
    · simp [registerOffset, members, required, Exchange.optional, Json.lookup, hbase', hoffset',
        hextend', bind, Except.bind, pure, Except.pure]

/-! ### Operands -/

/-- The type that the written form of an operand names. -/
def typeName : Operand → String
  | .register _ => "reg"
  | .immediate _ => "imm"
  | .systemRegister _ => "sysreg"
  | .shift _ => "shift"
  | .extend _ => "extend"
  | .immediateOffset _ => "imm_offset"
  | .registerOffset _ => "reg_offset"
  | .bare => ""

/-- A written form names the type of its operand, and is decoded as that type. -/
theorem operand_of_ofOperand {o : Operand} {v : Json} (hv : ofOperand o = .ok v) :
    operand v = operandOfType (.str (typeName o)) v := by
  have htype : ∃ ms, v = .obj ms ∧ Json.lookup "type" ms = some (.str (typeName o)) := by
    cases o
    case bare => cases hv
    -- Every encoder ends in an object with a type, or in a fault.
    all_goals
      simp only [ofOperand, ofSystemRegister, ofShift, ofExtend, ofImmediateOffset,
        ofRegisterOffset] at hv
      try split at hv
      all_goals
        first
        | cases hv
          exact ⟨_, rfl, by simp [Json.lookup, typeName]⟩
        | cases hv
  obtain ⟨ms, rfl, hlookup⟩ := htype
  simp [operand, members, required, hlookup, bind, Except.bind]

/-- What is decoded as its type is decoded as an operand. -/
theorem Restores.operand {α : Type} {decode : Json → Except DecodeFault α} {wrap : α → Operand}
    {type : String} {v : Json} {a : α} (h : Restores decode v a)
    (htype : Exchange.operand v = operandOfType (.str type) v)
    (hwrap : operandOfType (.str type) v = (decode v).map wrap) :
    Restores Exchange.operand v (wrap a) := by
  obtain ⟨hplain, hdecode⟩ := h
  refine ⟨hplain, ?_⟩
  rw [htype, hwrap, hdecode]
  rfl

/-- The written form of an operand is decoded as that operand. -/
theorem restores_operand {o : Operand} {v : Json} (h : o.hasIntegers = true)
    (hflags : o.hasFlags = true) (hv : ofOperand o = .ok v) : Restores operand v o := by
  have htype := operand_of_ofOperand hv
  cases o with
  | register r =>
    obtain rfl := Except.ok.inj hv
    exact (restores_register h).operand htype (by simp [typeName, operandOfType])
  | immediate imm =>
    obtain rfl := Except.ok.inj hv
    exact (restores_immediate h).operand htype (by simp [typeName, operandOfType])
  | systemRegister r =>
    exact (restores_systemRegister h hv).operand htype (by simp [typeName, operandOfType])
  | shift s => exact (restores_shift h hv).operand htype (by simp [typeName, operandOfType])
  | extend e => exact (restores_extend h hv).operand htype (by simp [typeName, operandOfType])
  | immediateOffset a =>
    exact (restores_immediateOffset h hflags hv).operand htype (by simp [typeName, operandOfType])
  | registerOffset a =>
    exact (restores_registerOffset h hflags hv).operand htype (by simp [typeName, operandOfType])
  | bare => cases hv

/-- An operand has a written form exactly if it is not bare and its kinds and names are listed. -/
theorem exists_ofOperand_iff (o : Operand) : (∃ v, ofOperand o = .ok v) ↔ o.hasForm = true := by
  cases o with
  | register r => exact ⟨fun _ ↦ rfl, fun _ ↦ ⟨_, rfl⟩⟩
  | immediate imm => exact ⟨fun _ ↦ rfl, fun _ ↦ ⟨_, rfl⟩⟩
  | bare => simp [ofOperand, Operand.hasForm]
  | _ =>
    simp only [ofOperand, ofSystemRegister, ofShift, ofExtend, ofImmediateOffset, ofRegisterOffset,
      Operand.hasForm]
    split <;> simp_all [Except.map]

end Exchange

end A64Text
