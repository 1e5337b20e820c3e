import A64Text.Proofs.Routing

/-!
# The shape of operands decides

Whether an instruction prints is decided by the kinds of its operands. If they match the signature of
the opcode, every value in them prints, with one exception: a wide immediate that is shifted into its
place by a negative count, or by one that leaves no room for the value. If they do not match, the
instruction is rejected as a breach of the contract with the decoder, and never for its opcode,
because routing only hands over opcodes of the family (`Instruction.tokens_iff_accepts`).
-/

namespace A64Text.Instruction

variable {i : Instruction} {n : Int}

/-- What the family of an opcode makes of matching and of other operands. -/
theorem tokens_of_family {f : Family} {op : Opcode} (h : i.hasIntegers = true)
    (hn : i.operation.integer? = some n) (hf : Family.ofNumber? n = some f)
    (hop : i.opcode? = some op) :
    if op.signature.accepts i.kinds then
      match i.wideFault? with
      | none => ∃ ts, i.tokens = .ok ts
      | some fault => i.tokens = .error fault
    else ∃ fault, i.tokens = .error fault ∧ fault.isBreach = true ∧ fault.isUnhandled = false := by
  have hkey := Operation.isKey_of_integer? hn
  have houtcome := f.outcome h hkey
  rw [tokens_of_integer? hn, hf]
  dsimp only
  rw [f.tokens_eq h hkey]
  generalize f.layout i = result at houtcome
  cases houtcome with
  | laidOut hop' hfamily haccepts hwide hderives =>
    obtain rfl := Option.some.inj (hop.symm.trans hop')
    rw [if_pos haccepts, hwide]
    exact ⟨_, rfl⟩
  | noRoom hop' hfamily haccepts hwide =>
    obtain rfl := Option.some.inj (hop.symm.trans hop')
    rw [if_pos haccepts, hwide]
    rfl
  | misshapen hop' hfamily haccepts hbreach hown =>
    obtain rfl := Option.some.inj (hop.symm.trans hop')
    rw [if_neg (Bool.eq_false_iff.1 haccepts)]
    exact ⟨_, rfl, hbreach, hown⟩
  | foreign hforeign hbreach =>
    -- The router has handed over an opcode of the family.
    rw [Operation.ofNumber?_eq_family hn] at hf
    exact absurd hf hforeign

/-- A wide immediate fails for its count or for its room, and not for its opcode. -/
theorem isUnhandled_of_wideFault? {fault : LayoutFault} (h : i.wideFault? = some fault) :
    fault.isUnhandled = false := by
  have hcount : ∀ {imm : Immediate} {s : Shift},
      (s.count.toInt?.bind fun count ↦
        if count < 0 then some .negativeShift
        else if Room.holdsShift imm.value count.toNat then none
        else some .room) = some fault →
      fault.isUnhandled = false := by
    intro imm s hfault
    obtain ⟨count, -, hfault⟩ := Option.bind_eq_some_iff.1 hfault
    split at hfault
    · obtain rfl := Option.some.inj hfault
      rfl
    · split at hfault
      · cases hfault
      · obtain rfl := Option.some.inj hfault
        rfl
  rw [wideFault?] at h
  split at h
  · exact hcount h
  · exact hcount h
  · cases h

/-- Whether an instruction prints is decided by the kinds of its operands. An opcode without a family
prints as the placeholder. For an opcode with a family, operands that match its signature print
whatever they hold, or fail as a wide immediate does; other operands are a breach. No instruction
is rejected for its opcode. -/
theorem tokens_iff_accepts (h : i.hasIntegers = true) (hn : i.operation.integer? = some n) :
    (Family.ofNumber? n = none → i.tokens = .ok [.unsupportedInstruction]) ∧
      (∀ f, Family.ofNumber? n = some f →
        ∃ op, i.opcode? = some op ∧ op.family = f ∧
          (op.signature.accepts i.kinds = true →
            match i.wideFault? with
            | none => ∃ ts, i.tokens = .ok ts
            | some fault => i.tokens = .error fault) ∧
          (op.signature.accepts i.kinds = false →
            ∃ fault, i.tokens = .error fault ∧ fault.isBreach = true)) ∧
      ∀ fault, i.tokens = .error fault → fault.isUnhandled = false := by
  have hnone : Family.ofNumber? n = none → i.tokens = .ok [.unsupportedInstruction] := by
    intro hf
    rw [tokens_of_integer? hn, hf]
  refine ⟨hnone, fun f hf ↦ ?_, fun fault hfault ↦ ?_⟩
  · obtain ⟨op, hop, hfamily⟩ := Operation.exists_opcode hn hf
    have htokens := tokens_of_family h hn hf hop
    refine ⟨op, hop, hfamily, fun haccepts ↦ ?_, fun haccepts ↦ ?_⟩
    · rwa [if_pos haccepts] at htokens
    · rw [if_neg (Bool.eq_false_iff.1 haccepts)] at htokens
      obtain ⟨fault, hfault, hbreach, -⟩ := htokens
      exact ⟨fault, hfault, hbreach⟩
  · cases hf : Family.ofNumber? n with
    | none =>
      rw [hnone hf] at hfault
      cases hfault
    | some f =>
      obtain ⟨op, hop, -⟩ := Operation.exists_opcode hn hf
      have htokens := tokens_of_family h hn hf hop
      split at htokens
      · split at htokens
        · obtain ⟨ts, hts⟩ := htokens
          rw [hts] at hfault
          cases hfault
        · rename_i fault' hwide
          rw [htokens] at hfault
          obtain rfl := Except.error.inj hfault
          exact isUnhandled_of_wideFault? hwide
      · obtain ⟨fault', hfault', -, hown⟩ := htokens
        rw [hfault'] at hfault
        obtain rfl := Except.error.inj hfault
        exact hown

/-- A wide move whose shift has a negative count. -/
def backwardInversion : Instruction where
  operation := .named (.moveWideImmediate .movn)
  operands :=
    [.register ⟨3, .int 32⟩, .immediate (.halfword 0xFFFF), .shift ⟨.lsl, .int (-16)⟩]

/-- A negative count is the exception to matching operands. -/
theorem tokens_iff_accepts_negative :
    backwardInversion.hasIntegers = true ∧ backwardInversion.operation.integer? = some 8 ∧
      (Opcode.signature (.moveWideImmediate .movn)).accepts backwardInversion.kinds = true ∧
      backwardInversion.tokens = .error .negativeShift := by
  have hnumber : backwardInversion.operation.integer? = some 8 := by decide +kernel
  obtain ⟨-, hfamily, -⟩ := tokens_iff_accepts (i := backwardInversion) rfl hnumber
  obtain ⟨op, hop, -, haccepts, -⟩ := hfamily .moveWideImmediate (by decide +kernel)
  obtain rfl : .moveWideImmediate .movn = op := Option.some.inj hop
  exact ⟨rfl, hnumber, rfl, haccepts rfl⟩

end A64Text.Instruction
