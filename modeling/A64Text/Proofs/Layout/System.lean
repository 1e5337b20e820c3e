import A64Text.Proofs.Layout.Field

/-!
# Outcomes of system instructions

The opcode is looked at first, so an opcode of the family has the operands of its form or is
rejected for its operands.
-/

namespace A64Text

open Signature

variable {i : Instruction}

/-- Mnemonics of system instructions are words, but for that of the profiling barrier. -/
theorem SystemOp.isMnemonic {op : SystemOp} (h : op ≠ .psbCsync) : IsMnemonic op.mnemonic := by
  have hmnemonic : op.mnemonic = Text.lowerAscii op.name := by
    unfold mnemonic
    split
    · exact absurd rfl h
    · rfl
  rw [hmnemonic]
  exact (Opcode.system op).isMnemonic_name

/-- The operands that the form of a system instruction calls for. -/
def SystemForm.signature : SystemForm → Signature
  | hint | move => .atLeast []
  | numberedHint => .exactly [.any]
  | barrier | instructionBarrier => .exactly [.immediate]
  | write => .exactly [.immediate, .immediate, .immediate, .immediate, .register]
  | read => .exactly [.register, .immediate, .immediate, .immediate, .immediate]

theorem SystemOp.signature_eq (op : SystemOp) : op.signature = op.form.signature := by
  cases op <;> rfl

namespace Layout

theorem derives_systemFields (h : i.hasIntegers = true) {op1 crn crm op2 : Immediate}
    (hos : ∀ imm ∈ [op1, crn, crm, op2], .immediate imm ∈ i.operands) :
    ∀ p ∈ systemFields op1 crn crm op2, p.Derives i := by
  have hint : ∀ imm ∈ [op1, crn, crm, op2], imm.hasIntegers = true :=
    fun imm himm ↦ i.immediate_hasIntegers h (hos imm himm)
  have hcrn : (Part.field "C" (.ofNumber crn.given)).Derives i := by
    rw [Immediate.given_eq_value (hint crn (by simp))]
    exact .word (isName_field crn.value)
  have hcrm : (Part.field "C" (.ofNumber crm.given)).Derives i := by
    rw [Immediate.given_eq_value (hint crm (by simp))]
    exact .word (isName_field crm.value)
  have hop1 := Immediate.isInt_given (hint op1 (by simp))
  have hop2 := Immediate.isInt_given (hint op2 (by simp))
  simp [systemFields, hcrn, hcrm, hop1, hop2]

/-- Operands that the form of an opcode does not accept are rejected. -/
theorem outcome_misshapen_system {op : SystemOp} (hop : i.opcode? = some (.system op))
    (haccepts : op.form.signature.accepts i.kinds ≠ true) {fault : LayoutFault}
    (h : fault.isBreach = true ∧ fault.isUnhandled = false) :
    Outcome i .system (.error fault) := by
  refine .misshapen hop rfl (Bool.eq_false_iff.2 ?_) h.1 h.2
  rwa [Opcode.signature, op.signature_eq]

theorem outcome_system (h : i.hasIntegers = true) (hkey : i.operation.isKey = true) :
    Outcome i .system (system i) := by
  rw [system]
  split
  · rename_i op hop
    have hne : op.form ≠ .hint → op ≠ .psbCsync := by
      rintro hform rfl
      exact hform rfl
    have hok : ∀ {l : Layout} {os : List Operand}, i.operands = os →
        op.form.signature.accepts (os.map Operand.kind) = true → l.Derives i →
          Outcome i .system (.ok l) := by
      intro l os hos haccepts hderives
      refine .ok hop rfl (by decide) (i.accepts_of_eq hos ?_) hderives
      rw [Opcode.signature, op.signature_eq, haccepts]
    split
    · rename_i hform
      refine hok rfl (by rw [hform]; rfl) ?_
      by_cases hpsb : op = .psbCsync
      · subst hpsb
        exact ⟨.inr ⟨hop, rfl⟩, by simp, by simp⟩
      · exact derives_nil (SystemOp.isMnemonic hpsb)
    · rename_i hform
      have hm := SystemOp.isMnemonic (hne (by rw [hform]; decide))
      split
      · rename_i o hos
        refine hok hos (by rw [hform]; rfl) ?_
        have hall := derives_operands (i := i) hm
        rwa [hos] at hall
      · rename_i hos
        refine outcome_misshapen_system hop ?_ ⟨rfl, rfl⟩
        intro haccepts
        rw [hform] at haccepts
        obtain ⟨o, _, heq, rfl⟩ := starts_any ends haccepts
        exact hos o heq
    · rename_i hform
      have hm := SystemOp.isMnemonic (hne (by rw [hform]; decide))
      split
      · rename_i option hos
        have hoption : option.hasIntegers = true := i.immediate_hasIntegers h (by simp [hos])
        obtain ⟨p, hp, hplain⟩ := Barrier.exists_part hoption
        rw [hp]
        refine hok hos (by rw [hform]; rfl) (derives_cons hm (Part.attaches_of_isPlain hplain) ?_)
        simp [Part.derives_of_isPlain hplain]
      · rename_i hos
        refine outcome_misshapen_system hop ?_ (i.isBreach_shapeFault _)
        intro haccepts
        rw [hform] at haccepts
        obtain ⟨option, _, heq, rfl⟩ := starts_immediate ends haccepts
        exact hos option heq
    · rename_i hform
      have hm := SystemOp.isMnemonic (hne (by rw [hform]; decide))
      split
      · rename_i option hos
        have hoption : option.given.isInt = true :=
          Immediate.isInt_given (i.immediate_hasIntegers h (by simp [hos]))
        refine hok hos (by rw [hform]; rfl) ?_
        split
        · exact derives_nil hm
        · exact derives_cons hm rfl (by simp [hoption])
      · rename_i hos
        refine outcome_misshapen_system hop ?_ (i.isBreach_shapeFault _)
        intro haccepts
        rw [hform] at haccepts
        obtain ⟨option, _, heq, rfl⟩ := starts_immediate ends haccepts
        exact hos option heq
    · rename_i hform
      have hm := SystemOp.isMnemonic (hne (by rw [hform]; decide))
      split
      · rename_i op1 crn crm op2 rt hos
        refine hok hos (by rw [hform]; rfl) (derives_cons hm rfl ?_)
        show ∀ p ∈ systemFields op1 crn crm op2 ++ _, Part.Derives i p
        intro p hp
        rcases List.mem_append.1 hp with hp | hp
        · exact derives_systemFields h (by simp [hos]) p hp
        · split at hp
          · cases hp
          · rw [List.mem_singleton.1 hp]
            exact .operand (by simp [hos])
      · rename_i hos
        refine outcome_misshapen_system hop ?_ (i.isBreach_shapeFault _)
        intro haccepts
        rw [hform] at haccepts
        obtain ⟨op1, _, heq, crn, _, rfl, crm, _, rfl, op2, _, rfl, rt, _, rfl, rfl⟩ :=
          starts_immediate (starts_immediate (starts_immediate (starts_immediate
            (starts_register ends)))) haccepts
        exact hos op1 crn crm op2 rt heq
    · rename_i hform
      have hm := SystemOp.isMnemonic (hne (by rw [hform]; decide))
      split
      · rename_i rt op1 crn crm op2 hos
        refine hok hos (by rw [hform]; rfl) (derives_cons hm rfl ?_)
        refine List.forall_mem_cons.2 ⟨.operand (by simp [hos]), ?_⟩
        exact derives_systemFields h (by simp [hos])
      · rename_i hos
        refine outcome_misshapen_system hop ?_ (i.isBreach_shapeFault _)
        intro haccepts
        rw [hform] at haccepts
        obtain ⟨rt, _, heq, op1, _, rfl, crn, _, rfl, crm, _, rfl, op2, _, rfl, rfl⟩ :=
          starts_register (starts_immediate (starts_immediate (starts_immediate
            (starts_immediate ends)))) haccepts
        exact hos rt op1 crn crm op2 heq
    · rename_i hform
      have hm := SystemOp.isMnemonic (hne (by rw [hform]; decide))
      exact hok rfl (by rw [hform]; rfl) (derives_operands hm)
  · rename_i hop
    exact .unlisted (fun _ ↦ id) hop (i.isBreach_notListedFault hkey _)

end Layout

end A64Text
