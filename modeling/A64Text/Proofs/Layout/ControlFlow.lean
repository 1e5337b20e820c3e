import A64Text.Proofs.Layout.Outcome

/-!
# Outcomes of branches and exceptions

One lemma for each family that changes the flow of control.
-/

namespace A64Text

open Signature

variable {i : Instruction}

/-! ### Branches to an offset -/

theorem Condition.isMnemonic_branch (c : Condition) : IsMnemonic ("b." ++ c.text) := by
  cases c <;> decide

theorem Layout.outcome_conditionalBranch (h : i.hasIntegers = true) :
    Outcome i .conditionalBranch (conditionalBranch i) := by
  rw [conditionalBranch]
  split
  · rename_i offset hos
    have hoffset : offset.hasIntegers = true := i.immediate_hasIntegers h (by simp [hos])
    split
    · rename_i hop
      exact .shown hop rfl (by decide) (i.accepts_of_eq hos rfl) i.conditionOf.isMnemonic_branch rfl
        (by simp [hoffset])
    · rename_i hop
      refine .unhandled ?_ rfl
      rintro _ rfl
      exact hop
  · rename_i hos
    refine .rejected ?_ (i.isBreach_shapeFault _)
    rintro _ rfl haccepts
    obtain ⟨offset, _, heq, rfl⟩ := starts_immediate ends haccepts
    exact hos offset heq

theorem Layout.outcome_branchImmediate (h : i.hasIntegers = true) :
    Outcome i .branchImmediate (branchImmediate i) := by
  rw [branchImmediate]
  split
  · rename_i offset hos
    have hoffset : offset.hasIntegers = true := i.immediate_hasIntegers h (by simp [hos])
    split
    · rename_i hop
      exact .shown hop rfl (by decide) (i.accepts_of_eq hos rfl) (by decide) rfl (by simp [hoffset])
    · rename_i hop
      exact .shown hop rfl (by decide) (i.accepts_of_eq hos rfl) (by decide) rfl (by simp [hoffset])
    · rename_i hbl hb
      refine .unhandled ?_ rfl
      rintro _ ⟨(_ | _), rfl⟩
      · exact hb
      · exact hbl
  · rename_i hos
    refine .rejected ?_ (i.isBreach_shapeFault _)
    rintro _ ⟨op, rfl⟩ haccepts
    obtain ⟨offset, _, heq, rfl⟩ := starts_immediate ends haccepts
    exact hos offset heq

theorem Layout.outcome_compareAndBranch (h : i.hasIntegers = true) :
    Outcome i .compareAndBranch (compareAndBranch i) := by
  rw [compareAndBranch]
  split
  · rename_i rt offset hos
    have hoffset : offset.hasIntegers = true := i.immediate_hasIntegers h (by simp [hos])
    split
    · rename_i hop
      exact .shown hop rfl (by decide) (i.accepts_of_eq hos rfl) (by decide) rfl
        (by simp [hos, hoffset])
    · rename_i hop
      exact .shown hop rfl (by decide) (i.accepts_of_eq hos rfl) (by decide) rfl
        (by simp [hos, hoffset])
    · rename_i hcbz hcbnz
      refine .unhandled ?_ rfl
      rintro _ ⟨(_ | _), rfl⟩
      · exact hcbnz
      · exact hcbz
  · rename_i hos
    refine .rejected ?_ (i.isBreach_shapeFault _)
    rintro _ ⟨op, rfl⟩ haccepts
    obtain ⟨rt, _, heq, offset, _, rfl, rfl⟩ := starts_register (starts_immediate ends) haccepts
    exact hos rt offset heq

theorem Layout.outcome_testAndBranch (h : i.hasIntegers = true) :
    Outcome i .testAndBranch (testAndBranch i) := by
  rw [testAndBranch]
  split
  · rename_i rt bit offset hos
    have hbit : bit.given.isInt = true :=
      Immediate.isInt_given (i.immediate_hasIntegers h (by simp [hos]))
    have hoffset : offset.hasIntegers = true := i.immediate_hasIntegers h (by simp [hos])
    split
    · rename_i hop
      exact .shown hop rfl (by decide) (i.accepts_of_eq hos rfl) (by decide) rfl
        (by simp [hos, hbit, hoffset])
    · rename_i hop
      exact .shown hop rfl (by decide) (i.accepts_of_eq hos rfl) (by decide) rfl
        (by simp [hos, hbit, hoffset])
    · rename_i htbz htbnz
      refine .unhandled ?_ rfl
      rintro _ ⟨(_ | _), rfl⟩
      · exact htbnz
      · exact htbz
  · rename_i hos
    refine .rejected ?_ (i.isBreach_shapeFault _)
    rintro _ ⟨op, rfl⟩ haccepts
    obtain ⟨rt, _, heq, bit, _, rfl, offset, _, rfl, rfl⟩ :=
      starts_register (starts_immediate (starts_immediate ends)) haccepts
    exact hos rt bit offset heq

/-! ### Exceptions -/

theorem ExceptionOp.isMnemonic (op : ExceptionOp) : IsMnemonic op.mnemonic :=
  (Opcode.exceptionGeneration op).isMnemonic_name

theorem Layout.outcome_exceptionGeneration (h : i.hasIntegers = true)
    (hkey : i.operation.isKey = true) :
    Outcome i .exceptionGeneration (exceptionGeneration i) := by
  rw [exceptionGeneration]
  split
  · rename_i imm hos
    have himm : imm.given.isInt = true :=
      Immediate.isInt_given (i.immediate_hasIntegers h (by simp [hos]))
    split
    · rename_i op hop
      split
      · exact .shown hop rfl (by decide) (i.accepts_of_eq hos rfl) op.isMnemonic rfl
          (by simp [himm])
      · exact .ok hop rfl (by decide) (i.accepts_of_eq hos rfl) (derives_nil op.isMnemonic)
    · rename_i hop
      exact .unlisted (fun _ ↦ id) hop (i.isBreach_notListedFault hkey _)
  · rename_i hos
    refine .rejected ?_ (i.isBreach_shapeFault _)
    rintro _ ⟨op, rfl⟩ haccepts
    obtain ⟨imm, _, heq, rfl⟩ := starts_immediate ends haccepts
    exact hos imm heq

/-! ### Branches to a register -/

theorem BranchRegisterOp.isMnemonic (op : BranchRegisterOp) : IsMnemonic op.mnemonic :=
  (Opcode.branchRegister op).isMnemonic_name

/-- The operands that the form of a branch calls for. -/
def BranchRegisterForm.signature : BranchRegisterForm → Signature
  | target | .return => .exactly [.register]
  | authenticated => .exactly [.register, .any]
  | exceptionReturn => .atLeast []

theorem BranchRegisterOp.signature_eq (op : BranchRegisterOp) :
    op.signature = op.form.signature := by
  cases op <;> rfl

namespace Layout

/-- A first operand that is no register is a breach. -/
theorem firstRegister_cases (i : Instruction) :
    (∃ r rest, i.operands = .register r :: rest ∧ firstRegister i = .ok r) ∨
      ∃ fault, firstRegister i = .error fault ∧
        (fault.isBreach = true ∧ fault.isUnhandled = false) ∧
        ∀ r rest, i.operands ≠ .register r :: rest := by
  rw [firstRegister]
  split
  · rename_i r rest hos
    exact .inl ⟨r, rest, hos, rfl⟩
  · rename_i o rest hfirst hos
    refine .inr ⟨_, rfl, ⟨rfl, rfl⟩, fun r rest' heq ↦ ?_⟩
    exact hfirst r (List.cons.inj (hos.symm.trans heq)).1
  · rename_i hos
    refine .inr ⟨_, rfl, ⟨rfl, rfl⟩, fun r rest' heq ↦ ?_⟩
    rw [hos] at heq
    cases heq

/-- A branch that takes a register alone shows it, or rejects its operands. -/
theorem outcome_alone {op : BranchRegisterOp} (hop : i.opcode? = some (.branchRegister op))
    (hform : op.form.signature = .exactly [.register]) (parts : Register → List Part)
    (hparts : ∀ r, i.operands = [.register r] → Derives i ⟨op.mnemonic, parts r⟩) :
    Outcome i .branchRegister
      (match firstRegister i, i.operands with
      | .ok rn, [_] => .ok ⟨op.mnemonic, parts rn⟩
      | .ok _, _ => .error (i.arityFault 1)
      | .error fault, _ => .error fault) := by
  have hsignature : (Opcode.branchRegister op).signature = .exactly [.register] := by
    rw [Opcode.signature, op.signature_eq, hform]
  rcases firstRegister_cases i with ⟨r, rest, hos, hfirst⟩ | ⟨fault, hfirst, hbreach, hnone⟩
  · rw [hfirst, hos]
    cases rest with
    | nil => exact .ok hop rfl (by decide) (hsignature ▸ i.accepts_of_eq hos rfl) (hparts r hos)
    | cons o rest =>
      refine .misshapen hop rfl ?_ rfl rfl
      rw [hsignature, Instruction.kinds, hos]
      rfl
  · rw [hfirst]
    refine .misshapen hop rfl (Bool.eq_false_iff.2 fun haccepts ↦ ?_) hbreach.1 hbreach.2
    rw [hsignature] at haccepts
    obtain ⟨r, rest, hos, -⟩ := starts_register id haccepts
    exact hnone r rest hos

/-- A branch that takes a register and an operand shows both, or rejects its operands. -/
theorem outcome_authenticated {op : BranchRegisterOp}
    (hop : i.opcode? = some (.branchRegister op))
    (hform : op.form.signature = .exactly [.register, .any]) :
    Outcome i .branchRegister
      (match firstRegister i, i.operands with
      | .ok rn, [_, modifier] => .ok ⟨op.mnemonic, [rn, modifier]⟩
      | .ok _, _ => .error (i.arityFault 2)
      | .error fault, _ => .error fault) := by
  have hsignature : (Opcode.branchRegister op).signature = .exactly [.register, .any] := by
    rw [Opcode.signature, op.signature_eq, hform]
  rcases firstRegister_cases i with ⟨r, rest, hos, hfirst⟩ | ⟨fault, hfirst, hbreach, hnone⟩
  · rw [hfirst, hos]
    match rest with
    | [modifier] =>
      exact .shown hop rfl (by decide) (hsignature ▸ i.accepts_of_eq hos rfl) op.isMnemonic rfl
        (by simp [hos])
    | [] =>
      refine .misshapen hop rfl ?_ rfl rfl
      rw [hsignature, Instruction.kinds, hos]
      rfl
    | _ :: _ :: _ =>
      refine .misshapen hop rfl ?_ rfl rfl
      rw [hsignature, Instruction.kinds, hos]
      rfl
  · rw [hfirst]
    refine .misshapen hop rfl (Bool.eq_false_iff.2 fun haccepts ↦ ?_) hbreach.1 hbreach.2
    rw [hsignature] at haccepts
    obtain ⟨r, rest, hos, -⟩ := starts_register id haccepts
    exact hnone r rest hos

theorem outcome_branchRegister (hkey : i.operation.isKey = true) :
    Outcome i .branchRegister (branchRegister i) := by
  rw [branchRegister]
  split
  · rename_i op hop
    split
    · rename_i hform
      refine .ok hop rfl (by decide) ?_ (derives_nil op.isMnemonic)
      rw [Opcode.signature, op.signature_eq, hform]
      rfl
    · rename_i hform
      refine outcome_alone hop (by rw [hform]; rfl) (fun r ↦ [r]) ?_
      intro r hos
      exact derives_cons op.isMnemonic rfl (by simp [hos])
    · rename_i hform
      refine outcome_alone hop (by rw [hform]; rfl)
        (fun r ↦ if r.number = Register.linkNumber then [] else [r]) fun r hos ↦ ?_
      split
      · exact derives_nil op.isMnemonic
      · exact derives_cons op.isMnemonic rfl (by simp [hos])
    · rename_i hform
      exact outcome_authenticated hop (by rw [hform]; rfl)
  · rename_i hop
    rw [if_pos hkey]
    have hforeign : ∀ op : Opcode, op.IsOf .branchRegister → i.opcode? ≠ some op := by
      rintro _ ⟨op, rfl⟩
      exact hop op
    rcases firstRegister_cases i with ⟨r, rest, hos, hfirst⟩ | ⟨fault, hfirst, hbreach, -⟩
    · rw [hfirst]
      exact .unhandled hforeign rfl
    · rw [hfirst]
      exact .unhandled hforeign hbreach.1

end Layout

end A64Text
