import A64Text.Proofs.Layout.Field

/-!
# Outcomes of loads and stores

One lemma for each family that accesses memory. The size of an access only adds a letter to the
mnemonic, and every mnemonic with every letter is a word.
-/

namespace A64Text

open Signature

variable {i : Instruction}

/-- The letters that a size can add. -/
def sizeLetters : List String := ["b", "h", "w", ""]

theorem Layout.sizeSuffix_mem (bits : Json) : sizeSuffix bits ∈ sizeLetters := by
  rw [sizeSuffix]
  split
  · decide
  · split <;> decide

/-- The name of an opcode in lower-case is a mnemonic with every letter. -/
theorem Opcode.isMnemonic_sized (op : Opcode) {suffix : String} (h : suffix ∈ sizeLetters) :
    IsMnemonic (Text.lowerAscii op.name ++ suffix) := by
  have hletters : (sizeLetters.all fun s ↦ s.toList.all Text.isLowerPart) = true := by decide
  exact Text.isMnemonic_lowerAscii_append op.isListedName_name
    (List.all_eq_true.1 hletters suffix h)

/-! ### Exclusive accesses -/

theorem ExclusiveOp.isMnemonic (op : ExclusiveOp) {suffix : String} (h : suffix ∈ sizeLetters) :
    IsMnemonic (op.mnemonic ++ suffix) :=
  (Opcode.loadStoreExclusive op).isMnemonic_sized h

/-- An exclusive access accepts operands with a register where the transferred one must be. -/
theorem ExclusiveOp.accepts_iff (op : ExclusiveOp) :
    op.signature.accepts i.kinds = true ↔
      ∃ r, i.operands[op.transferIndex]? = some (.register r) := by
  have hsignature : op.signature = .atLeast (.replicate op.transferIndex .any ++ [.register]) := by
    cases op <;> rfl
  rw [hsignature]
  exact accepts_register_at

theorem Layout.outcome_loadStoreExclusive (hkey : i.operation.isKey = true) :
    Outcome i .loadStoreExclusive (loadStoreExclusive i) := by
  rw [loadStoreExclusive]
  split
  · rename_i op hop
    simp only
    split
    · rename_i rt hrt
      refine .ok hop rfl (by decide) (op.accepts_iff.2 ⟨rt, hrt⟩) (derives_operands ?_)
      split
      · exact op.isMnemonic (by decide)
      · exact op.isMnemonic (sizeSuffix_mem _)
    · rename_i o hne ho
      refine .misshapen hop rfl (Bool.eq_false_iff.2 fun haccepts ↦ ?_) rfl rfl
      obtain ⟨r, hr⟩ := op.accepts_iff.1 haccepts
      exact hne r (Option.some.inj (ho.symm.trans hr))
    · rename_i hnone
      refine .misshapen hop rfl (Bool.eq_false_iff.2 fun haccepts ↦ ?_) rfl rfl
      obtain ⟨r, hr⟩ := op.accepts_iff.1 haccepts
      rw [hnone] at hr
      cases hr
  · rename_i hop
    exact .unlisted (fun _ ↦ id) hop (i.isBreach_notListedFault hkey _)

/-! ### Literals and pairs -/

theorem LoadStorePairOp.isMnemonic (op : LoadStorePairOp) : IsMnemonic op.mnemonic :=
  (Opcode.loadStorePair op).isMnemonic_name

namespace Layout

theorem outcome_loadStorePair (hkey : i.operation.isKey = true) :
    Outcome i .loadStorePair (loadStorePair i) := by
  rw [loadStorePair]
  split
  · rename_i hlen
    split
    · rename_i op hop
      refine .ok hop rfl (by decide) ?_ (derives_operands op.isMnemonic)
      exact accepts_replicate_any.2 hlen
    · rename_i hop
      exact .unlisted (fun _ ↦ id) hop (i.isBreach_notListedFault hkey _)
  · rename_i hlen
    refine .rejected ?_ ⟨rfl, rfl⟩
    rintro _ ⟨op, rfl⟩ haccepts
    exact hlen (accepts_replicate_any.1 haccepts)

/-- A literal that is loaded into a register is shown, or the register is missing. -/
theorem outcome_literalTarget {op : LoadLiteralOp} (hop : i.opcode? = some (.loadLiteral op))
    (hne : op ≠ .prfm) {m : String} (hm : IsMnemonic m) {first : Operand}
    {address : ImmediateOffset} {result : Except LayoutFault Layout}
    (hresult : result = match first with
      | .register rt => .ok ⟨m, [rt, .signed address.offset]⟩
      | o => .error (i.misfitFault .register 0 o))
    (hos : i.operands = [first, .immediateOffset address])
    (haddress : address.offset.hasIntegers = true) : Outcome i .loadLiteral result := by
  have hsignature : (Opcode.loadLiteral op).signature = .exactly [.register, .immediateOffset] := by
    cases op <;> first | rfl | exact absurd rfl hne
  subst hresult
  cases first
  case register rt =>
    exact .shown hop rfl (by decide) (hsignature ▸ i.accepts_of_eq hos rfl) hm rfl
      (by simp [hos, haddress])
  all_goals
    refine .misshapen hop rfl ?_ rfl rfl
    rw [hsignature, Instruction.kinds, hos]
    rfl

/-- Every literal stands at an address with an immediate offset. -/
theorem exists_of_accepts_literal {op : LoadLiteralOp}
    (haccepts : (Opcode.loadLiteral op).signature.accepts i.kinds = true) :
    ∃ first address, i.operands = [first, .immediateOffset address] := by
  have hsignature : (Opcode.loadLiteral op).signature = .exactly [.immediate, .immediateOffset] ∨
      (Opcode.loadLiteral op).signature = .exactly [.register, .immediateOffset] := by
    cases op <;> decide
  rcases hsignature with hsignature | hsignature
  · rw [hsignature] at haccepts
    obtain ⟨imm, _, hos, address, _, rfl, rfl⟩ :=
      starts_immediate (starts_immediateOffset ends) haccepts
    exact ⟨_, _, hos⟩
  · rw [hsignature] at haccepts
    obtain ⟨r, _, hos, address, _, rfl, rfl⟩ :=
      starts_register (starts_immediateOffset ends) haccepts
    exact ⟨_, _, hos⟩

theorem outcome_loadLiteral (h : i.hasIntegers = true) (hkey : i.operation.isKey = true) :
    Outcome i .loadLiteral (loadLiteral i) := by
  rw [loadLiteral]
  split
  · rename_i first address hos
    have haddress : address.offset.hasIntegers = true := by
      have hmem := Instruction.hasIntegers_of_mem h (o := .immediateOffset address) (by simp [hos])
      simp only [Operand.hasIntegers, ImmediateOffset.hasIntegers, Bool.and_eq_true] at hmem
      exact hmem.1.1.2
    simp only
    split
    · rename_i hop
      split
      · rename_i operation
        have hoperation : operation.hasIntegers = true :=
          i.immediate_hasIntegers h (by simp [hos])
        obtain ⟨p, hp, hplain⟩ := Prefetch.exists_part hoperation
        rw [hp]
        exact .shown hop rfl (by decide) (i.accepts_of_eq hos rfl) (by decide)
          (Part.attaches_of_isPlain hplain) (by simp [Part.derives_of_isPlain hplain, haddress])
      · rename_i hfirst
        refine .misshapen hop rfl (Bool.eq_false_iff.2 fun haccepts ↦ ?_) rfl rfl
        rw [Instruction.kinds, hos] at haccepts
        obtain ⟨imm, rest, heq, -⟩ := starts_immediate id haccepts
        exact hfirst imm (List.cons.inj heq).1
    · rename_i hop
      exact outcome_literalTarget (m := "ldr") hop (by decide) (by decide) rfl hos haddress
    · rename_i hop
      exact outcome_literalTarget (m := "ldrsw") hop (by decide) (by decide) rfl hos haddress
    · rename_i hprfm hldr hldrs
      refine .unhandled ?_ (i.isBreach_notListedFault hkey _)
      rintro _ ⟨(_ | _ | _), rfl⟩
      · exact hldr
      · exact hldrs
      · exact hprfm
  · rename_i o o' hne hos
    refine .rejected ?_ ⟨rfl, rfl⟩
    rintro _ ⟨op, rfl⟩ haccepts
    obtain ⟨first, address, heq⟩ := exists_of_accepts_literal haccepts
    simp only [hos, List.cons.injEq, and_true] at heq
    exact hne address heq.2
  · rename_i hne hne'
    refine .rejected ?_ ⟨rfl, rfl⟩
    rintro _ ⟨op, rfl⟩ haccepts
    obtain ⟨first, address, heq⟩ := exists_of_accepts_literal haccepts
    exact hne' _ _ heq

/-! ### Single registers -/

theorem isMnemonic_loadStore (op : LoadStoreOp) (size : Json) :
    IsMnemonic (op.mnemonic ++ op.sizeSuffix size) := by
  refine (Opcode.loadStore op).isMnemonic_sized ?_
  rw [LoadStoreOp.sizeSuffix]
  split
  · decide
  · exact sizeSuffix_mem size

/-- Addresses are the operands that have an access size. -/
theorem addressSize?_isSome_iff {o : Operand} :
    (addressSize? o).isSome = true ↔ Place.address.accepts o.kind = true := by
  cases o <;> simp [addressSize?, Place.accepts, Operand.kind]

/-- Every access to one register has an address behind its first operand. -/
theorem exists_of_accepts_loadStore {op : LoadStoreOp}
    (haccepts : (Opcode.loadStore op).signature.accepts i.kinds = true) :
    ∃ first address, i.operands = [first, address] ∧ (addressSize? address).isSome = true := by
  have hsignature : ∃ p, (Opcode.loadStore op).signature = .exactly [p, .address] := by
    cases op <;> exact ⟨_, rfl⟩
  obtain ⟨p, hsignature⟩ := hsignature
  rw [hsignature] at haccepts
  obtain ⟨first, rest, hos, -, hrest⟩ := accepts_cons.1 haccepts
  obtain ⟨address, rest', rfl, haddress, hnil⟩ := accepts_cons.1 hrest
  obtain rfl : rest' = [] := ends hnil
  exact ⟨first, address, hos, addressSize?_isSome_iff.2 haddress⟩

/-- An access with an address behind its first operand is accepted, unless it is a prefetch. -/
theorem accepts_loadStore {op : LoadStoreOp} (hne : op ≠ .prfm) {first address : Operand}
    (hos : i.operands = [first, address]) (hsize : (addressSize? address).isSome = true) :
    (Opcode.loadStore op).signature.accepts i.kinds = true := by
  have hsignature : (Opcode.loadStore op).signature = .exactly [.any, .address] := by
    cases op <;> first | rfl | exact absurd rfl hne
  rw [hsignature, Instruction.kinds, hos]
  refine accepts_cons.2 ⟨first, _, rfl, rfl, ?_⟩
  exact accepts_cons.2 ⟨address, _, rfl, addressSize?_isSome_iff.1 hsize, rfl⟩

theorem outcome_loadStore (h : i.hasIntegers = true) (hkey : i.operation.isKey = true) :
    Outcome i .loadStore (loadStore i) := by
  rw [loadStore]
  split
  · rename_i first address hos
    split
    · rename_i size hsize
      have hsome : (addressSize? address).isSome = true := by rw [hsize]; rfl
      split
      · rename_i hop
        split
        · rename_i operation
          have hoperation : operation.hasIntegers = true :=
            i.immediate_hasIntegers h (by simp [hos])
          obtain ⟨p, hp, hplain⟩ := Prefetch.exists_part hoperation
          rw [hp]
          refine .shown hop rfl (by decide) ?_ (by decide) (Part.attaches_of_isPlain hplain)
            (by simp [Part.derives_of_isPlain hplain, hos])
          rw [Instruction.kinds, hos]
          refine accepts_cons.2 ⟨.immediate operation, _, rfl, rfl, ?_⟩
          exact accepts_cons.2 ⟨address, _, rfl, addressSize?_isSome_iff.1 hsome, rfl⟩
        · rename_i hfirst
          refine .misshapen hop rfl (Bool.eq_false_iff.2 fun haccepts ↦ ?_) rfl rfl
          rw [Instruction.kinds, hos] at haccepts
          obtain ⟨imm, rest, heq, -⟩ := starts_immediate id haccepts
          exact hfirst imm (List.cons.inj heq).1
      · rename_i op hne hop
        have hderives := derives_operands (i := i) (isMnemonic_loadStore op size)
        rw [hos] at hderives
        exact .ok hop rfl (by decide) (accepts_loadStore hne hos hsome) hderives
      · rename_i hprfm hop
        exact .unlisted (fun _ ↦ id) hop (i.isBreach_notListedFault hkey _)
    · rename_i hnone
      refine .rejected ?_ ⟨rfl, rfl⟩
      rintro _ ⟨op, rfl⟩ haccepts
      obtain ⟨_, address', heq, hsome⟩ := exists_of_accepts_loadStore haccepts
      simp only [hos, List.cons.injEq, and_true] at heq
      rw [← heq.2, hnone] at hsome
      cases hsome
  · rename_i hne
    refine .rejected ?_ ⟨rfl, rfl⟩
    rintro _ ⟨op, rfl⟩ haccepts
    obtain ⟨first, address, heq, -⟩ := exists_of_accepts_loadStore haccepts
    exact hne first address heq

end Layout

end A64Text
