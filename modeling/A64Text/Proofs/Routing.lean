import A64Text.Proofs.Layout.Family
import A64Text.Router

/-!
# Routing agrees with the families

A router picks a family by the number of the opcode, and a family decides by the form of the opcode
whether an instruction is its own. The two agree: only the family of its number prints an
instruction, and every other family rejects it as a breach of the contract
(`Family.tokens_iff_routed`). What a router prints is therefore what some family prints.
-/

namespace A64Text

variable {i : Instruction} {n : Int}

/-! ### Instructions and their families -/

/-- The tokens of an instruction whose operation is given by an integer. -/
theorem Instruction.tokens_of_integer? (hn : i.operation.integer? = some n) :
    i.tokens =
      match Family.ofNumber? n with
      | some f => f.tokens i
      | none => .ok [.unsupportedInstruction] := by
  obtain ⟨m, hm, -⟩ := Option.bind_eq_some_iff.1 hn
  have htokens := tokens_of_number? hm
  rw [Operation.family?_eq_ofNumber? hn] at htokens
  exact htokens

/-- A router that has not been told otherwise prints what the instruction's own family prints. -/
theorem Router.tokens_eq (settings : TraceSettings) (i : Instruction) :
    (({ settings := settings } : Router).tokens i).1 = i.tokens := by
  rw [tokens, select, Instruction.tokens]
  cases i.operation.number? with
  | none => rfl
  | some m =>
    dsimp only
    cases Family.of? m with
    | none => rfl
    | some f => rfl

/-! ### Families and the instructions of others -/

namespace Family

/-- A family rejects the opcodes of all others. -/
theorem rejects_foreign {f : Family} (h : i.hasIntegers = true)
    (hn : i.operation.integer? = some n) (hf : ofNumber? n ≠ some f) :
    ∃ fault, f.tokens i = .error fault ∧ fault.isBreach = true := by
  have hkey := Operation.isKey_of_integer? hn
  have hforeign : i.opcode?.map Opcode.family ≠ some f := by
    rwa [Operation.ofNumber?_eq_family hn] at hf
  have houtcome := f.outcome h hkey
  rw [f.tokens_eq h hkey]
  generalize f.layout i = result at houtcome
  cases houtcome with
  | laidOut hop hfamily haccepts hwide hderives =>
    exact absurd (by rw [hop, ← hfamily]; rfl) hforeign
  | noRoom hop hfamily haccepts hwide =>
    exact absurd (by rw [hop, ← hfamily]; rfl) hforeign
  | misshapen hop hfamily haccepts hbreach hown => exact ⟨_, rfl, hbreach⟩
  | foreign hforeign hbreach => exact ⟨_, rfl, hbreach⟩

/-- Only the family of its number prints an instruction. -/
theorem ofNumber?_of_tokens_eq_ok {f : Family} {ts : List Token} (h : i.hasIntegers = true)
    (hn : i.operation.integer? = some n) (hts : f.tokens i = .ok ts) : ofNumber? n = some f := by
  by_contra hf
  obtain ⟨fault, hfault, -⟩ := rejects_foreign h hn hf
  rw [hts] at hfault
  cases hfault

/-- The families that print an instruction are what routing says: the family of the opcode's number
may print it and all others reject it, so at most one prints it. A router prints an instruction with
a family exactly as some family does, and all families reject an instruction without one. -/
theorem tokens_iff_routed (h : i.hasIntegers = true) (hn : i.operation.integer? = some n) :
    (∀ (f : Family) ts, f.tokens i = .ok ts → ofNumber? n = some f) ∧
      (∀ f : Family, ofNumber? n ≠ some f →
        ∃ fault, f.tokens i = .error fault ∧ fault.isBreach = true) ∧
      (∀ (f g : Family) ts us, f.tokens i = .ok ts → g.tokens i = .ok us → f = g) ∧
      (∀ f, ofNumber? n = some f → ∀ settings ts,
        (({ settings := settings } : Router).tokens i).1 = .ok ts ↔
          ∃ g : Family, g.tokens i = .ok ts) ∧
      (ofNumber? n = none →
        ∀ f : Family, ∃ fault, f.tokens i = .error fault ∧ fault.isBreach = true) := by
  have hown : ∀ (f : Family) ts, f.tokens i = .ok ts → ofNumber? n = some f :=
    fun f ts ↦ ofNumber?_of_tokens_eq_ok h hn
  refine ⟨hown, fun f ↦ rejects_foreign h hn, fun f g ts us hf hg ↦ ?_, fun f hf settings ts ↦ ?_,
    fun hnone f ↦ rejects_foreign h hn (by rw [hnone]; simp)⟩
  · exact Option.some.inj ((hown f ts hf).symm.trans (hown g us hg))
  · rw [Router.tokens_eq, Instruction.tokens_of_integer? hn, hf]
    constructor
    · intro hts
      exact ⟨f, hts⟩
    · rintro ⟨g, hg⟩
      obtain rfl : f = g := Option.some.inj (hf.symm.trans (hown g ts hg))
      exact hg

/-- A return through another register than the usual one, given by its number. -/
def numberedReturn : Instruction :=
  { operation := .numbered (.int 68), operands := [.register ⟨19, .int 64⟩] }

/-- A return is printed by the branches to registers, and by no other family. -/
theorem tokens_iff_routed_return :
    numberedReturn.hasIntegers = true ∧ numberedReturn.operation.integer? = some 68 ∧
      branchRegister.tokens numberedReturn =
        .ok [.instruction "ret", .blank, .register "x19"] ∧
      ∀ f : Family, f ≠ branchRegister →
        ∃ fault, f.tokens numberedReturn = .error fault ∧ fault.isBreach = true := by
  have hfamily : ofNumber? 68 = some branchRegister := by decide +kernel
  refine ⟨rfl, rfl, by decide +kernel, fun f hf ↦ ?_⟩
  refine (tokens_iff_routed (i := numberedReturn) (n := 68) rfl rfl).2.1 f ?_
  rw [hfamily]
  exact fun heq ↦ hf (Option.some.inj heq).symm

end Family

end A64Text
