import A64Text.Proofs.Layout.Text
import A64Text.Proofs.Recovery.Losses

/-!
# Slots for operands

Where an opcode prints under one mnemonic only, what it shows of its operands can be said operand by
operand: a slot shows an offset, a number, a field of a system instruction, the option of a barrier,
or a register, as one term or, if its operand is the usual one, as nothing (`Slot.term?`). What a
slot shows determines its operand up to what the slot does not show (`Slot.agrees_of_term?_eq`). If
only the last slot can show nothing, the terms of a line are those of the slots one by one, and so
they determine all operands (`Slot.agree_of_shown_eq`).
-/

namespace A64Text

open Line

/-! ### Barrier options and fields -/

/-- The name of a barrier option, if it has one. -/
def Barrier.name? (n : Nat) : Option String :=
  if 15 < n then none
  else (access? (n % 4)).bind fun access ↦ domains[n / 4]?.map fun domain ↦ domain ++ access

/-- The term that a barrier option is read as. -/
def Barrier.term (n : Nat) : Term :=
  match name? n with
  | some name => ⟨some name, none⟩
  | none => ⟨none, some n⟩

/-- No two barrier options are read alike. -/
theorem Barrier.term_injective {m n : Nat} (h : term m = term n) : m = n := by
  have hnames : ∀ m < 16, ∀ n < 16, name? m = name? n → (name? m).isSome = true → m = n := by
    decide
  have hlt : ∀ {k : Nat} {name : String}, name? k = some name → k < 16 := by
    intro k name hk
    by_contra hge
    rw [name?, if_pos (by omega)] at hk
    cases hk
  cases hm : name? m with
  | none => cases hn : name? n with
    | none => exact Int.ofNat_inj.1 (by simpa [term, hm, hn] using h)
    | some name => simp [term, hm, hn] at h
  | some name => cases hn : name? n with
    | none => simp [term, hm, hn] at h
    | some name' =>
      obtain rfl : name = name' := by simpa [term, hm, hn] using h
      exact hnames m (hlt hm) n (hlt hn) (hm.trans hn.symm) (by rw [hm]; rfl)

/-- An option is shown as its name, or as a number. -/
theorem Barrier.readsAlone (n : Nat) :
    ∃ p, part (.int n) = .ok p ∧ p.ReadsAlone (term n) := by
  by_cases hn : 15 < n
  · have hterm : term n = ⟨none, some n⟩ := by rw [term, name?, if_pos hn]
    refine ⟨.decimal (.int n), ?_, by rw [hterm]; exact Part.readsAlone_decimal n⟩
    have hn : 15 < (n : Int) := by omega
    simp only [part, Number.integer?_int, if_pos hn]
    split <;> rfl
  · have hall : ∀ n < 16,
        (part (.int (n : Nat))).toOption.any (fun p ↦ p.ReadsAlone (term n)) = true := by decide
    obtain ⟨p, hp, halone⟩ := exists_ok_of_any (hall n (by omega))
    exact ⟨p, hp, of_decide_eq_true halone⟩

/-- The name that a field of a system instruction is read as. -/
def fieldName (n : Nat) : String := Text.lowerAscii ("C" ++ Numeral.decimal n)

theorem toList_fieldName (n : Nat) : (fieldName n).toList = 'c' :: Nat.toDigits 10 n := by
  have hdigits : ∀ d < 10, (Nat.digitChar d).toLower = Nat.digitChar d := by decide
  have hlower : (Nat.toDigits 10 n).map Char.toLower = Nat.toDigits 10 n := by
    refine (List.map_congr_left fun c hc ↦ ?_).trans (List.map_id _)
    obtain ⟨d, hd, rfl⟩ := Numeral.exists_digit_of_mem (by decide) hc
    exact hdigits d hd
  simp [fieldName, Text.lowerAscii, Numeral.toList_decimal_ofNat, hlower]

theorem fieldName_injective {m n : Nat} (h : fieldName m = fieldName n) : m = n := by
  have hlist := congrArg String.toList h
  rw [toList_fieldName, toList_fieldName, List.cons.injEq] at hlist
  calc
    m = Numeral.value 10 (Nat.toDigits 10 m) :=
      (Numeral.value_toDigits (by decide) (by decide) m).symm
    _ = Numeral.value 10 (Nat.toDigits 10 n) := by rw [hlist.2]
    _ = n := Numeral.value_toDigits (by decide) (by decide) n

theorem Part.readsAlone_field (n : Nat) :
    (Part.field "C" (.ofNumber (.int n))).ReadsAlone ⟨some (fieldName n), none⟩ := by
  have hkeywords : ∀ s ∈ modifierKeywords, s.toList.head? ≠ some 'c' := by decide
  refine ⟨rfl, ?_⟩
  by_contra hmodifier
  have hmem : fieldName n ∈ modifierKeywords := by simpa [Term.isBareModifier] using hmodifier
  exact hkeywords _ hmem (by rw [toList_fieldName]; rfl)

/-- The name of a register of the architecture determines it. -/
theorem Register.eq_of_reading {r q : Register} (hr : r.IsGeneral) (hq : q.IsGeneral)
    (h : r.reading = q.reading) : r.number = q.number ∧ r.size = q.size := by
  have htext : r.text = q.text := by simpa [reading] using h
  have hview : r.view = q.view := by
    refine Option.some.inj ?_
    rw [← ofName?_text hr, htext, ofName?_text hq]
  exact ⟨congrArg View.number hview, size_eq_of_width hr hq (congrArg View.width hview)⟩

/-! ### Slots -/

/-- How an operand is shown. -/
inductive Slot where
  /-- An immediate as an offset. -/
  | offset
  /-- An immediate in base ten; at one value it may be left out. -/
  | number (unless? : Option Nat)
  /-- An immediate as a field of a system instruction. -/
  | field
  /-- An immediate as the option of a barrier. -/
  | barrier
  /-- A register; one of them may be left out. -/
  | register (unless? : Option Int)
  deriving DecidableEq, Repr

namespace Slot

/-- The term that a slot shows of an operand. -/
def term? : Slot → Operand → Option Term
  | offset, .immediate imm => some ⟨none, some imm.signed⟩
  | number unless?, .immediate imm =>
    if unless? = some imm.value then none else some ⟨none, some imm.value⟩
  | field, .immediate imm => some ⟨some (fieldName imm.value), none⟩
  | barrier, .immediate imm => some (Barrier.term imm.value)
  | register unless?, .register r => if unless? = some r.number then none else some r.reading
  | _, _ => none

/-- The terms that slots show of operands. -/
def shown : List Slot → List Operand → List Term
  | s :: slots, o :: os => (s.term? o).toList ++ shown slots os
  | _, _ => []

theorem shown_nil (os : List Operand) : shown [] os = [] := by
  rw [shown]
  simp

/-- An operand that a slot is for; a register is one of the architecture. -/
inductive Fits : Slot → Operand → Prop
  | offset (imm : Immediate) : Fits .offset (.immediate imm)
  | number (unless? : Option Nat) (imm : Immediate) : Fits (.number unless?) (.immediate imm)
  | field (imm : Immediate) : Fits .field (.immediate imm)
  | barrier (imm : Immediate) : Fits .barrier (.immediate imm)
  | register (unless? : Option Int) {r : Register} (h : r.IsGeneral) :
    Fits (.register unless?) (.register r)

attribute [simp] Fits.offset Fits.number Fits.field Fits.barrier Fits.register

/-- Two operands of which a slot shows the same. Of an immediate the width of its field is not
shown, and of a register that is left out its width is not. -/
def Agrees : Slot → Operand → Operand → Prop
  | offset, .immediate imm, .immediate imm' => imm.signed = imm'.signed
  | number _, .immediate imm, .immediate imm' | field, .immediate imm, .immediate imm'
  | barrier, .immediate imm, .immediate imm' => imm.value = imm'.value
  | register unless?, .register r, .register q =>
    r.number = q.number ∧ (unless? = some r.number ∨ r.size = q.size)
  | _, _, _ => False

/-- Operands of which slots show the same, one by one. -/
def Agree : List Slot → List Operand → List Operand → Prop
  | [], [], [] => True
  | s :: slots, o :: os, p :: ps => s.Agrees o p ∧ Agree slots os ps
  | _, _, _ => False

/-- Whether a slot can show nothing. -/
def isOptional : Slot → Bool
  | number unless? => unless?.isSome
  | register unless? => unless?.isSome
  | _ => false

/-- Whether only the last of some slots can show nothing. -/
def optionalLast : List Slot → Bool
  | [] | [_] => true
  | s :: slots => !s.isOptional && optionalLast slots

variable {s : Slot} {o p : Operand}

/-! ### What is shown determines the operands -/

theorem Fits.exists_term (h : s.Fits o) (hoptional : s.isOptional = false) :
    ∃ t, s.term? o = some t := by
  cases h with
  | number unless? imm =>
    obtain rfl : unless? = none := by simpa [isOptional] using hoptional
    exact ⟨_, rfl⟩
  | register unless? h =>
    obtain rfl : unless? = none := by simpa [isOptional] using hoptional
    exact ⟨_, rfl⟩
  | _ => exact ⟨_, rfl⟩

/-- Operands that slots are for are neither system registers nor modifiers. -/
theorem Fits.forall_plain {slots : List Slot} {os : List Operand}
    (h : List.Forall₂ Fits slots os) :
    ∀ o ∈ os, o.hasNaturals = true ∧ o.isModifier = false := by
  induction h with
  | nil => simp
  | cons ho _ ih =>
    refine List.forall_mem_cons.2 ⟨?_, ih⟩
    cases ho <;> exact ⟨rfl, rfl⟩

/-- What a slot shows determines its operand, up to what the slot does not show. -/
theorem agrees_of_term?_eq (ho : s.Fits o) (hp : s.Fits p) (h : s.term? o = s.term? p) :
    s.Agrees o p := by
  cases ho with
  | offset imm =>
    obtain ⟨imm'⟩ := hp
    show imm.signed = imm'.signed
    simpa [term?] using h
  | number unless? imm =>
    obtain - | ⟨_, imm'⟩ := hp
    show imm.value = imm'.value
    rw [term?, term?] at h
    split at h <;> split at h
    · rename_i hunless hunless'
      exact Option.some.inj (hunless.symm.trans hunless')
    · cases h
    · cases h
    · exact Int.ofNat_inj.1 (by simpa using h)
  | field imm =>
    obtain - | - | imm' := hp
    exact fieldName_injective (by simpa [term?] using h)
  | barrier imm =>
    obtain - | - | - | imm' := hp
    exact Barrier.term_injective (Option.some.inj h)
  | register unless? hr =>
    obtain - | - | - | - | ⟨_, hq⟩ := hp
    rw [term?, term?] at h
    split at h <;> split at h
    · rename_i hunless hunless'
      exact ⟨Option.some.inj (hunless.symm.trans hunless'), .inl hunless⟩
    · cases h
    · cases h
    · obtain ⟨hnumber, hsize⟩ := Register.eq_of_reading hr hq (Option.some.inj h)
      exact ⟨hnumber, .inr hsize⟩

/-- What slots show determines the operands, if only the last one can show nothing. -/
theorem agree_of_shown_eq {slots : List Slot} {os ps : List Operand}
    (hlast : optionalLast slots = true) (hos : List.Forall₂ Fits slots os)
    (hps : List.Forall₂ Fits slots ps) (h : shown slots os = shown slots ps) :
    Agree slots os ps := by
  induction hos generalizing ps with
  | nil =>
    cases hps
    trivial
  | @cons s o slots os ho hos ih =>
    obtain - | ⟨hp, hps⟩ := hps
    cases slots with
    | nil =>
      cases hos
      cases hps
      simp only [shown, List.append_nil] at h
      exact ⟨agrees_of_term?_eq ho hp (by simpa using congrArg List.head? h), trivial⟩
    | cons s' slots =>
      simp only [optionalLast, Bool.and_eq_true, Bool.not_eq_true'] at hlast
      obtain ⟨t, ht⟩ := ho.exists_term hlast.1
      obtain ⟨u, hu⟩ := hp.exists_term hlast.1
      simp only [shown, ht, hu, Option.toList_some, List.singleton_append, List.cons.injEq] at h
      refine ⟨agrees_of_term?_eq ho hp (by rw [ht, hu, h.1]), ih hlast.2 hps h.2⟩

end Slot

end A64Text
