import TraceReplay.Specification
import Mathlib

/-!
# Specifications that fit

A specification that passes validation has a gap and a slot for everything the function
requests, and keeps them when statistics are attached; what it lacks it goes on to lack.
-/

namespace TraceReplay.Specification

/-- There is a gap and a slot for every invocation. -/
structure Fits (spec : Specification) (f : Function) : Prop where
  gap : ∀ step slot, slot < f.invocationsAt step → ∃ gap, spec.gap? step slot = some gap
  slot : ∀ step slot, slot < f.invocationsAt step → ∃ found, spec.slot? step slot = some found

/-- Steps without a mismatch have as many gaps and slots as requested. -/
theorem lengths_of_firstMismatch {first : Nat} {gaps : List (List Float)}
    {slots : List (List RuntimeSpecification)} {counts : List UInt64}
    (hgaps : gaps.length = counts.length) (hslots : slots.length = counts.length)
    (hnone : firstMismatch first gaps slots counts = none) {step : Nat} {count : UInt64}
    (hcount : counts[step]? = some count) :
    ∃ gapStep slotStep, gaps[step]? = some gapStep ∧ slots[step]? = some slotStep ∧
      gapStep.length = count.toNat ∧ slotStep.length = count.toNat := by
  induction counts generalizing first gaps slots step with
  | nil => simp at hcount
  | cons head counts ih =>
    obtain ⟨gapStep, gaps, rfl⟩ := List.exists_of_length_succ gaps (by simpa using hgaps)
    obtain ⟨slotStep, slots, rfl⟩ := List.exists_of_length_succ slots (by simpa using hslots)
    simp only [firstMismatch] at hnone
    split at hnone
    · rename_i hlengths
      cases step with
      | zero =>
        obtain rfl : head = count := by simpa using hcount
        exact ⟨gapStep, slotStep, rfl, rfl, hlengths.1, hlengths.2⟩
      | succ step =>
        exact ih (by simpa using hgaps) (by simpa using hslots) hnone (by simpa using hcount)
    · exact absurd hnone (by simp)

/-- Validation finds as many steps as requested and no mismatch in them. -/
theorem matches_of_validate {spec : Specification} {f : Function}
    (hvalid : spec.validate f = .ok ()) :
    spec.gaps.length = f.invocationStats.length ∧
      spec.slots.length = f.invocationStats.length ∧
      firstMismatch 0 spec.gaps spec.slots f.invocationStats = none := by
  have hnone : spec.fault? f = none := by
    unfold validate at hvalid
    split at hvalid
    · exact absurd hvalid (by simp)
    · assumption
  unfold fault? at hnone
  simp only at hnone
  split at hnone
  · exact absurd hnone (by simp)
  rename_i hsteps
  simp only [not_or, not_not] at hsteps
  exact ⟨hsteps.1, hsteps.2, hnone⟩

theorem fits_of_validate {spec : Specification} {f : Function}
    (hvalid : spec.validate f = .ok ()) : spec.Fits f := by
  obtain ⟨hgaps, hslots, hnone⟩ := matches_of_validate hvalid
  have hlengths {step slot : Nat} (hslot : slot < f.invocationsAt step) :
      ∃ gapStep slotStep, spec.gaps[step]? = some gapStep ∧ spec.slots[step]? = some slotStep ∧
        slot < gapStep.length ∧ slot < slotStep.length := by
    unfold Function.invocationsAt at hslot
    split at hslot
    · rename_i count hcount
      obtain ⟨gapStep, slotStep, hgap, hfound, hgapLength, hslotLength⟩ :=
        lengths_of_firstMismatch hgaps hslots hnone hcount
      exact ⟨gapStep, slotStep, hgap, hfound, by omega, by omega⟩
    · omega
  constructor
  · intro step slot hslot
    obtain ⟨gapStep, -, hgaps, -, hlength, -⟩ := hlengths hslot
    exact ⟨gapStep[slot], by simp [gap?, hgaps, hlength]⟩
  · intro step slot hslot
    obtain ⟨-, slotStep, -, hslots, -, hlength⟩ := hlengths hslot
    exact ⟨slotStep[slot], by simp [slot?, hslots, hlength]⟩

/-- Attaching statistics takes no slot away. -/
theorem isSome_slot?_attach (spec : Specification) (step slot : Nat) (stats : ModeStats)
    (other index : Nat) :
    ((spec.attach step slot stats).slot? other index).isSome =
      (spec.slot? other index).isSome := by
  simp only [slot?, attach, List.getElem?_modify]
  cases spec.slots[other]? with
  | none => simp
  | some found =>
    by_cases heq : step = other <;> simp [heq, List.getElem?_modify]

/-- There is no gap, or no slot, for an invocation. -/
def Lacks (spec : Specification) (step slot : Nat) : Prop :=
  spec.gap? step slot = none ∨ spec.slot? step slot = none

@[simp]
theorem lacks_attach (spec : Specification) (step slot : Nat) (stats : ModeStats)
    (other index : Nat) :
    (spec.attach step slot stats).Lacks other index ↔ spec.Lacks other index := by
  have hsome := isSome_slot?_attach spec step slot stats other index
  rw [Lacks, Lacks, ← Option.not_isSome_iff_eq_none (o := (spec.attach step slot stats).slot? _ _),
    hsome, Option.not_isSome_iff_eq_none]
  rfl

/-- Attaching statistics leaves the other slots as they are. -/
theorem slot?_attach_other (spec : Specification) (stats : ModeStats)
    {step slot other index : Nat} (hother : ¬(other = step ∧ index = slot)) :
    (spec.attach step slot stats).slot? other index = spec.slot? other index := by
  simp only [slot?, attach, List.getElem?_modify]
  by_cases hstep : step = other
  · subst hstep
    have hslot : slot ≠ index := fun heq => hother ⟨rfl, heq.symm⟩
    cases spec.slots[step]? with
    | none => rfl
    | some found => simp [hslot]
  · cases spec.slots[other]? with
    | none => simp
    | some found => simp [hstep]

theorem Fits.attach {spec : Specification} {f : Function} (hfits : spec.Fits f)
    (step slot : Nat) (stats : ModeStats) : (spec.attach step slot stats).Fits f where
  gap := hfits.gap
  slot other index hslot := by
    have hsome := isSome_slot?_attach spec step slot stats other index
    rw [Option.isSome_iff_exists.mpr (hfits.slot other index hslot)] at hsome
    exact Option.isSome_iff_exists.mp hsome

end TraceReplay.Specification
