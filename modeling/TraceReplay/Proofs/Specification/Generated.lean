import TraceReplay.Generation
import Mathlib

/-!
# Generated specifications

A generated specification has a gap and a slot for every invocation that its function
requests, so it passes the validation that loaded ones have to pass.
-/

namespace TraceReplay

theorem Generator.length_drawList {α : Type} (draw : Generator → α × Generator) (count : Nat)
    (g : Generator) : (g.drawList draw count).1.length = count := by
  induction count generalizing g with
  | zero => rfl
  | succ count ih => exact congrArg (· + 1) (ih _)

theorem length_gapsBetween (points : List Float) :
    (gapsBetween points).length = points.length - 1 := by
  fun_induction gapsBetween points with
  | case1 x y rest ih => simp [ih]
  | case2 points hshort =>
    match points, hshort with
    | [], _ => rfl
    | [x], _ => rfl
    | x :: y :: rest, hshort => exact absurd rfl (hshort x y rest)

namespace Generation

/-- A step has a gap for each of its arrivals. -/
theorem length_stepGaps (shape : ArrivalShape) (unit : Float) (count : Nat) (g : Generator) :
    (stepGaps shape unit count g).1.1.length = count := by
  unfold stepGaps
  by_cases hempty : count = 0
  · rw [if_pos hempty, hempty]
    rfl
  have hsucc : count - 1 + 1 = count := Nat.succ_pred_eq_of_ne_zero hempty
  rw [if_neg hempty]
  cases shape with
  | equidistant => simpa using hsucc
  | uniform =>
    simpa [length_gapsBetween, List.length_mergeSort, Generator.length_drawList] using hsucc
  | exponential =>
    simpa [Generator.length_drawList] using hsucc

/-- As many slots are drawn as are asked for. -/
theorem length_slots {f : Function} {count : Nat} {g : Generator}
    {drawn : List RuntimeSpecification} (hslots : (slots f count g).1 = some drawn) :
    drawn.length = count := by
  induction count generalizing g drawn with
  | zero =>
    obtain rfl := Option.some.inj hslots
    rfl
  | succ count ih =>
    simp only [slots] at hslots
    split at hslots
    · simp at hslots
    · obtain ⟨rest, hrest, rfl⟩ := Option.map_eq_some_iff.mp hslots
      exact congrArg (· + 1) (ih hrest)

/-- The steps of a specification are those that were counted, and have what was counted. -/
structure Counted (counts : List UInt64) (spec : Specification) : Prop where
  gaps : spec.gaps.length = counts.length
  slots : spec.slots.length = counts.length
  agrees : ∀ first, Specification.firstMismatch first spec.gaps spec.slots counts = none

theorem counted_of_steps {f : Function} {shape : ArrivalShape} {unit : Float}
    {counts : List UInt64} {g : Generator} {spec : Specification}
    (hsteps : (steps f shape unit counts g).1 = some spec) : Counted counts spec := by
  induction counts generalizing g spec with
  | nil =>
    obtain rfl := Option.some.inj hsteps
    exact ⟨rfl, rfl, fun _ => rfl⟩
  | cons count counts ih =>
    simp only [steps] at hsteps
    split at hsteps
    · simp at hsteps
    · rename_i drawn next hslots
      obtain ⟨rest, hrest, rfl⟩ := Option.map_eq_some_iff.mp hsteps
      have hcounted := ih hrest
      refine ⟨congrArg (· + 1) hcounted.gaps, congrArg (· + 1) hcounted.slots, fun first => ?_⟩
      rw [Specification.firstMismatch, if_pos ⟨length_stepGaps _ _ _ _, length_slots (congrArg Prod.fst hslots)⟩]
      exact hcounted.agrees (first + 1)

end Generation

/-- A specification that has what was counted passes validation. -/
theorem Generation.Counted.validate {spec : Specification} {f : Function}
    (hcounted : Counted f.invocationStats spec) : spec.validate f = .ok () := by
  have hnone : spec.fault? f = none := by
    simp only [Specification.fault?, hcounted.gaps, hcounted.slots, ne_eq, not_true_eq_false,
      or_self, if_false]
    exact hcounted.agrees 0
  rw [Specification.validate, hnone]

/-- What is generated for a function fits it. -/
theorem validate_of_generate {f : Function} {shape : ArrivalShape} {granularity : Granularity}
    {g : Generator} {spec : Specification} (hspec : (generate f shape granularity g).1 = .ok spec) :
    spec.validate f = .ok () := by
  unfold generate at hspec
  simp only at hspec
  split at hspec
  · rename_i generated next hsteps
    obtain rfl := Except.ok.inj hspec
    exact (Generation.counted_of_steps (congrArg Prod.fst hsteps)).validate
  · simp at hspec

/-! ## Functions that can be drawn for -/

/-- Nothing is requested of the function, or there are tables to draw every slot from. -/
def Function.Drawable (f : Function) : Prop :=
  f.totalInvocations = 0 ∨ f.runtimeStats.wellFormed = true ∧ f.memoryStats.wellFormed = true

namespace PercentileStats

/-- A well-formed table has a value for every point. -/
theorem isSome_valueAt {s : PercentileStats} (hwell : s.wellFormed = true) (point : Float) :
    (s.valueAt point).isSome := by
  simp only [wellFormed, Bool.and_eq_true, Bool.not_eq_true', List.isEmpty_eq_false_iff,
    beq_iff_eq] at hwell
  obtain ⟨hvalues, hlength⟩ := hwell
  unfold valueAt
  split
  · rename_i i hfound
    obtain ⟨hbelow, -⟩ := List.findIdx?_eq_some_iff_getElem.mp hfound
    rw [List.getElem?_eq_getElem (hlength ▸ hbelow)]
    rfl
  · rwa [List.getLast?_isSome]

theorem isSome_sample {s : PercentileStats} (hwell : s.wellFormed = true) (g : Generator) :
    (s.sample g).1.isSome := by
  rw [sample, if_pos hwell]
  exact isSome_valueAt hwell _

end PercentileStats

namespace Generation

variable {f : Function}

theorem isSome_slot (hruntime : f.runtimeStats.wellFormed = true)
    (hmemory : f.memoryStats.wellFormed = true) (g : Generator) : (slot f g).1.isSome := by
  obtain ⟨runtime, hruntime⟩ :=
    Option.isSome_iff_exists.mp (PercentileStats.isSome_sample hruntime g)
  obtain ⟨memory, hmemory⟩ := Option.isSome_iff_exists.mp
    (PercentileStats.isSome_sample hmemory (f.runtimeStats.sample g).2)
  simp [slot, hruntime, hmemory]

/-- Slots can be drawn if there are tables to draw them from, or none is asked for. -/
theorem isSome_slots {count : Nat}
    (hdrawable : count = 0 ∨ f.runtimeStats.wellFormed = true ∧ f.memoryStats.wellFormed = true)
    (g : Generator) : (slots f count g).1.isSome := by
  induction count generalizing g with
  | zero => rfl
  | succ count ih =>
    obtain ⟨hruntime, hmemory⟩ := hdrawable.resolve_left (Nat.succ_ne_zero count)
    obtain ⟨first, hfirst⟩ := Option.isSome_iff_exists.mp (isSome_slot hruntime hmemory g)
    rw [slots]
    generalize slot f g = drawn at hfirst
    obtain ⟨_, next⟩ := drawn
    obtain rfl : _ = some first := hfirst
    simpa using ih (.inr ⟨hruntime, hmemory⟩) next

theorem isSome_steps {counts : List UInt64}
    (hdrawable : (∀ count ∈ counts, count.toNat = 0) ∨
      f.runtimeStats.wellFormed = true ∧ f.memoryStats.wellFormed = true)
    (shape : ArrivalShape) (unit : Float) (g : Generator) :
    (steps f shape unit counts g).1.isSome := by
  induction counts generalizing g with
  | nil => rfl
  | cons count counts ih =>
    have hfirst := isSome_slots (hdrawable.imp_left fun hnone => hnone count List.mem_cons_self)
      (stepGaps shape unit count.toNat g).2
    obtain ⟨drawn, hdrawn⟩ := Option.isSome_iff_exists.mp hfirst
    simp only [steps]
    generalize slots f count.toNat (stepGaps shape unit count.toNat g).2 = slots at hdrawn
    obtain ⟨_, next⟩ := slots
    obtain rfl : _ = some drawn := hdrawn
    simpa using ih (hdrawable.imp_left fun hnone other hmem =>
      hnone other (List.mem_cons_of_mem _ hmem)) next

end Generation

/-- There is a specification for every function that can be drawn for. -/
theorem exists_generate {f : Function} (hdrawable : f.Drawable) (shape : ArrivalShape)
    (granularity : Granularity) (g : Generator) :
    ∃ spec, (generate f shape granularity g).1 = .ok spec := by
  -- A function that requests nothing requests nothing in any step.
  have hcounts : (∀ count ∈ f.invocationStats, count.toNat = 0) ∨
      f.runtimeStats.wellFormed = true ∧ f.memoryStats.wellFormed = true := by
    refine hdrawable.imp_left fun hnone count hmem => ?_
    rw [Function.totalInvocations, ← List.sum_eq_foldr, List.sum_eq_zero_iff] at hnone
    exact hnone _ (List.mem_map_of_mem hmem)
  obtain ⟨spec, hspec⟩ := Option.isSome_iff_exists.mp (Generation.isSome_steps hcounts shape
    (Binary64.ofInt (granularity.unitMs * 1000)) g)
  refine ⟨spec, ?_⟩
  rw [generate]
  generalize Generation.steps f shape _ f.invocationStats g = drawn at hspec ⊢
  obtain ⟨_, next⟩ := drawn
  obtain rfl : _ = some spec := hspec
  rfl

end TraceReplay
