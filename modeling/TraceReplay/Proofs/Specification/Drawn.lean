import TraceReplay.Proofs.Specification.Generated

/-!
# What generated specifications are made of

Every step of a generated specification begins at once.  If its arrivals are spread uniformly,
its gaps are those between the drawn points, put in order; and every slot asks for values of the
tables.  Generation fails only for want of a table to draw a requested slot from.
-/

namespace TraceReplay

/-! ## Tables -/

/-- There are no values, or not one for each percentile. -/
def PercentileStats.Malformed (s : PercentileStats) : Prop :=
  s.values = [] ∨ s.values.length ≠ s.percentiles.length

namespace PercentileStats

variable {s : PercentileStats} {g : Generator} {value : UInt32}

theorem malformed_iff : s.Malformed ↔ ¬s.wellFormed = true := by
  simp only [Malformed, wellFormed, Bool.and_eq_true, Bool.not_eq_true', List.isEmpty_eq_false_iff,
    beq_iff_eq, not_and_or, not_not, ne_eq]

theorem mem_of_valueAt {point : Float} (hvalue : s.valueAt point = some value) :
    value ∈ s.values := by
  unfold valueAt at hvalue
  split at hvalue
  · exact List.mem_of_getElem? hvalue
  · exact List.mem_of_getLast? hvalue

theorem sample_eq_some (hsample : (s.sample g).1 = some value) :
    s.wellFormed = true ∧ value ∈ s.values := by
  unfold sample at hsample
  split at hsample
  next hwell => exact ⟨hwell, mem_of_valueAt hsample⟩
  next => exact absurd hsample (by simp)

end PercentileStats

/-! ## Points and gaps -/

theorem getElem?_gapsBetween {points : List Float} {k : Nat} {x y : Float}
    (hx : points[k]? = some x) (hy : points[k + 1]? = some y) :
    (gapsBetween points)[k]? = some (y - x) := by
  induction points generalizing k with
  | nil => simp at hx
  | cons point points ih =>
    cases points with
    | nil => simp at hy
    | cons next points =>
      cases k with
      | zero =>
        obtain rfl : point = x := by simpa using hx
        obtain rfl : next = y := by simpa using hy
        rfl
      | succ k => exact ih hx hy

/-- The gaps of a step are those between its points, which are in order. -/
structure Generation.Spreads (points gaps : List Float) : Prop where
  length : gaps.length = points.length
  ascending : points.Pairwise fun x y => totalOrderKey x ≤ totalOrderKey y
  differences : ∀ k x y, points[k]? = some x → points[k + 1]? = some y →
    gaps[k + 1]? = some (y - x)

/-- A slot asks for values of the tables and has no statistics yet. -/
structure RuntimeSpecification.DrawnFor (slot : RuntimeSpecification) (f : Function) : Prop where
  stats : slot.stats = none
  runtime : slot.runtime ∈ f.runtimeStats.values
  memory : slot.memory ∈ f.memoryStats.values

namespace Generation

variable {f : Function} {shape : ArrivalShape} {unit : Float} {count : Nat} {g : Generator}

/-! ## Steps -/

theorem head?_stepGaps (hrequested : (stepGaps shape unit count g).1.1 ≠ []) :
    (stepGaps shape unit count g).1.1.head? = some 0.0 := by
  unfold stepGaps at hrequested ⊢
  split
  next hempty => simp [hempty] at hrequested
  next => cases shape <;> rfl

theorem length_samples (shape : ArrivalShape) (unit : Float) (count : Nat) (g : Generator) :
    (stepGaps shape unit count g).1.2.length = if shape = .equidistant then 0 else count := by
  unfold stepGaps
  by_cases hempty : count = 0
  · simp [hempty]
  rw [if_neg hempty]
  cases shape <;> simp [Generator.length_drawList, List.length_mergeSort]

theorem pairwise_totalOrder (points : List Float) :
    (points.mergeSort fun x y => totalOrderKey x ≤ totalOrderKey y).Pairwise
      fun x y => totalOrderKey x ≤ totalOrderKey y := by
  have hsorted : (points.mergeSort fun x y => totalOrderKey x ≤ totalOrderKey y).Pairwise
      fun x y => decide (totalOrderKey x ≤ totalOrderKey y) = true :=
    List.pairwise_mergeSort (by simpa using fun _ _ _ => Int.le_trans)
      (by simpa using fun _ _ => Int.le_total _ _) points
  simpa using hsorted

theorem spreads_stepGaps (unit : Float) (count : Nat) (g : Generator) :
    Spreads (stepGaps .uniform unit count g).1.2 (stepGaps .uniform unit count g).1.1 where
  length := by simp [length_stepGaps, length_samples]
  ascending := by
    unfold stepGaps
    split
    next => exact .nil
    next => exact pairwise_totalOrder _
  differences k x y hx hy := by
    unfold stepGaps at hx hy ⊢
    split
    next hempty => simp [hempty] at hx
    next hrequested =>
      rw [if_neg hrequested] at hx hy
      exact getElem?_gapsBetween hx hy

/-! ## Slots -/

theorem slot_eq_some {drawn : RuntimeSpecification} (hslot : (slot f g).1 = some drawn) :
    (f.runtimeStats.wellFormed = true ∧ f.memoryStats.wellFormed = true) ∧ drawn.DrawnFor f := by
  simp only [slot] at hslot
  split at hslot
  next runtime memory hruntime hmemory =>
    obtain rfl := Option.some.inj hslot
    obtain ⟨hwell, hvalue⟩ := PercentileStats.sample_eq_some hruntime
    obtain ⟨hwell', hvalue'⟩ := PercentileStats.sample_eq_some hmemory
    exact ⟨⟨hwell, hwell'⟩, ⟨rfl, hvalue, hvalue'⟩⟩
  next => exact absurd hslot (by simp)

theorem slots_eq_some {drawn : List RuntimeSpecification}
    (hslots : (slots f count g).1 = some drawn) :
    (count ≠ 0 → f.runtimeStats.wellFormed = true ∧ f.memoryStats.wellFormed = true) ∧
      ∀ slot ∈ drawn, slot.DrawnFor f := by
  induction count generalizing g drawn with
  | zero =>
    obtain rfl := Option.some.inj hslots
    simp
  | succ count ih =>
    simp only [slots] at hslots
    split at hslots
    next => exact absurd hslots (by simp)
    next first next hslot =>
      obtain ⟨hwell, hfirst⟩ := slot_eq_some (congrArg Prod.fst hslot)
      obtain ⟨rest, hrest, rfl⟩ := Option.map_eq_some_iff.mp hslots
      refine ⟨fun _ => hwell, List.forall_mem_cons.mpr ⟨hfirst, (ih hrest).2⟩⟩

/-! ## Schedules -/

/-- How a schedule for these counts is laid out. -/
structure Schedules (f : Function) (shape : ArrivalShape) (counts : List UInt64)
    (spec : Specification) : Prop where
  requested : spec.perStepCount = counts
  /-- The first slot of a step follows at once. -/
  starts : ∀ step ∈ spec.gaps, step ≠ [] → step.head? = some 0.0
  /-- As many samples as slots, unless the gaps are all equal. -/
  samples : spec.rawDuration.length =
    if shape = .equidistant then 0 else (counts.map UInt64.toNat).sum
  /-- The samples of uniform arrivals are the points of one step after the other. -/
  spread : shape = .uniform →
    ∃ blocks, spec.rawDuration = blocks.flatten ∧ List.Forall₂ Spreads blocks spec.gaps
  drawn : ∀ step ∈ spec.slots, ∀ slot ∈ step, slot.DrawnFor f

theorem schedules_empty (f : Function) (shape : ArrivalShape) :
    Schedules f shape [] .empty where
  requested := rfl
  starts := nofun
  samples := by simp [Specification.empty]
  spread _ := ⟨[], rfl, .nil⟩
  drawn := nofun

/-- A step is laid out before the others. -/
theorem Schedules.cons {counts : List UInt64} {rest : Specification}
    (hrest : Schedules f shape counts rest) (unit : Float) (count : UInt64) (g : Generator)
    {drawn : List RuntimeSpecification} (hdrawn : ∀ slot ∈ drawn, slot.DrawnFor f) :
    Schedules f shape (count :: counts) {
      gaps := (stepGaps shape unit count.toNat g).1.1 :: rest.gaps
      perStepCount := count :: rest.perStepCount
      rawDuration := (stepGaps shape unit count.toNat g).1.2 ++ rest.rawDuration
      slots := drawn :: rest.slots } where
  requested := congrArg (count :: ·) hrest.requested
  starts := List.forall_mem_cons.mpr ⟨head?_stepGaps, hrest.starts⟩
  samples := by
    rw [List.length_append, hrest.samples, length_samples, List.map_cons, List.sum_cons]
    split <;> rfl
  spread := by
    rintro rfl
    obtain ⟨blocks, hraw, hspread⟩ := hrest.spread rfl
    exact ⟨_ :: blocks, congrArg (_ ++ ·) hraw, .cons (spreads_stepGaps _ _ _) hspread⟩
  drawn := List.forall_mem_cons.mpr ⟨hdrawn, hrest.drawn⟩

theorem steps_eq_some {counts : List UInt64} {spec : Specification}
    (hsteps : (steps f shape unit counts g).1 = some spec) :
    ((∃ count ∈ counts, count.toNat ≠ 0) →
      f.runtimeStats.wellFormed = true ∧ f.memoryStats.wellFormed = true) ∧
      Schedules f shape counts spec := by
  induction counts generalizing g spec with
  | nil =>
    obtain rfl := Option.some.inj hsteps
    exact ⟨by simp, schedules_empty f shape⟩
  | cons count counts ih =>
    simp only [steps] at hsteps
    split at hsteps
    next => exact absurd hsteps (by simp)
    next drawn next hslots =>
      obtain ⟨hwell, hdrawn⟩ := slots_eq_some (congrArg Prod.fst hslots)
      obtain ⟨rest, hrest, rfl⟩ := Option.map_eq_some_iff.mp hsteps
      obtain ⟨hwell', hschedules⟩ := ih hrest
      refine ⟨?_, hschedules.cons unit count g hdrawn⟩
      rintro ⟨other, hmem, hrequested⟩
      rcases List.mem_cons.mp hmem with rfl | hmem
      · exact hwell hrequested
      · exact hwell' ⟨other, hmem, hrequested⟩

end Generation

/-! ## Generated specifications -/

variable {f : Function} {shape : ArrivalShape} {granularity : Granularity} {g : Generator}

/-- A slot is requested that there is no table to draw from. -/
def Function.Undrawable (f : Function) : Prop :=
  (∃ step, 0 < f.invocationsAt step) ∧ (f.runtimeStats.Malformed ∨ f.memoryStats.Malformed)

theorem Function.exists_invocationsAt_iff :
    (∃ step, 0 < f.invocationsAt step) ↔ ∃ count ∈ f.invocationStats, count.toNat ≠ 0 := by
  constructor
  · rintro ⟨step, hrequested⟩
    rw [invocationsAt] at hrequested
    split at hrequested
    next count hcount => exact ⟨count, List.mem_of_getElem? hcount, hrequested.ne'⟩
    next => exact absurd hrequested (lt_irrefl 0)
  · rintro ⟨count, hmem, hrequested⟩
    obtain ⟨step, hcount⟩ := List.mem_iff_getElem?.mp hmem
    refine ⟨step, ?_⟩
    rw [invocationsAt, hcount]
    exact Nat.pos_of_ne_zero hrequested

theorem generate_cases (f : Function) (shape : ArrivalShape) (granularity : Granularity)
    (g : Generator) :
    (∃ spec, (generate f shape granularity g).1 = .ok spec ∧
      Generation.Schedules f shape f.invocationStats spec ∧ ¬f.Undrawable) ∨
    (generate f shape granularity g).1 =
      .error (.invalidSpecification f.name .malformedStatistics) := by
  rw [generate]
  split
  next spec next hsteps =>
    obtain ⟨hwell, hschedules⟩ := Generation.steps_eq_some (congrArg Prod.fst hsteps)
    refine .inl ⟨spec, rfl, hschedules, ?_⟩
    rintro ⟨hrequested, hmalformed⟩
    obtain ⟨hruntime, hmemory⟩ := hwell (Function.exists_invocationsAt_iff.mp hrequested)
    simp only [PercentileStats.malformed_iff, hruntime, hmemory] at hmalformed
    simp at hmalformed
  next => exact .inr rfl

/-- There are tables for all that is requested of a function that is not undrawable. -/
theorem Function.drawable_of_not_undrawable (hdrawn : ¬f.Undrawable) : f.Drawable := by
  rw [Undrawable, not_and_or, exists_invocationsAt_iff, not_or, PercentileStats.malformed_iff,
    PercentileStats.malformed_iff, not_not, not_not] at hdrawn
  refine hdrawn.imp_left fun hnone => ?_
  rw [totalInvocations, ← List.sum_eq_foldr, List.sum_eq_zero_iff]
  simpa using hnone

/-- Generation fails exactly if a slot is requested that there is no table to draw from.
Otherwise its result passes validation, each of its steps that is not empty begins at once, and
its samples and slots are as many, and drawn as, the shape and the tables say. -/
theorem generate_schedules (f : Function) (shape : ArrivalShape) (granularity : Granularity)
    (g : Generator) :
    ((generate f shape granularity g).1 =
        .error (.invalidSpecification f.name .malformedStatistics) ↔
      (∃ step, 0 < f.invocationsAt step) ∧
        (f.runtimeStats.Malformed ∨ f.memoryStats.Malformed)) ∧
    (¬((∃ step, 0 < f.invocationsAt step) ∧
        (f.runtimeStats.Malformed ∨ f.memoryStats.Malformed)) →
      ∃ spec, (generate f shape granularity g).1 = .ok spec ∧
        spec.validate f = .ok () ∧
        spec.perStepCount = f.invocationStats ∧
        (∀ step ∈ spec.gaps, step ≠ [] → step.head? = some 0.0) ∧
        spec.rawDuration.length = (if shape = .equidistant then 0 else f.totalInvocations) ∧
        (shape = .uniform → ∃ blocks, spec.rawDuration = blocks.flatten ∧
          List.Forall₂ Generation.Spreads blocks spec.gaps) ∧
        ∀ step ∈ spec.slots, ∀ slot ∈ step, slot.DrawnFor f) := by
  change (_ ↔ f.Undrawable) ∧ (¬f.Undrawable → _)
  rcases generate_cases f shape granularity g with ⟨spec, hspec, hschedules, hdrawn⟩ | herror
  · refine ⟨by simp [hspec, hdrawn], fun _ => ⟨spec, hspec, validate_of_generate hspec,
      hschedules.requested, hschedules.starts, hschedules.samples, hschedules.spread,
      hschedules.drawn⟩⟩
  · have hundrawable : f.Undrawable := by
      by_contra hdrawn
      obtain ⟨spec, hspec⟩ :=
        exists_generate (Function.drawable_of_not_undrawable hdrawn) shape granularity g
      exact absurd (herror.symm.trans hspec) (by simp)
    exact ⟨by simp [herror, hundrawable], fun hdrawn => absurd hundrawable hdrawn⟩

/-- A function that rests in its second step and takes one of two times. -/
def restingOnce : Function where
  name := "resting"
  invocationStats := [2, 0, 1]
  runtimeStats := ⟨[0.5, 1.0], [100, 200]⟩
  memoryStats := .fixed 64

/-- A function of which it is not known how long it takes. -/
def timeless : Function where
  name := "timeless"
  invocationStats := [0, 1]
  memoryStats := .fixed 64

theorem generate_schedules_resting :
    (∃ spec blocks, (generate restingOnce .uniform .second (.ofSeed 42)).1 = .ok spec ∧
      spec.rawDuration.length = 3 ∧ spec.rawDuration = blocks.flatten ∧
      List.Forall₂ Generation.Spreads blocks spec.gaps) ∧
    (generate timeless .exponential .minute (.ofSeed 1)).1 =
      .error (.invalidSpecification "timeless" .malformedStatistics) := by
  constructor
  · obtain ⟨-, hgenerated⟩ := generate_schedules restingOnce .uniform .second (.ofSeed 42)
    obtain ⟨spec, hspec, -, -, -, hsamples, hspread, -⟩ := hgenerated <| by
      rintro ⟨-, hmalformed | hmalformed⟩ <;>
        simp [restingOnce, PercentileStats.fixed, PercentileStats.Malformed] at hmalformed
    obtain ⟨blocks, hraw, hblocks⟩ := hspread rfl
    exact ⟨spec, blocks, hspec, hsamples, hraw, hblocks⟩
  · exact (generate_schedules timeless .exponential .minute (.ofSeed 1)).1.mpr
      ⟨⟨1, by decide⟩, .inl (.inl rfl)⟩

end TraceReplay
