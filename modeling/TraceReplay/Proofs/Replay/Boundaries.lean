import TraceReplay.Proofs.Replay.Refinement

/-!
# Steps of a trace and steps of its replay

A step of a trace is as long as its unit.  A step of a replay is not: an empty one takes
the unit, one that is cut takes longer, but one whose slots are all issued is over with
the last of them, whatever is left of the unit.  So a replay keeps the boundaries of the
trace if and only if the steps it hurries through are made up for by the ones before
them that take too long.
-/

namespace TraceReplay.Driver.Schedule

variable (schedule : Schedule)

/-- When the trace has a step begin. -/
def boundary (step : Nat) : Nat :=
  schedule.start + (step - schedule.firstStep) * schedule.unit

/-- An empty step takes as long as the trace says. -/
theorem duration_of_empty {step : Nat} (hempty : schedule.requested step = 0) :
    schedule.duration step = schedule.unit := if_pos hempty

/-- A step that leaves slots out takes longer than the trace says. -/
theorem unit_lt_duration {step : Nat} (hcut : schedule.issued step < schedule.requested step) :
    schedule.unit < schedule.duration step := by
  have hbusy : schedule.requested step ≠ 0 := by omega
  have hlast : ¬schedule.issued step < schedule.issued step := lt_irrefl _
  rw [issued, lt_issuedIn] at hlast
  rw [duration, if_neg hbusy]
  by_contra hle
  exact hlast ⟨hcut, Nat.le_of_not_lt hle⟩

/-- Only a step whose slots are all issued can be shorter than the trace says. -/
theorem issued_of_hurried {step : Nat} (hhurried : schedule.duration step < schedule.unit) :
    schedule.requested step ≠ 0 ∧ schedule.issued step = schedule.requested step := by
  constructor
  · intro hempty
    rw [schedule.duration_of_empty hempty] at hhurried
    exact lt_irrefl _ hhurried
  · by_contra hne
    have hcut := lt_of_le_of_ne (schedule.issued_le step) hne
    exact lt_asymm hhurried (schedule.unit_lt_duration hcut)

/-- A step begins when the ones before it have taken their time. -/
theorem begins_eq_sum (count : Nat) :
    schedule.begins count = schedule.start +
      ∑ step ∈ Finset.Ico schedule.firstStep (schedule.firstStep + count),
        schedule.duration step := by
  induction count with
  | zero => simp [begins]
  | succ count ih =>
    rw [begins, ih, ← Nat.add_assoc schedule.firstStep,
      Finset.sum_Ico_succ_top (Nat.le_add_right _ _), Nat.add_assoc]

/-- The first slot of a step is issued before the others. -/
theorem delay_zero_le (gaps : List Float) (slot : Nat) : delay gaps 0 ≤ delay gaps slot :=
  reach_mono gaps (Nat.succ_le_succ (Nat.zero_le slot))

theorem mem_entries {count : Nat} {entry : Entry} :
    entry ∈ schedule.entries count ↔ ∃ before < count,
      ∃ slot < schedule.issued (schedule.firstStep + before),
        entry = ⟨schedule.firstStep + before, slot,
          schedule.begins before + delay (schedule.gaps (schedule.firstStep + before)) slot⟩ := by
  simp only [entries, entriesOf, List.mem_flatMap, List.mem_map, List.mem_range, eq_comm]

/-- Slots are issued after the boundaries of their steps if the steps before them have
taken their time, together with what the first slot of the step waits. -/
theorem boundary_le_entries_iff (count : Nat) :
    (∀ entry ∈ schedule.entries count, schedule.boundary entry.step ≤ entry.time) ↔
      ∀ entry ∈ schedule.entries count,
        (entry.step - schedule.firstStep) * schedule.unit ≤
          ∑ step ∈ Finset.Ico schedule.firstStep entry.step, schedule.duration step +
            delay (schedule.gaps entry.step) 0 := by
  have htime (before slot : Nat) :
      schedule.boundary (schedule.firstStep + before) ≤
          schedule.begins before + delay (schedule.gaps (schedule.firstStep + before)) slot ↔
        before * schedule.unit ≤
          ∑ step ∈ Finset.Ico schedule.firstStep (schedule.firstStep + before),
            schedule.duration step +
            delay (schedule.gaps (schedule.firstStep + before)) slot := by
    rw [boundary, Nat.add_sub_cancel_left, begins_eq_sum, Nat.add_assoc, Nat.add_le_add_iff_left]
  constructor
  · intro hkept entry hmem
    obtain ⟨before, hbefore, slot, hslot, rfl⟩ := schedule.mem_entries.mp hmem
    have hfirst := hkept _ <| schedule.mem_entries.mpr
      ⟨before, hbefore, 0, Nat.zero_lt_of_lt hslot, rfl⟩
    simpa only [Nat.add_sub_cancel_left] using (htime before 0).mp hfirst
  · intro hkept entry hmem
    have hsum := hkept entry hmem
    obtain ⟨before, -, slot, -, rfl⟩ := schedule.mem_entries.mp hmem
    rw [Nat.add_sub_cancel_left] at hsum
    apply (htime before slot).mpr
    exact hsum.trans (Nat.add_le_add_left (delay_zero_le _ slot) _)

end TraceReplay.Driver.Schedule

namespace TraceReplay.Replay

section Replays

variable {w : World} {starts : List Start} {place : Nat} {start : Start}

/-- A lane issues the slots of the first steps of its schedule. -/
theorem Unmanned.entriesOf_eq_entries (hunmanned : Unmanned w)
    (hstart : starts[place]? = some start)
    (hvalid : start.specification.validate start.plan.function = .ok ())
    (hpolicy : start.plan.Decides) :
    ∃ count, (w.startAll starts).runToEnd.entriesOf (w.lanes.length + place) =
      (start.schedule w.clock).entries count := by
  obtain ⟨early, hover⟩ :=
    hunmanned.over_runToEnd hstart (Specification.fits_of_validate hvalid) hpolicy
  cases early with
  | false => exact ⟨_, hover⟩
  | true =>
    obtain ⟨step, -, -, hentries⟩ := hover
    exact ⟨_, hentries⟩

/-- At steps of a second a lane issues its whole schedule. -/
theorem Unmanned.entriesOf_second (hunmanned : Unmanned w) (hstart : starts[place]? = some start)
    (hvalid : start.specification.validate start.plan.function = .ok ())
    (hpolicy : start.plan.Decides)
    (hsecond : start.plan.configuration.granularity = .second) :
    (w.startAll starts).runToEnd.entriesOf (w.lanes.length + place) =
      (start.schedule w.clock).entries (start.schedule w.clock).steps := by
  have hfits := Specification.fits_of_validate hvalid
  exact hunmanned.entriesOf_of_goesOn hstart hfits hpolicy
    (hunmanned.toFounded.not_willStopAt hstart hsecond)

/-- A replay issues no slot of a lane before the trace has its step begin if and only if,
for each step it issues slots of, the steps before it have taken their time together. -/
theorem Unmanned.boundary_le_iff (hunmanned : Unmanned w) (hstart : starts[place]? = some start)
    (hvalid : start.specification.validate start.plan.function = .ok ())
    (hpolicy : start.plan.Decides) :
    (∀ entry ∈ (w.startAll starts).runToEnd.entriesOf (w.lanes.length + place),
      (start.schedule w.clock).boundary entry.step ≤ entry.time) ↔
    ∀ entry ∈ (w.startAll starts).runToEnd.entriesOf (w.lanes.length + place),
      (entry.step - (start.schedule w.clock).firstStep) * (start.schedule w.clock).unit ≤
        ∑ step ∈ Finset.Ico (start.schedule w.clock).firstStep entry.step,
          (start.schedule w.clock).duration step +
          Driver.delay ((start.schedule w.clock).gaps entry.step) 0 := by
  obtain ⟨count, hentries⟩ := hunmanned.entriesOf_eq_entries hstart hvalid hpolicy
  rw [hentries]
  exact Driver.Schedule.boundary_le_entries_iff _ count

end Replays

/-! ## A hurried step -/

/-- Two steps of a second with two slots each, half a second apart. -/
def Start.hurried : Start where
  plan := {
    index := 0
    function := { name := "f", invocationStats := [2, 2] }
    siblings := []
    policy := .passThrough
    configuration := .ofLoader { experimentDuration := 2, granularity := .second } }
  context := { invoker := .scripted fun _ => {} }
  specification := {
    gaps := [[0, 500000], [0, 500000]], perStepCount := [2, 2], rawDuration := []
    slots := [[{ runtime := 100, memory := 64 }, { runtime := 100, memory := 64 }],
      [{ runtime := 100, memory := 64 }, { runtime := 100, memory := 64 }]] }

theorem Start.hurried_mem : [Start.hurried][0]? = some .hurried := rfl

theorem Start.hurried_decides : Start.hurried.plan.Decides := fun _ _ =>
  Policy.Verdict.noConfusion

/-- The first step is over with its second slot, so the next one comes half a second early. -/
theorem entriesOf_runToEnd_hurried :
    Start.hurried.specification.validate Start.hurried.plan.function = .ok () ∧
      (∀ gaps ∈ Start.hurried.specification.gaps, ∀ gap ∈ gaps,
        0 ≤ Binary64.toInt64Range gap) ∧
      Start.hurried.plan.Decides ∧
      (({} : World).startAll [.hurried]).runToEnd.entriesOf 0 =
        [⟨0, 0, 0⟩, ⟨0, 1, 500⟩, ⟨1, 0, 500⟩, ⟨1, 1, 1000⟩] ∧
      ¬∀ entry ∈ (({} : World).startAll [.hurried]).runToEnd.entriesOf 0,
        (Start.hurried.schedule {}).boundary entry.step ≤ entry.time := by
  have hschedule : (Start.hurried.schedule {}).entries (Start.hurried.schedule {}).steps =
      [⟨0, 0, 0⟩, ⟨0, 1, 500⟩, ⟨1, 0, 500⟩, ⟨1, 1, 1000⟩] := by decide +kernel
  have hentries : (({} : World).startAll [.hurried]).runToEnd.entriesOf 0 =
      [⟨0, 0, 0⟩, ⟨0, 1, 500⟩, ⟨1, 0, 500⟩, ⟨1, 1, 1000⟩] :=
    (Unmanned.empty.entriesOf_second Start.hurried_mem rfl Start.hurried_decides rfl).trans hschedule
  refine ⟨rfl, by decide +kernel, Start.hurried_decides, hentries, fun hkept => ?_⟩
  have hsecond := hkept ⟨1, 0, 500⟩ (hentries ▸ by simp)
  exact absurd hsecond (by decide)

theorem boundary_le_iff_hurried :
    Start.hurried.specification.validate Start.hurried.plan.function = .ok () ∧
      Start.hurried.plan.Decides ∧
      ((∀ entry ∈ (({} : World).startAll [.hurried]).runToEnd.entriesOf 0,
        (Start.hurried.schedule {}).boundary entry.step ≤ entry.time) ↔
      ∀ entry ∈ (({} : World).startAll [.hurried]).runToEnd.entriesOf 0,
        (entry.step - (Start.hurried.schedule {}).firstStep) * (Start.hurried.schedule {}).unit ≤
          ∑ step ∈ Finset.Ico (Start.hurried.schedule {}).firstStep entry.step,
            (Start.hurried.schedule {}).duration step +
            Driver.delay ((Start.hurried.schedule {}).gaps entry.step) 0) := by
  have hiff := Unmanned.empty.boundary_le_iff Start.hurried_mem rfl Start.hurried_decides
  exact ⟨rfl, Start.hurried_decides, hiff⟩

end TraceReplay.Replay
