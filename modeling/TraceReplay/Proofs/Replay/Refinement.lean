import TraceReplay.Invoker.Scripted
import TraceReplay.Proofs.Replay.Termination

/-!
# Replays refine their schedules

What a driver issues in a whole replay is its schedule, which says nothing of sleeps,
timers or what else happens in the replay: all of it, or the steps up to the one after
which a check stops the driver.
-/

namespace TraceReplay.Replay

namespace World

/-- The slots a lane has issued, in their order. -/
def entriesOf (w : World) (index : Nat) : List Driver.Entry :=
  (w.view.issuesOf index).map Driver.Issue.entry

/-- On the way from a world a check stops the driver of a lane after a step. -/
def WillStopAt (w : World) (index step : Nat) : Prop :=
  ∃ u, w.Passes u ∧ u.StopsAt index step

theorem runToEnd_passes (w : World) : w.Passes w.runToEnd := run_passes _ _ _

end World

/-- When nothing is left to do, tasks are held, but not for want of room in a mailbox. -/
theorem Sound.held_of_end {w : World} (hsound : Sound w) (hend : w.step? = none)
    {x : Place × Task} (hx : x ∈ w.view.standing) : x.1 = .held ∧ View.isStore x.2 = false := by
  have hheld : x ∈ w.heldTasks := by
    rw [← World.standing_of_end hend]
    exact (mem_ofLanes.mp hx).1
  exact ⟨World.heldTasks_place hheld,
    hsound.toKept.not_isStore_held (World.ready_of_end hend) hheld⟩

/-- When nothing is left to do, a driver that has not ended is done with its trace and
waits for invocations that never end. -/
theorem Sound.drained_of_end {w : World} (hsound : Sound w) (hend : w.step? = none)
    {x : Place × Task} (hx : x ∈ w.view.standing) {lane : Nat} {point : Driver.Point}
    {s : Driver.State} (hdriving : x.2.driving? = some (lane, point, s)) : point = .drained := by
  obtain ⟨hplace, hstore⟩ := hsound.held_of_end hend hx
  have hallowed := hsound.orderly.allowed x hx
  rw [hplace] at hallowed
  exact hallowed.drained hstore hdriving

/-- When nothing is left to do a driver is done with its trace or has ended. -/
theorem Sound.done_of_end {w : World} (hsound : Sound w) (hend : w.step? = none) {index : Nat}
    {lane : Lane} (hmanned : (w.view.track index lane).Manned index) :
    (∃ x ∈ (w.view.track index lane).standing, ∃ owner s,
      x.2.driving? = some (owner, .drained, s)) ∨
    ∃ finish, finish ∈ (w.view.track index lane).finished := by
  by_cases hfinished : (w.view.track index lane).finished = []
  · left
    have hone := hmanned.one
    rw [hfinished, List.length_nil, Nat.add_zero] at hone
    obtain ⟨x, hx, hdriver⟩ := Multiset.countP_pos.mp (hone.symm ▸ Nat.one_pos)
    obtain ⟨⟨owner, point, s⟩, hdriving⟩ := Option.ne_none_iff_exists'.mp hdriver
    obtain rfl := hsound.drained_of_end hend (mem_ofLane.mp hx).1 hdriving
    exact ⟨x, hx, owner, s, hdriving⟩
  · exact .inr (List.exists_mem_of_ne_nil _ hfinished)

/-- When nothing is left to do, the replay of a lane that keeps to its schedule is over. -/
theorem Sound.over_of_end {w : World} (hsound : Sound w) (hend : w.step? = none)
    {index : Nat} {schedule : Driver.Schedule} {stops : Nat → Prop}
    (htrack : w.HasTrack index fun t => t.Manned index ∧ t.Tallied ∧ t.OnSchedule schedule stops) :
    ∃ early, schedule.Over stops early (w.entriesOf index) := by
  obtain ⟨lane, -, hmanned, -, honschedule⟩ := htrack
  rcases hsound.done_of_end hend hmanned with ⟨x, hx, owner, s, hdriving⟩ | ⟨finish, hmem⟩
  · exact ⟨s.stoppedEarly, honschedule.driver x hx owner .drained s hdriving⟩
  · obtain ⟨r, -, hover⟩ := honschedule.ended finish hmem
    exact ⟨r.terminatedEarly, hover⟩

/-- A world in which a driver is stopped passes on. -/
theorem World.StopsAt.passes {u last : World} {index step : Nat} (hstops : u.StopsAt index step)
    (hpasses : u.Passes last) (hend : last.step? = none) :
    ∃ next, u.step? = some next ∧ next.Passes last := by
  rcases hpasses.cases_head with rfl | hnext
  · obtain ⟨point, s, rest, lane, hready, -⟩ := hstops
    exact absurd (World.ready_of_end hend) (by simp [hready])
  · exact hnext

section Replays

variable {w : World} {starts : List Start} {place : Nat} {start : Start}

/-- What a lane has issued after the replay if its driver was stopped. -/
theorem Unmanned.stopped (hunmanned : Unmanned w) (hstart : starts[place]? = some start)
    (hfits : start.specification.Fits start.plan.function) (hpolicy : start.plan.Decides)
    {step : Nat} (hstops : (w.startAll starts).WillStopAt (w.lanes.length + place) step) :
    (w.startAll starts).runToEnd.HasTrack (w.lanes.length + place) fun t =>
      ∃ issues, t.Stopped issues ∧ issues.map Driver.Issue.entry =
        (start.schedule w.clock).entries (step - (start.schedule w.clock).firstStep + 1) := by
  obtain ⟨u, hbefore, hstops⟩ := hstops
  have hend := hunmanned.runToEnd_ends starts
  obtain ⟨next, hnext, hpasses⟩ :=
    hstops.passes (hbefore.to_last (World.runToEnd_passes _) hend) hend
  obtain ⟨hentries, hstopped⟩ :=
    hunmanned.toFounded.stopped hbefore hstart hfits hpolicy hstops
  exact (hstopped next _ hnext hpasses).mono fun t hstopped => ⟨_, hstopped, hentries⟩

/-- A driver does not fail, and it says whether it was stopped. -/
theorem Unmanned.terminatedEarly_iff (hunmanned : Unmanned w)
    (hstart : starts[place]? = some start)
    (hfits : start.specification.Fits start.plan.function) (hpolicy : start.plan.Decides)
    {finish : Finish} (hmem : finish ∈ (w.startAll starts).runToEnd.finished)
    (hlane : finish.lane = w.lanes.length + place) :
    ∃ r, finish.result = .ok r ∧ (r.terminatedEarly = true ↔
      ∃ step, (w.startAll starts).WillStopAt (w.lanes.length + place) step) := by
  have hpasses := World.runToEnd_passes (w.startAll starts)
  have hfinished {lane : Lane} :
      finish ∈ ((w.startAll starts).runToEnd.view.track (w.lanes.length + place) lane).finished :=
    List.mem_filter.mpr ⟨hmem, by simp [hlane]⟩
  obtain ⟨lane, -, -, -, honschedule⟩ :=
    hunmanned.toFounded.onSchedule hpasses hstart hfits hpolicy
  obtain ⟨r, hresult, hover⟩ := honschedule.ended finish hfinished
  refine ⟨r, hresult, fun hearly => ?_, fun ⟨step, hstops⟩ => ?_⟩
  · rw [hearly] at hover
    obtain ⟨step, hstops, -⟩ := hover
    exact ⟨step, hstops⟩
  · obtain ⟨lane, -, issues, hstopped, -⟩ := hunmanned.stopped hstart hfits hpolicy hstops
    obtain ⟨other, hother, hearly⟩ := hstopped.ended finish hfinished
    obtain rfl : other = r := Except.ok.inj (hother.symm.trans hresult)
    exact hearly

/-- After a replay the schedule of a lane is over, or was stopped at a check. -/
theorem Unmanned.over_runToEnd (hunmanned : Unmanned w) (hstart : starts[place]? = some start)
    (hfits : start.specification.Fits start.plan.function) (hpolicy : start.plan.Decides) :
    ∃ early, (start.schedule w.clock).Over
      ((w.startAll starts).WillStopAt (w.lanes.length + place)) early
      ((w.startAll starts).runToEnd.entriesOf (w.lanes.length + place)) := by
  have hpasses := World.runToEnd_passes (w.startAll starts)
  exact (hunmanned.toFounded.sound hpasses).over_of_end (hunmanned.runToEnd_ends starts)
    (hunmanned.toFounded.onSchedule hpasses hstart hfits hpolicy)

/-- A driver that is never stopped issues its whole schedule. -/
theorem Unmanned.entriesOf_of_goesOn (hunmanned : Unmanned w)
    (hstart : starts[place]? = some start)
    (hfits : start.specification.Fits start.plan.function) (hpolicy : start.plan.Decides)
    (hgoesOn : ∀ step, ¬(w.startAll starts).WillStopAt (w.lanes.length + place) step) :
    (w.startAll starts).runToEnd.entriesOf (w.lanes.length + place) =
      (start.schedule w.clock).entries (start.schedule w.clock).steps := by
  obtain ⟨early, hover⟩ := hunmanned.over_runToEnd hstart hfits hpolicy
  cases early with
  | false => exact hover
  | true =>
    obtain ⟨step, hstops, -⟩ := hover
    exact absurd hstops (hgoesOn step)

/-- A replay issues the slots of a lane exactly by the schedule of its driver: all of
them if no check stops the driver, else those up to the step that is checked then.  The
driver does not fail, and says whether it was stopped. -/
theorem Unmanned.entriesOf_runToEnd (hunmanned : Unmanned w)
    (hstart : starts[place]? = some start)
    (hvalid : start.specification.validate start.plan.function = .ok ())
    (hpolicy : start.plan.Decides) :
    ((∀ step, ¬(w.startAll starts).WillStopAt (w.lanes.length + place) step) →
      (w.startAll starts).runToEnd.entriesOf (w.lanes.length + place) =
        (start.schedule w.clock).entries (start.schedule w.clock).steps) ∧
    (∀ step, (w.startAll starts).WillStopAt (w.lanes.length + place) step →
      (w.startAll starts).runToEnd.entriesOf (w.lanes.length + place) =
        (start.schedule w.clock).entries (step - (start.schedule w.clock).firstStep + 1)) ∧
    ∀ finish ∈ (w.startAll starts).runToEnd.finished, finish.lane = w.lanes.length + place →
      ∃ r, finish.result = .ok r ∧ (r.terminatedEarly = true ↔
        ∃ step, (w.startAll starts).WillStopAt (w.lanes.length + place) step) := by
  have hfits := Specification.fits_of_validate hvalid
  have hend := hunmanned.runToEnd_ends starts
  have hpasses := World.runToEnd_passes (w.startAll starts)
  have hfounded := hunmanned.toFounded
  have htrack := hfounded.onSchedule hpasses hstart hfits hpolicy
  have hsound := hfounded.sound hpasses
  refine ⟨fun hnever => ?_, fun step hstops => ?_, fun finish hmem hlane => ?_⟩
  · obtain ⟨early, hover⟩ := hsound.over_of_end hend htrack
    cases early with
    | false => exact hover
    | true =>
      obtain ⟨step, hstops, -⟩ := hover
      exact absurd hstops (hnever step)
  · obtain ⟨lane, -, issues, hstopped, hentries⟩ :=
      hunmanned.stopped hstart hfits hpolicy hstops
    refine Eq.trans ?_ hentries
    exact congrArg (List.map Driver.Issue.entry) hstopped.issues
  · exact hunmanned.terminatedEarly_iff hstart hfits hpolicy hmem hlane

end Replays

/-! ## Steps of a second -/

theorem Track.Step.plan {index : Nat} {t t' : Track} (horderly : t.Orderly index) {own : Bool}
    (hstep : Track.Step index own t t') : t'.lane.plan = t.lane.plan := by
  cases own with
  | true =>
    cases hstep with
    | drive hstanding => exact Track.move_plan _ _ _ _
  | false => exact (hstep.onward horderly).plan

/-- Steps of a second are not judged. -/
theorem Founded.not_willStopAt {w : World} (hfounded : Founded w) {starts : List Start}
    {place : Nat} {start : Start} (hstart : starts[place]? = some start)
    (hsecond : start.plan.configuration.granularity = .second) (step : Nat) :
    ¬(w.startAll starts).WillStopAt (w.lanes.length + place) step := by
  rintro ⟨u, hpasses, hstops⟩
  obtain ⟨hfounded', -, hnew⟩ := hfounded.startAll starts
  obtain ⟨hlane, htrack⟩ := hnew place start hstart
  obtain ⟨lane, hlane, hplan⟩ := hfounded'.toSound.hasTrack hpasses
    (P := fun t => t.lane.plan = start.plan) ⟨_, hlane, by rw [htrack]; rfl⟩
    fun horderly hplan hstep => (hstep.plan horderly).trans hplan
  obtain ⟨-, rest, point, s, -, -, -, notices, hstopped⟩ := hstops.halts hlane
  rw [hplan, Driver.checkStep_second hsecond] at hstopped
  exact Driver.StepEnd.noConfusion hstopped

/-! ## One slot -/

theorem Unmanned.empty : Unmanned {} where
  recordRoom := ⟨by decide, fun hwaiting => absurd rfl hwaiting⟩
  jobRoom := ⟨by decide, fun hwaiting => absurd rfl hwaiting⟩
  told := by simp
  collects := by simp
  sorted := .nil
  future := by simp
  hears := rfl
  recordSenders := by simp [MaySend]
  jobSenders := by simp [MaySend]
  orderly := ⟨fun x hx => absurd hx (Multiset.notMem_zero x),
    fun x hx => absurd hx (Multiset.notMem_zero x)⟩
  single index := Nat.zero_le 1
  vacant index _ := ⟨rfl, rfl⟩
  idle x hx := absurd hx (Multiset.notMem_zero x)

/-- A trace with one slot in one step of a second. -/
def Start.oneSlot : Start where
  plan := {
    index := 0
    function := { name := "f", invocationStats := [1] }
    siblings := []
    policy := .passThrough
    configuration := .ofLoader { experimentDuration := 1, granularity := .second } }
  context := { invoker := .scripted fun _ => {} }
  specification := {
    gaps := [[250]], perStepCount := [1], rawDuration := []
    slots := [[{ runtime := 100, memory := 64 }]] }

theorem Start.oneSlot_decides : Start.oneSlot.plan.Decides := fun _ _ => Policy.Verdict.noConfusion

theorem entriesOf_runToEnd_oneSlot :
    Start.oneSlot.specification.validate Start.oneSlot.plan.function = .ok () ∧
      Start.oneSlot.plan.Decides ∧
      (({} : World).startAll [.oneSlot]).runToEnd.entriesOf 0 =
        [⟨0, 0, Driver.ceilMs (Binary64.toInt64Range 250)⟩] := by
  refine ⟨rfl, Start.oneSlot_decides, ?_⟩
  have hstart : [Start.oneSlot][0]? = some .oneSlot := rfl
  obtain ⟨hfull, -⟩ := Unmanned.empty.entriesOf_runToEnd hstart rfl Start.oneSlot_decides
  refine (hfull (Unmanned.empty.toFounded.not_willStopAt hstart rfl)).trans ?_
  -- Even a slot that comes after its step is issued, so the gap need not be evaluated.
  have hissued : (Start.oneSlot.schedule {}).issued 0 = 1 := by
    refine le_antisymm (Driver.Schedule.issued_le _ 0) ?_
    exact Driver.lt_issuedIn.mpr ⟨Nat.one_pos, Nat.zero_le _⟩
  change (Start.oneSlot.schedule {}).entries 1 = _
  rw [Driver.Schedule.entries_succ, Driver.Schedule.entries_zero, List.nil_append,
    Driver.Schedule.entriesOf]
  change List.map _ (List.range ((Start.oneSlot.schedule {}).issued 0)) = _
  rw [hissued]
  change [(⟨0, 0, 0 + Driver.delay [250] 0⟩ : Driver.Entry)] = _
  simp [Driver.delay, Driver.reach, Driver.nominal]

end TraceReplay.Replay
