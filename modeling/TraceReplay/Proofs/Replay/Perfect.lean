import TraceReplay.Proofs.Driver.Faultless
import TraceReplay.Proofs.Replay.Calls
import TraceReplay.Proofs.Replay.EarlyStop

/-!
# Perfect replays

A replay whose calls all succeed and whose steps take no longer than they should has nothing
amiss.  It comes to the end of its trace with every slot a success, and no check has anything
to say on the way; but only if no limit is zero that its steps are judged by.
-/

namespace TraceReplay.Replay

namespace Track

variable {index : Nat} {t t' : Track} {schedule : Driver.Schedule} {stops : Nat → Prop}
  {point : Driver.Point} {s : Driver.State} {rest : Standing}

/-- A driver without failures at the end of a step has issued what the schedule has of it. -/
theorem OnSchedule.judged (honschedule : t.OnSchedule schedule stops) (hflawless : t.Flawless)
    (hstanding : t.standing = (.ready, .drive index point s) ::ₘ rest)
    (hjudges : Driver.Judges t.lane.plan point s) :
    (schedule.firstStep ≤ s.step ∧ s.step < schedule.plan.configuration.traceDuration) ∧
      s.slot = schedule.issued s.step ∧ ∀ step ≤ s.step, t.lane.counters.failedAt step = 0 := by
  have hkeeps : schedule.Keeps stops t.clock.now point s t.entries :=
    honschedule.driver (.ready, .drive index point s) (by simp [hstanding]) index point s rfl
  have hcompletes := Driver.Schedule.completes_of_judges hkeeps (honschedule.plan ▸ hjudges)
  exact ⟨⟨hcompletes.replays.from_first, hcompletes.step⟩, hcompletes.slot,
    fun step _ => hflawless.failedAt step⟩

/-- The driver has passed only steps of some kind, all steps of its trace if it was not stopped. -/
structure Passed (schedule : Driver.Schedule) (good : Nat → Prop) (t : Track) : Prop where
  driver : ∀ x ∈ t.standing, ∀ lane point s, x.2.driving? = some (lane, point, s) →
    schedule.Passed good point s
  ended : ∀ finish ∈ t.finished, ∀ r, finish.result = .ok r → r.terminatedEarly = false →
    ∀ step, schedule.firstStep ≤ step → step < schedule.plan.configuration.traceDuration →
      good step

variable {good : Nat → Prop}

/-- The turn of a driver. -/
theorem Passed.drive (hpassed : t.Passed schedule good) (hmanned : t.Manned index)
    (hplan : t.lane.plan = schedule.plan)
    (hgood : Driver.Judges schedule.plan point s → ∀ notices,
      Driver.checkStep schedule.plan t.lane.counters s = .passed notices → good s.step)
    (hstanding : t.standing = (.ready, .drive index point s) ::ₘ rest) :
    Passed schedule good ({ t with standing := rest }.drive index
      (Driver.turn t.lane.plan t.clock t.lane.counters point s)) := by
  obtain ⟨hrest, hfinished⟩ := hmanned.alone hstanding (by simp [Task.driving?])
  have hdriver := hpassed.driver (.ready, .drive index point s) (by simp [hstanding]) index point s rfl
  have harrives := Driver.Schedule.turn_passed t.clock hdriver hgood
  rw [hplan]
  refine ⟨fun x hx lane next s' hdriving => ?_, fun finish hmem r hresult hearly => ?_⟩
  · rcases mem_move hx with hmem | hnone | ⟨next', hnext, hholds⟩
    · exact absurd (hrest x hmem) (by simp [hdriving])
    · exact absurd hnone (by simp [hdriving])
    · rw [hnext] at hdriving
      simp only [Option.some.injEq, Prod.mk.injEq] at hdriving
      obtain ⟨-, rfl, rfl⟩ := hdriving
      exact hholds _ harrives
  · rcases mem_move_finished hmem with hold | ⟨r', hmove, rfl⟩ | ⟨error, -, rfl⟩
    · exact absurd hold (by simp [hfinished])
    · obtain rfl := Except.ok.inj hresult
      obtain ⟨rfl, rfl⟩ := Driver.turn_finish hmove
      exact fun step hfirst hstep =>
        hdriver.before step hfirst (hstep.trans_le (hdriver.all rfl hearly))
    · exact absurd hresult (by simp)

theorem Passed.onward (hpassed : t.Passed schedule good) (honward : t.Onward t') :
    t'.Passed schedule good := by
  refine ⟨fun x hx lane point s hdriving => ?_, ?_⟩
  · obtain ⟨y, hy, hsame, -⟩ := honward.driver x hx lane point s hdriving
    exact hpassed.driver y hy lane point s hsame
  · rw [honward.finished]
    exact hpassed.ended

end Track

/-! ## Whole replays -/

namespace World

/-- If the driver of the lane is next and at the end of a step, its checks have nothing to say. -/
def ChecksSilently (w : World) (index : Nat) : Prop :=
  ∀ point s rest own, w.ready = .drive index point s :: rest → w.lanes[index]? = some own →
    Driver.Judges own.plan point s → Driver.checkStep own.plan own.counters s = .passed []

/-- The driver of the lane has come to the end of its trace, and each of so many slots was issued
and is a success. -/
def Fulfilled (w : World) (index slots : Nat) : Prop :=
  ∃ finish ∈ w.finished, finish.lane = index ∧ ∃ r, finish.result = .ok r ∧
    r.terminatedEarly = false ∧ r.issued = slots ∧ r.successful = slots ∧ r.failed = 0

end World

theorem Start.track_passed (start : Start) (clock : Clock) (index : Nat) (good : Nat → Prop) :
    (start.track clock index).Passed (start.schedule clock) good := by
  refine ⟨fun x hx lane point s hdriving => ?_, by simp [Start.track]⟩
  obtain rfl := Multiset.mem_singleton.mp hx
  simp only [driver, Task.driving?, Option.some.injEq, Prod.mk.injEq] at hdriving
  obtain ⟨-, rfl, rfl⟩ := hdriving
  have hbegin : (Driver.begin start.plan start.specification clock).step =
      (start.schedule clock).firstStep := by
    by_cases hwarmup : start.plan.configuration.withWarmup <;>
      simp [Driver.begin, Driver.Schedule.firstStep, schedule, hwarmup]
  exact ⟨fun step hfirst hstep => absurd (hbegin ▸ hstep) (Nat.not_lt.mpr hfirst),
    fun hdrained => Driver.Point.noConfusion hdrained⟩

section Replays

variable {w u : World} {starts : List Start} {place : Nat} {start : Start}

/-- A driver passes only such steps as its checks let pass. -/
theorem Founded.passed (hfounded : Founded w) (hpasses : (w.startAll starts).Passes u)
    (hstart : starts[place]? = some start)
    (hfits : start.specification.Fits start.plan.function) (hpolicy : start.plan.Decides)
    {good : Nat → Prop}
    (hgood : ∀ u, (w.startAll starts).Passes u → ∀ point s rest own,
      u.ready = .drive (w.lanes.length + place) point s :: rest →
        u.lanes[w.lanes.length + place]? = some own → Driver.Judges own.plan point s →
          ∀ notices, Driver.checkStep own.plan own.counters s = .passed notices → good s.step) :
    u.HasTrack (w.lanes.length + place) (·.Passed (start.schedule w.clock) good) := by
  obtain ⟨hfounded', -, hnew⟩ := hfounded.startAll starts
  obtain ⟨hlane, htrack⟩ := hnew place start hstart
  refine (hfounded'.toSound.passes (P := fun u => u.HasTrack _ _) ⟨_, hlane, ?_⟩
    (fun {u u'} hbefore hsound hstep hpassed => ?_) hpasses).2
  · rw [htrack]
    exact start.track_passed _ _ _
  refine hsound.hasTrack_step hstep hpassed ?_ ?_
  · intro hdriver lane t' hlane hpassed hstep
    obtain ⟨own, hown, hmanned, -, honschedule⟩ :=
      hfounded.onSchedule hbefore hstart hfits hpolicy
    obtain rfl := Option.some.inj (hown.symm.trans hlane)
    obtain ⟨point, s, rest, next, hready, hnext, rfl, hstanding⟩ :=
      World.next_driver hdriver hlane
    cases hstep with
    | drive hstanding' =>
      obtain ⟨rfl, rfl⟩ := Prod.mk.inj (hmanned.same hstanding hstanding')
      have hchecks := hgood u hbefore point s rest next hready hnext
      refine hpassed.drive hmanned honschedule.plan ?_ hstanding'
      rw [← honschedule.plan]
      exact hchecks
  · intro t t' horderly hpassed hstep
    exact hpassed.onward (hstep.onward horderly)

/-- At its check a lane without failures has issued what the schedule has of the step. -/
theorem Founded.judged (hfounded : Founded w) (hpasses : (w.startAll starts).Passes u)
    (hstart : starts[place]? = some start)
    (hfits : start.specification.Fits start.plan.function) (hpolicy : start.plan.Decides)
    (hflawless : u.HasTrack (w.lanes.length + place) Track.Flawless) {point : Driver.Point}
    {s : Driver.State} {rest : List Task} {own : Lane}
    (hready : u.ready = .drive (w.lanes.length + place) point s :: rest)
    (hown : u.lanes[w.lanes.length + place]? = some own) (hjudges : Driver.Judges own.plan point s) :
    own.plan = start.plan ∧ ((start.schedule w.clock).firstStep ≤ s.step ∧
        s.step < start.plan.configuration.traceDuration) ∧
      s.slot = (start.schedule w.clock).issued s.step ∧
      ∀ step ≤ s.step, own.counters.failedAt step = 0 := by
  obtain ⟨hview, hstanding⟩ := World.track_ready hready hown
  obtain ⟨lane, hlane, ⟨-, -, honschedule⟩, hflawless⟩ :=
    (hfounded.onSchedule hpasses hstart hfits hpolicy).and hflawless
  obtain rfl : own.unparked = lane := Option.some.inj (hview.symm.trans hlane)
  exact ⟨honschedule.plan, honschedule.judged hflawless hstanding hjudges⟩

/-- At its check a lane whose calls all succeed and whose trace is punctual has issued all that was
requested, and nothing has failed. -/
theorem Founded.faultless (hfounded : Founded w) (hpasses : (w.startAll starts).Passes u)
    (hstart : starts[place]? = some start)
    (hfits : start.specification.Fits start.plan.function) (hpolicy : start.plan.Decides)
    (hends : start.context.invoker.EndsIn Ending.Succeeds)
    (hpunctual : (start.schedule w.clock).Punctual) {point : Driver.Point} {s : Driver.State}
    {rest : List Task} {own : Lane}
    (hready : u.ready = .drive (w.lanes.length + place) point s :: rest)
    (hown : u.lanes[w.lanes.length + place]? = some own) (hjudges : Driver.Judges own.plan point s) :
    own.plan = start.plan ∧ ((start.schedule w.clock).firstStep ≤ s.step ∧
        s.step < start.plan.configuration.traceDuration) ∧
      s.slot = start.plan.function.invocationsAt s.step ∧
      ∀ step ≤ s.step, own.counters.failedAt step = 0 := by
  have hflawless := (hfounded.flawless hpasses hstart hends).mono fun _ hboth => hboth.2
  obtain ⟨hplan, ⟨hfirst, hlast⟩, hslot, hfailed⟩ :=
    hfounded.judged hpasses hstart hfits hpolicy hflawless hready hown hjudges
  exact ⟨hplan, ⟨hfirst, hlast⟩, hslot.trans (hpunctual.issued hfirst hlast), hfailed⟩

/-- A lane whose calls all succeed and whose trace is punctual is checked silently, if the checks
spare all its steps. -/
theorem Founded.checksSilently (hfounded : Founded w) (hpasses : (w.startAll starts).Passes u)
    (hstart : starts[place]? = some start)
    (hfits : start.specification.Fits start.plan.function) (hpolicy : start.plan.Decides)
    (hends : start.context.invoker.EndsIn Ending.Succeeds)
    (hpunctual : (start.schedule w.clock).Punctual)
    (hspares : ∀ step, (start.schedule w.clock).firstStep ≤ step →
      step < start.plan.configuration.traceDuration → start.plan.Spares step) :
    u.ChecksSilently (w.lanes.length + place) := by
  intro point s rest own hready hown hjudges
  obtain ⟨hplan, ⟨hfirst, hlast⟩, hslot, hfailed⟩ := hfounded.faultless hpasses hstart hfits hpolicy
    hends hpunctual hready hown hjudges
  rw [hplan]
  exact Driver.checkStep_faultless (hspares s.step hfirst hlast) hslot hfailed

/-- A lane of minutes whose calls all succeed and whose trace is punctual passes only steps that
are spared. -/
theorem Founded.spared (hfounded : Founded w) (hpasses : (w.startAll starts).Passes u)
    (hstart : starts[place]? = some start)
    (hfits : start.specification.Fits start.plan.function) (hpolicy : start.plan.Decides)
    (hends : start.context.invoker.EndsIn Ending.Succeeds)
    (hminute : start.plan.configuration.granularity = .minute)
    (hpunctual : (start.schedule w.clock).Punctual) :
    u.HasTrack (w.lanes.length + place)
      (·.Passed (start.schedule w.clock) start.plan.Spares) := by
  apply hfounded.passed hpasses hstart hfits hpolicy
  intro u hbefore point s rest own hready hown hjudges notices hchecked
  obtain ⟨hplan, -, hslot, hfailed⟩ := hfounded.faultless hbefore hstart hfits hpolicy hends
    hpunctual hready hown hjudges
  rw [hplan] at hchecked
  exact Driver.spares_of_passed hminute hslot hfailed hchecked

/-- Where nobody asks the scheduler nobody waits for its answer. -/
theorem Founded.answered (hfounded : Founded w) (hpasses : (w.startAll starts).Passes u)
    (hstart : starts[place]? = some start) (hwaits : start.context.invoker.Waits) :
    u.Answered (w.lanes.length + place) := by
  obtain ⟨lane, -, -, ⟨counted, haccounted⟩, -⟩ := hfounded.accounted hpasses hstart hwaits
  intro dispatch reply begin hmem
  exact haccounted.unasked _ (mem_ofLane.mpr ⟨hmem, rfl⟩) _ _ _ _ rfl

/-- A replay of minutes whose calls all succeed and whose steps take no longer than they should
comes to the end of its trace, with every slot a success and not a word from its checks, if and
only if no limit is zero by which a step is judged that asks for slots. -/
theorem Unmanned.fulfilled_iff (hunmanned : Unmanned w) (hstart : starts[place]? = some start)
    (hconfiguration : start.plan.configuration.loader.validate = .ok ())
    (hvalid : start.specification.validate start.plan.function = .ok ())
    (hpolicy : start.plan.Decides) (hends : start.context.invoker.EndsIn Ending.Succeeds)
    (hanswered : (w.startAll starts).runToEnd.Answered (w.lanes.length + place))
    (hminute : start.plan.configuration.granularity = .minute)
    (hpunctual : (start.schedule w.clock).Punctual) :
    ((w.startAll starts).runToEnd.Fulfilled (w.lanes.length + place)
        (∑ step ∈ Finset.Ico (start.schedule w.clock).firstStep
          start.plan.configuration.traceDuration, start.plan.function.invocationsAt step) ∧
      ∀ u, (w.startAll starts).Passes u → u.ChecksSilently (w.lanes.length + place)) ↔
    (start.schedule w.clock).Tolerant := by
  have hfits := Specification.fits_of_validate hvalid
  have hfounded := hunmanned.toFounded
  have hpasses := World.runToEnd_passes (w.startAll starts)
  rw [Driver.Schedule.tolerant_iff hconfiguration]
  constructor
  · rintro ⟨⟨finish, hmem, hlane, r, hresult, hearly, -⟩, -⟩
    obtain ⟨lane, -, hpassed⟩ :=
      hfounded.spared hpasses hstart hfits hpolicy hends hminute hpunctual
    exact hpassed.ended finish (List.mem_filter.mpr ⟨hmem, by simp [hlane]⟩) r hresult hearly
  · intro hspares
    have hsilent (u : World) (hbefore : (w.startAll starts).Passes u) :
        u.ChecksSilently (w.lanes.length + place) :=
      hfounded.checksSilently hbefore hstart hfits hpolicy hends hpunctual hspares
    refine ⟨?_, hsilent⟩
    have hgoesOn (step : Nat) :
        ¬(w.startAll starts).WillStopAt (w.lanes.length + place) step := by
      rintro ⟨u, hbefore, point, s, rest, own, hready, hown, hjudges, -, notices, hstopped⟩
      have hpassed := hsilent u hbefore point s rest own hready hown hjudges
      exact Driver.StepEnd.noConfusion (hpassed.symm.trans hstopped)
    obtain ⟨finish, hmem, hlane⟩ :=
      hfounded.finishes hpasses hstart (hunmanned.runToEnd_ends starts) hanswered
    obtain ⟨r, hresult, hearly⟩ :=
      hunmanned.terminatedEarly_iff hstart hfits hpolicy hmem hlane
    obtain ⟨lane, hview, ⟨hmanned, -⟩, ⟨-, hcomplete⟩, -, hflawless⟩ :=
      (hfounded.awaits hpasses hstart).and
        ((hfounded.complete hpasses hstart hends Ending.Succeeds.ne_panics).and
          (hfounded.flawless hpasses hstart hends))
    have hfinished : finish ∈ ((w.startAll starts).runToEnd.view.track (w.lanes.length + place)
        lane).finished := List.mem_filter.mpr ⟨hmem, by simp [hlane]⟩
    obtain ⟨-, hsuccessful, hfailed, hissued⟩ := hmanned.ended finish hfinished r hresult
    have hempty := hmanned.standing_eq_zero hfinished hresult
    -- Nothing is left to be counted.
    have hsettled : lane.counters.successful + lane.counters.failed = ((w.startAll
        starts).runToEnd.view.track (w.lanes.length + place) lane).issues.length := by
      have hall : Track.settled _ = _ := hcomplete
      rw [← hall, Track.settled, Track.dues, hempty]
      rfl
    have hslots : ((w.startAll starts).runToEnd.view.track (w.lanes.length + place)
        lane).issues.length = ∑ step ∈ Finset.Ico (start.schedule w.clock).firstStep
          start.plan.configuration.traceDuration, start.plan.function.invocationsAt step := by
      have hentries := hunmanned.entriesOf_of_goesOn hstart hfits hpolicy hgoesOn
      have hlength := congrArg List.length hentries
      rw [World.entriesOf, List.length_map, hpunctual.length_entries] at hlength
      exact hlength
    have hnone : lane.counters.failed = 0 := hflawless.failed
    refine ⟨finish, hmem, hlane, r, hresult, ?_, hissued.trans hslots, ?_, hfailed.trans hnone⟩
    · rw [Bool.eq_false_iff]
      intro hstopped
      obtain ⟨step, hstops⟩ := hearly.mp hstopped
      exact hgoesOn step hstops
    · have hcounted : r.successful = lane.counters.successful := hsuccessful
      omega

end Replays

/-! ## One slot in a minute -/

/-- A trace with one slot in one step of a minute, which is judged by some limits. -/
def Start.judgedBy (limits : Limits) : Start where
  plan := {
    index := 0
    function := { name := "f", invocationStats := [1] }
    siblings := []
    policy := .passThrough
    configuration := .ofLoader {
      experimentDuration := 1, granularity := .minute
      thresholds := { requestedVsIssued := limits } } }
  context := { invoker := .scripted fun _ => {} }
  specification := {
    gaps := [[0]], perStepCount := [1], rawDuration := []
    slots := [[{ runtime := 100, memory := 64 }]] }

namespace Start

variable (limits : Limits)

theorem judgedBy_decides : (judgedBy limits).plan.Decides := fun _ _ => Policy.Verdict.noConfusion

theorem judgedBy_endsIn : (judgedBy limits).context.invoker.EndsIn Ending.Succeeds :=
  fun _ _ => ⟨_, rfl, rfl⟩

theorem judgedBy_waits : (judgedBy limits).context.invoker.Waits := fun _ _ => ⟨_, rfl⟩

theorem judgedBy_answered :
    (({} : World).startAll [judgedBy limits]).runToEnd.Answered 0 := by
  have hstart : [judgedBy limits][0]? = some (judgedBy limits) := rfl
  have hpasses := World.runToEnd_passes (({} : World).startAll [judgedBy limits])
  have hanswered := Unmanned.empty.toFounded.answered hpasses hstart (judgedBy_waits limits)
  exact hanswered

theorem judgedBy_punctual : ((judgedBy limits).schedule {}).Punctual := by
  intro step _ hstep slot hslot
  obtain rfl : step = 0 := Nat.lt_one_iff.mp hstep
  obtain rfl : slot = 0 := Nat.lt_one_iff.mp hslot
  change Driver.nominal [0] 1 ≤ 60000 * 1000
  decide +kernel

end Start

theorem fulfilled_judgedBy_tenths :
    (Start.judgedBy ⟨0.1, 0.2⟩).plan.configuration.loader.validate = .ok () ∧
      (Start.judgedBy ⟨0.1, 0.2⟩).plan.Decides ∧
      (Start.judgedBy ⟨0.1, 0.2⟩).context.invoker.EndsIn Ending.Succeeds ∧
      (({} : World).startAll [.judgedBy ⟨0.1, 0.2⟩]).runToEnd.Answered 0 ∧
      ((Start.judgedBy ⟨0.1, 0.2⟩).schedule {}).Punctual ∧
      (({} : World).startAll [.judgedBy ⟨0.1, 0.2⟩]).runToEnd.Fulfilled 0 1 ∧
      ∀ u, (({} : World).startAll [.judgedBy ⟨0.1, 0.2⟩]).Passes u → u.ChecksSilently 0 := by
  have hconfiguration :
      (Start.judgedBy ⟨0.1, 0.2⟩).plan.configuration.loader.validate = .ok () := by
    rw [Configuration.validate_ok_iff, ← Configuration.fault?_eq_none_iff]
    decide +kernel
  have hissued : ¬Limits.Zero ⟨0.1, 0.2⟩ := by
    unfold Limits.Zero
    decide +kernel
  have hfailed : ¬Limits.Zero ⟨0.5, 0.75⟩ := by
    unfold Limits.Zero
    decide +kernel
  have hiff := Unmanned.empty.fulfilled_iff
    (show [Start.judgedBy ⟨0.1, 0.2⟩][0]? = some (.judgedBy ⟨0.1, 0.2⟩) from rfl) hconfiguration rfl
    (Start.judgedBy_decides _) (Start.judgedBy_endsIn _) (Start.judgedBy_answered _) rfl
    (Start.judgedBy_punctual _)
  obtain ⟨hfulfilled, hsilent⟩ := hiff.mpr fun step _ _ => ⟨fun _ => hissued, fun _ _ _ => hfailed⟩
  exact ⟨hconfiguration, Start.judgedBy_decides _, Start.judgedBy_endsIn _,
    Start.judgedBy_answered _, Start.judgedBy_punctual _, hfulfilled, hsilent⟩

/-- A limit of zero is valid, and it stops a replay that has nothing amiss. -/
theorem not_fulfilled_judgedBy_zero :
    (Start.judgedBy ⟨0, 0⟩).plan.configuration.loader.validate = .ok () ∧
      (Start.judgedBy ⟨0, 0⟩).specification.validate (Start.judgedBy ⟨0, 0⟩).plan.function = .ok () ∧
      (Start.judgedBy ⟨0, 0⟩).plan.configuration.granularity = .minute ∧
      (Start.judgedBy ⟨0, 0⟩).plan.Decides ∧
      (Start.judgedBy ⟨0, 0⟩).context.invoker.EndsIn Ending.Succeeds ∧
      (({} : World).startAll [.judgedBy ⟨0, 0⟩]).runToEnd.Answered 0 ∧
      ((Start.judgedBy ⟨0, 0⟩).schedule {}).Punctual ∧
      (∃ finish r, (({} : World).startAll [.judgedBy ⟨0, 0⟩]).runToEnd.finished = [finish] ∧
        finish.result = .ok r ∧ r.terminatedEarly = true ∧ r.issued = 1 ∧ r.successful = 1 ∧
        r.failed = 0) ∧
      ¬(({} : World).startAll [.judgedBy ⟨0, 0⟩]).runToEnd.Fulfilled 0 1 := by
  have hconfiguration : (Start.judgedBy ⟨0, 0⟩).plan.configuration.loader.validate = .ok () := by
    rw [Configuration.validate_ok_iff, ← Configuration.fault?_eq_none_iff]
    decide +kernel
  have hended : (({} : World).startAll [.judgedBy ⟨0, 0⟩]).runToEnd.finished.map
      (fun finish => finish.result.toOption.map fun r =>
        (r.terminatedEarly, r.issued, r.successful, r.failed)) = [some (true, 1, 1, 0)] := by
    decide +kernel
  obtain ⟨finish, hfinished, hreport⟩ := List.map_eq_singleton_iff.mp hended
  cases hresult : finish.result with
  | error error => simp [hresult, Except.toOption] at hreport
  | ok r =>
    simp only [hresult, Except.toOption, Option.map_some, Option.some.injEq, Prod.mk.injEq] at hreport
    obtain ⟨hearly, hissued, hsuccessful, hfailed⟩ := hreport
    refine ⟨hconfiguration, rfl, rfl, Start.judgedBy_decides _, Start.judgedBy_endsIn _,
      Start.judgedBy_answered _, Start.judgedBy_punctual _,
      ⟨finish, r, hfinished, hresult, hearly, hissued, hsuccessful, hfailed⟩, ?_⟩
    rintro ⟨other, hmem, -, r', hresult', honward, -⟩
    obtain rfl : other = finish := List.mem_singleton.mp (hfinished ▸ hmem)
    obtain rfl : r' = r := Except.ok.inj (hresult'.symm.trans hresult)
    exact absurd (hearly.symm.trans honward) (by simp)

end TraceReplay.Replay
