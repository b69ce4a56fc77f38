import TraceReplay.Proofs.Config.Valid
import TraceReplay.Proofs.Driver.Family

/-!
# Steps without fault

If all that was requested of a step is issued and nothing has failed, the checks at its end
compare the replay with its plan through a difference of nothing.  They have nothing to say
then, unless a limit is zero: such a limit is reached.
-/

namespace TraceReplay

theorem Binary64.ratioRank_zero {den : Int} (hden : 0 < den) : ratioRank 0 den = 0 := by
  have hzero : nearestNat 0 = 0 := Nat.mul_eq_zero.mpr (.inl (by simp [roundHalfEven]))
  simp [ratioRank, hzero, nearestBits, Int.not_lt.mpr hden.le]

/-- No difference is a reason to stop if the limit is above it, and never one to warn. -/
theorem Health.check_same {ideal : Int} (hideal : 0 < ideal) (kind : HealthCheck)
    {thresholds : Thresholds}
    (hbelow : ¬Health.reaches 0 (thresholds.limits kind).terminate = true) :
    Health.check ideal ideal kind thresholds = .fine [] := by
  simp [Health.check, Binary64.ratioRank_zero hideal, hbelow]

namespace Driver

variable {plan : Plan} {counters : Counters} {s : State}

/-- The checks pass at the end of a step without fault. -/
def Plan.Spares (plan : Plan) (step : Nat) : Prop :=
  ¬Unhealthy plan step (plan.function.invocationsAt step) fun _ => 0

theorem failedTooMany_zero_iff {step : Nat} : FailedTooMany plan 0 step ↔
    plan.function.invocationsAt step ≠ 0 ∧
      Health.reaches 0 plan.configuration.loader.thresholds.issuedVsFailed.terminate = true := by
  refine and_congr_right fun hbusy => ?_
  rw [Nat.cast_zero, Binary64.ratioRank_zero (by omega)]

theorem issuedTooFew_all_iff {step : Nat} :
    IssuedTooFew plan (plan.function.invocationsAt step) step ↔
      plan.function.invocationsAt step ≠ 0 ∧
        Health.reaches 0 plan.configuration.loader.thresholds.requestedVsIssued.terminate = true := by
  refine and_congr_right fun hbusy => ?_
  rw [sub_self, Binary64.ratioRank_zero (by omega)]

/-- A step without fault is spared unless a limit is zero by which it is judged. -/
theorem spares_iff (hvalid : plan.configuration.loader.validate = .ok ()) {step : Nat} :
    plan.Spares step ↔
      (plan.function.invocationsAt step ≠ 0 →
        ¬plan.configuration.loader.thresholds.requestedVsIssued.Zero) ∧
      ∀ earlier ≤ step, plan.function.invocationsAt earlier ≠ 0 →
        ¬plan.configuration.loader.thresholds.issuedVsFailed.Zero := by
  have hordered := (Configuration.validate_ok_iff.mp hvalid).limits
  have hissued := Limits.reaches_zero_iff (hordered .requestedVsIssued)
  have hfailed := Limits.reaches_zero_iff (hordered .issuedVsFailed)
  simp only [Thresholds.limits] at hissued hfailed
  simp only [Plan.Spares, Unhealthy, issuedTooFew_all_iff, failedTooMany_zero_iff, hissued, hfailed,
    not_or, not_and, not_exists]

theorem checkFailures_faultless {steps : List Nat} (notices : List Notice)
    (hspares : ∀ step ∈ steps, ¬FailedTooMany plan 0 step)
    (hfailed : ∀ step ∈ steps, counters.failedAt step = 0) :
    checkFailures plan counters steps notices = .passed notices := by
  induction steps generalizing notices with
  | nil => rfl
  | cons step steps ih =>
    obtain ⟨hspared, hrest⟩ := List.forall_mem_cons.mp hspares
    obtain ⟨hnone, hnoneLater⟩ := List.forall_mem_cons.mp hfailed
    have hfine : Health.check (plan.function.invocationsAt step)
        (plan.function.invocationsAt step : Int) .issuedVsFailed
        plan.configuration.loader.thresholds = .fine [] := by
      by_cases hempty : plan.function.invocationsAt step = 0
      · rw [hempty]
        exact Health.check_zero _ _ _
      · refine Health.check_same (by omega) _ fun hreaches => hspared ?_
        exact failedTooMany_zero_iff.mpr ⟨hempty, hreaches⟩
    simp only [checkFailures, hnone, Nat.cast_zero, sub_zero, hfine, List.append_nil]
    exact ih notices hrest hnoneLater

/-- The checks have nothing to say of a step that they spare. -/
theorem checkStep_faultless (hspares : plan.Spares s.step)
    (hslot : s.slot = plan.function.invocationsAt s.step)
    (hfailed : ∀ step ≤ s.step, counters.failedAt step = 0) :
    checkStep plan counters s = .passed [] := by
  cases hunit : plan.configuration.granularity with
  | second => exact checkStep_second hunit
  | minute =>
    obtain ⟨hissued, hfailures⟩ := not_or.mp hspares
    have hfine : Health.check (plan.function.invocationsAt s.step) s.slot .requestedVsIssued
        plan.configuration.loader.thresholds = .fine [] := by
      rw [hslot]
      by_cases hempty : plan.function.invocationsAt s.step = 0
      · rw [hempty]
        exact Health.check_zero _ _ _
      · refine Health.check_same (by omega) _ fun hreaches => hissued ?_
        exact issuedTooFew_all_iff.mpr ⟨hempty, hreaches⟩
    simp only [checkStep, hunit, hfine]
    apply checkFailures_faultless
    · intro step hstep htooMany
      exact hfailures ⟨step, Nat.lt_succ_iff.mp (List.mem_range.mp hstep), htooMany⟩
    · exact fun step hstep => hfailed step (Nat.lt_succ_iff.mp (List.mem_range.mp hstep))

/-- A step of a minute without fault that passes its checks is spared by them. -/
theorem spares_of_passed (hminute : plan.configuration.granularity = .minute)
    (hslot : s.slot = plan.function.invocationsAt s.step)
    (hfailed : ∀ step ≤ s.step, counters.failedAt step = 0) {notices : List Notice}
    (hpassed : checkStep plan counters s = .passed notices) : plan.Spares s.step := by
  intro hunhealthy
  have hstops : Stops plan counters s := by
    refine ⟨hminute, ?_⟩
    rw [hslot]
    exact hunhealthy.mono (fun _ _ => Nat.zero_le _) fun step hstep =>
      (hfailed step hstep).trans_le (Nat.zero_le _)
  obtain ⟨_, hstopped⟩ := (checkStep_stopped hslot.le fun step hstep =>
    (hfailed step hstep).trans_le (Nat.zero_le _)).mpr hstops
  exact StepEnd.noConfusion (hpassed.symm.trans hstopped)

/-- The same plan with test mode switched on or off. -/
def Plan.inMode (plan : Plan) (testMode : Bool) : Plan :=
  { plan with configuration := { plan.configuration with testMode := testMode } }

namespace Schedule

variable {schedule : Schedule} {clock : Clock}

/-- No slot of the steps that are replayed is due after its step is over. -/
def Punctual (schedule : Schedule) : Prop :=
  ∀ step, schedule.firstStep ≤ step → step < schedule.plan.configuration.traceDuration →
    ∀ slot < schedule.requested step,
      nominal (schedule.gaps step) (slot + 1) ≤ schedule.unit * 1000

/-- No limit is zero by which a step is judged that asks for slots. -/
def Tolerant (schedule : Schedule) : Prop :=
  ∀ step, schedule.firstStep ≤ step → step < schedule.plan.configuration.traceDuration →
    (schedule.requested step ≠ 0 →
      ¬schedule.plan.configuration.loader.thresholds.requestedVsIssued.Zero) ∧
    ∀ earlier ≤ step, schedule.requested earlier ≠ 0 →
      ¬schedule.plan.configuration.loader.thresholds.issuedVsFailed.Zero

theorem Punctual.issued (hpunctual : schedule.Punctual) {step : Nat}
    (hfirst : schedule.firstStep ≤ step)
    (hlast : step < schedule.plan.configuration.traceDuration) :
    schedule.issued step = schedule.requested step :=
  issuedIn_of_punctual (hpunctual step hfirst hlast)

theorem tolerant_iff (hvalid : schedule.plan.configuration.loader.validate = .ok ()) :
    schedule.Tolerant ↔ ∀ step, schedule.firstStep ≤ step →
      step < schedule.plan.configuration.traceDuration → schedule.plan.Spares step :=
  forall₃_congr fun _ _ _ => (spares_iff hvalid).symm

/-- All slots of the replayed steps are in the schedule of a punctual trace. -/
theorem Punctual.length_entries (hpunctual : schedule.Punctual) :
    (schedule.entries schedule.steps).length =
      ∑ step ∈ Finset.Ico schedule.firstStep schedule.plan.configuration.traceDuration,
        schedule.requested step := by
  have hcount (count : Nat) (hcount : count ≤ schedule.steps) :
      (schedule.entries count).length =
        ∑ before ∈ Finset.range count, schedule.requested (schedule.firstStep + before) := by
    induction count with
    | zero => rfl
    | succ count ih =>
      rw [entries_succ, List.length_append, ih (by omega), length_entriesOf,
        Finset.sum_range_succ, hpunctual.issued (by omega) (by simp only [steps] at hcount; omega)]
  rw [hcount _ le_rfl, Finset.sum_Ico_eq_sum_range]
  rfl

/-! ## Replays without failures -/

/-- The checks stop a replay without failures after the step. -/
def HaltsAfter (schedule : Schedule) (step : Nat) : Prop :=
  schedule.plan.configuration.granularity = .minute ∧
    Unhealthy schedule.plan step (schedule.issued step) fun _ => 0

theorem stopped_iff_haltsAfter (hslot : s.slot = schedule.issued s.step)
    (hfailed : ∀ step ≤ s.step, counters.failedAt step = 0) :
    (∃ notices, checkStep schedule.plan counters s = .stopped notices) ↔
      schedule.HaltsAfter s.step := by
  have hnone : ∀ step ≤ s.step, counters.failedAt step ≤ schedule.plan.function.invocationsAt step :=
    fun step hstep => (hfailed step hstep).trans_le (Nat.zero_le _)
  rw [checkStep_stopped (hslot.trans_le (issuedIn_le)) hnone]
  constructor
  · intro hstops
    refine ⟨hstops.minute, hslot ▸ hstops.judged.mono ?_ fun _ _ => Nat.zero_le _⟩
    exact fun step hstep => (hfailed step hstep).le
  · rintro ⟨hminute, hunhealthy⟩
    exact ⟨hminute, hslot ▸ hunhealthy.mono (fun _ _ => Nat.zero_le _) hnone⟩

/-- The replay issues its schedule up to the first step after which it halts. -/
def Runs (schedule : Schedule) (entries : List Entry) : Prop :=
  (∃ step, (schedule.firstStep ≤ step ∧ step < schedule.plan.configuration.traceDuration) ∧
    schedule.HaltsAfter step ∧
    (∀ earlier, schedule.firstStep ≤ earlier → earlier < step → ¬schedule.HaltsAfter earlier) ∧
    entries = schedule.entries (step - schedule.firstStep + 1)) ∨
  (∀ step, schedule.firstStep ≤ step → step < schedule.plan.configuration.traceDuration →
    ¬schedule.HaltsAfter step) ∧ entries = schedule.entries schedule.steps

/-- There is one way only to run. -/
theorem Runs.unique {entries entries' : List Entry} (hruns : schedule.Runs entries)
    (hruns' : schedule.Runs entries') : entries = entries' := by
  rcases hruns with ⟨step, ⟨hfirst, hlast⟩, hhalts, hbefore, rfl⟩ | ⟨hnever, rfl⟩ <;>
    rcases hruns' with ⟨step', ⟨hfirst', hlast'⟩, hhalts', hbefore', rfl⟩ | ⟨hnever', rfl⟩
  · obtain hless | rfl | hless := Nat.lt_trichotomy step step'
    · exact absurd hhalts (hbefore' step hfirst hless)
    · rfl
    · exact absurd hhalts' (hbefore step' hfirst' hless)
  · exact absurd hhalts (hnever' step hfirst hlast)
  · exact absurd hhalts' (hnever step' hfirst' hlast')
  · rfl

/-- In test mode or not, a replay without failures runs the same. -/
theorem runs_inMode (testMode : Bool) {entries : List Entry} :
    { schedule with plan := schedule.plan.inMode testMode }.Runs entries ↔
      schedule.Runs entries := by
  have hentries (count : Nat) :
      Schedule.entries { schedule with plan := schedule.plan.inMode testMode } count =
        schedule.entries count := by
    apply entries_congr <;> rfl
  simp only [Runs, hentries]
  rfl

/-! ## Steps that have passed -/

/-- The driver has passed only steps of some kind, and all of its trace before its end. -/
structure Passed (schedule : Schedule) (good : Nat → Prop) (point : Point) (s : State) : Prop where
  before : ∀ step, schedule.firstStep ≤ step → step < s.step → good step
  all : point = .drained → s.stoppedEarly = false →
    schedule.plan.configuration.traceDuration ≤ s.step

variable {good : Nat → Prop}

/-- A driver that stays in its step has passed the steps it had passed. -/
theorem Passed.stay {point next : Point} {s' : State} (hpassed : schedule.Passed good point s)
    (hnext : next ≠ .drained) (hstep : s'.step = s.step) : schedule.Passed good next s' where
  before := hstep ▸ hpassed.before
  all hdrained := absurd hdrained hnext

/-- After its check a step has passed, or the replay is stopped. -/
theorem endStep_passed {point : Point} (hpassed : schedule.Passed good point s)
    (hgood : ∀ notices, checkStep schedule.plan counters s = .passed notices → good s.step)
    (wasEmpty : Bool) {onward : Move}
    (honward : ∀ holds : Nat → Point → Prop, (∀ time, holds time .head) →
      onward.Arrives clock holds) :
    (endStep schedule.plan clock counters s wasEmpty onward).move.Arrives clock fun _ next =>
      schedule.Passed good next
        (endStep schedule.plan clock counters s wasEmpty onward).state := by
  rcases endStep_cases schedule.plan clock counters s wasEmpty onward with
    ⟨_, _, -, hend⟩ | ⟨_, -, hend⟩ | ⟨notices, _, hcheck, hend⟩ <;> rw [hend]
  · trivial
  · intro _
    exact ⟨hpassed.before, fun _ hgoesOn => absurd hgoesOn (by simp)⟩
  · refine honward _ fun _ => ?_
    rw [nextStep_state]
    refine ⟨fun step hfirst hstep => ?_, fun hdrained => Point.noConfusion hdrained⟩
    rcases Nat.lt_succ_iff_lt_or_eq.mp hstep with hbefore | rfl
    · exact hpassed.before step hfirst hbefore
    · exact hgood notices hcheck

/-- A turn passes a step only if its check does. -/
theorem turn_passed (clock : Clock) {point : Point} (hpassed : schedule.Passed good point s)
    (hgood : Judges schedule.plan point s → ∀ notices,
      checkStep schedule.plan counters s = .passed notices → good s.step) :
    (turn schedule.plan clock counters point s).move.Arrives clock fun _ next =>
      schedule.Passed good next (turn schedule.plan clock counters point s).state := by
  cases point with
  | head =>
    rcases atHead_cases schedule.plan clock counters s with
      ⟨hend, hturn⟩ | ⟨hstep, hempty, hturn⟩ | ⟨-, -, -, hturn⟩ | ⟨gap, -, -, -, hturn⟩ <;>
      simp only [turn, hturn]
    · exact fun _ => ⟨hpassed.before, fun _ _ => hend⟩
    · exact endStep_passed hpassed (hgood (.inr ⟨rfl, hstep, hempty⟩)) true
        fun holds hholds => hholds _
    · trivial
    · split <;> exact hpassed.stay (by simp) rfl
  | due gap =>
    rcases issueSlot_cases schedule.plan clock counters
        { s with nominal := s.nominal + gap, issued := s.issued + 1 } with
      ⟨_, _, hturn, -⟩ | ⟨_, _, _, hturn, -⟩ | ⟨_, hturn⟩ <;> simp only [turn, hturn]
    · trivial
    · exact hpassed.stay (by simp) rfl
    · exact hpassed.stay (by simp) rfl
  | stored => exact hpassed.stay (by simp) rfl
  | advance =>
    simp only [turn]
    split <;> exact hpassed.stay (by simp) rfl
  | check => exact endStep_passed hpassed (hgood (.inl rfl)) false fun holds hholds => hholds _
  | drained => trivial

end Schedule
end Driver
end TraceReplay
