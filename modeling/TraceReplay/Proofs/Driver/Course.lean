import TraceReplay.Proofs.Driver.Schedule

/-!
# Drivers keep to their schedules

At each point of its loop a driver has issued what the schedule has up to there, at the
scheduled times.  A sleep from a whole millisecond ends at the next slot that is due,
because what the slots before it came late is taken off its gap.
-/

namespace TraceReplay.Driver

namespace Schedule

variable (schedule : Schedule)

/-- Steps replayed before the one a driver is at. -/
def before (s : State) : Nat := s.step - schedule.firstStep

/-- What holds all the time a driver replays. -/
structure Replays (s : State) : Prop where
  from_first : schedule.firstStep ≤ s.step
  trace : s.specification.gaps = schedule.trace
  fits : s.specification.Fits schedule.plan.function
  onward : s.stoppedEarly = false

/-- The driver is in a step: `slots` of its slots are issued, and it is the time at which
the first `due` of them have been due. -/
structure Within (s : State) (slots due time : Nat) (issues : List Entry) : Prop where
  stepStart : s.stepStart = schedule.begins (schedule.before s)
  nominal : s.nominal = nominal (schedule.gaps s.step) slots
  time : time = schedule.begins (schedule.before s) + reach (schedule.gaps s.step) due
  issues : issues = schedule.entries (schedule.before s) ++
    (schedule.entriesOf (schedule.before s)).take slots

/-- A slot of the step is about to be issued, or has just been. -/
structure Issues (s : State) : Prop where
  step : s.step < schedule.plan.configuration.traceDuration
  slot : s.slot < schedule.issued s.step

/-- A driver at the end of a step has issued all its slots. -/
structure Completes (s : State) (time : Nat) (issues : List Entry) : Prop where
  replays : schedule.Replays s
  step : s.step < schedule.plan.configuration.traceDuration
  within : schedule.Within s s.slot s.slot time issues
  slot : s.slot = schedule.issued s.step

/-- What has been issued when the replay is over, stopped or not. -/
def Over (stops : Nat → Prop) (early : Bool) (issues : List Entry) : Prop :=
  if early then
    ∃ step, stops step ∧ schedule.firstStep ≤ step ∧
      issues = schedule.entries (step - schedule.firstStep + 1)
  else issues = schedule.entries schedule.steps

variable {schedule} in
/-- A replay that nothing stops goes on to the end of its trace. -/
theorem Over.goesOn {stops : Nat → Prop} {early : Bool} {issues : List Entry}
    (hover : schedule.Over stops early issues) (hnever : ∀ step, ¬stops step) : early = false := by
  cases early with
  | false => rfl
  | true =>
    obtain ⟨step, hstops, -⟩ := hover
    exact absurd hstops (hnever step)

/-- A driver keeps to its schedule.  At `stops` the replay may be stopped. -/
def Keeps (stops : Nat → Prop) (time : Nat) (point : Point) (s : State)
    (issues : List Entry) : Prop :=
  match point with
  | .head => schedule.Replays s ∧ schedule.Within s s.slot s.slot time issues ∧
      (s.slot = 0 ∧ schedule.before s ≤ schedule.steps ∨ schedule.Issues s)
  | .due gap => schedule.Replays s ∧ schedule.Within s s.slot (s.slot + 1) time issues ∧
      schedule.Issues s ∧ nominal (schedule.gaps s.step) (s.slot + 1) = s.nominal + gap
  | .stored => schedule.Replays s ∧ schedule.Within s (s.slot + 1) (s.slot + 1) time issues ∧
      schedule.Issues s
  | .advance => schedule.Replays s ∧ schedule.Within s (s.slot + 1) (s.slot + 1) time issues ∧
      schedule.Issues s
  | .check => schedule.Replays s ∧ schedule.Within s s.slot s.slot time issues ∧
      s.step < schedule.plan.configuration.traceDuration ∧ s.slot = schedule.issued s.step ∧
      schedule.requested s.step ≠ 0
  | .drained => schedule.Over stops s.stoppedEarly issues

end Schedule

/-- What holds wherever and whenever a driver goes on after a move. -/
def Move.Arrives (clock : Clock) (holds : Nat → Point → Prop) : Move → Prop
  | .proceed next => holds clock.now next
  | .sleep micros next => holds (clock.wakeTime micros) next
  | .yield next => holds clock.now next
  | .deliver _ next => holds clock.now next
  | .launch _ next => holds clock.now next
  | .await next => ∀ time, holds time next
  | .finish _ => True
  | .fail _ => True

theorem Move.Arrives.mono {clock : Clock} {holds more : Nat → Point → Prop} {move : Move}
    (himp : ∀ time next, holds time next → more time next) (harrives : move.Arrives clock holds) :
    move.Arrives clock more := by
  cases move with
  | await next => exact fun time => himp time next (harrives time)
  | finish | fail => trivial
  | _ => exact himp _ _ harrives

/-- The policy has a verdict on every slot. -/
def Plan.Decides (plan : Plan) : Prop :=
  ∀ issued message, (plan.policy.resolve ⟨plan.function, plan.siblings, issued⟩).verdict ≠
    .panic message

/-- The driver is at the end of a step, where it is checked. -/
def Judges (plan : Plan) (point : Point) (s : State) : Prop :=
  point = .check ∨ point = .head ∧ s.step < plan.configuration.traceDuration ∧
    plan.function.invocationsAt s.step = 0

/-- What a driver does that is told to stop. -/
theorem turn_of_stopped {plan : Plan} {clock : Clock} {counters : Counters} {point : Point}
    {s : State} (hjudges : Judges plan point s) {notices : List Notice}
    (hstopped : checkStep plan counters s = .stopped notices) :
    turn plan clock counters point s =
      { state := { s with stoppedEarly := true }, counters := counters, notices := notices
        move := .await .drained } := by
  rcases hjudges with rfl | ⟨rfl, hstep, hempty⟩
  · simp [turn, endStep, hstopped]
  · simp [turn, atHead, endStep, hempty, hstopped, Nat.not_le.mpr hstep]

/-- What a driver looks up at a point is there, and its checks compare parts of what was
requested. -/
structure Safe (plan : Plan) (counters : Counters) (point : Point) (s : State) : Prop where
  gap : point = .head → s.step < plan.configuration.traceDuration →
    plan.function.invocationsAt s.step ≠ 0 → ∃ gap, s.specification.gap? s.step s.slot = some gap
  slot : ∀ gap, point = .due gap → ∃ slot, s.specification.slot? s.step s.slot = some slot
  check : Judges plan point s → ∀ notices error, checkStep plan counters s ≠ .broken notices error

/-- A safe driver does not fail, if its policy has a verdict on every slot. -/
theorem Safe.goesOn {plan : Plan} {clock : Clock} {counters : Counters} {point : Point}
    {s : State} (hsafe : Safe plan counters point s) (hpolicy : plan.Decides)
    (error : ReplayError) : (turn plan clock counters point s).move ≠ .fail error := by
  have hend (hjudges : Judges plan point s) (wasEmpty : Bool) (onward : Move)
      (honward : onward ≠ .fail error) :
      (endStep plan clock counters s wasEmpty onward).move ≠ .fail error := by
    rcases endStep_cases plan clock counters s wasEmpty onward with
      ⟨notices, other, hbroken, -⟩ | ⟨_, -, hturn⟩ | ⟨_, _, -, hturn⟩
    · exact absurd hbroken (hsafe.check hjudges notices other)
    · simp [hturn]
    · rwa [hturn]
  cases point with
  | head =>
    rcases atHead_cases plan clock counters s with
      ⟨-, hturn⟩ | ⟨hstep, hempty, hturn⟩ | ⟨hstep, hbusy, hnone, -⟩ | ⟨_, -, -, -, hturn⟩
    · simp [turn, hturn]
    · rw [turn, hturn]
      exact hend (.inr ⟨rfl, hstep, hempty⟩) true _ (by simp)
    · obtain ⟨gap, hgap⟩ := hsafe.gap rfl hstep hbusy
      simp [hgap] at hnone
    · simp only [turn, hturn]
      split <;> simp
  | due gap =>
    rcases issueSlot_cases plan clock counters
        { s with nominal := s.nominal + gap, issued := s.issued + 1 } with
      ⟨_, _, -, hcause⟩ | ⟨_, _, _, hturn, -⟩ | ⟨_, hturn⟩
    · rcases hcause with ⟨message, hpanic, -⟩ | ⟨hnone, -⟩
      · exact absurd hpanic (hpolicy _ message)
      · obtain ⟨slot, hslot⟩ := hsafe.slot gap rfl
        simp [hslot] at hnone
    · simp [turn, hturn]
    · simp [turn, hturn]
  | stored => simp [turn]
  | advance =>
    simp only [turn]
    split <;> simp
  | check => exact hend (.inl rfl) false _ (by simp)
  | drained => simp [turn]

namespace Schedule

variable {schedule : Schedule} {stops : Nat → Prop} {clock : Clock} {counters : Counters}
  {s : State} {issues : List Entry}

theorem Replays.step_eq (hreplays : schedule.Replays s) :
    schedule.firstStep + schedule.before s = s.step :=
  Nat.add_sub_cancel' hreplays.from_first

/-- The step has a slot that is issued next. -/
theorem Issues.requested (hissues : schedule.Issues s) :
    s.slot < schedule.requested s.step :=
  hissues.slot.trans_le (schedule.issued_le s.step)

/-- The gap a specification has for a slot. -/
theorem Replays.gap (hreplays : schedule.Replays s) {gap : Float}
    (hgap : s.specification.gap? s.step s.slot = some gap) :
    (schedule.gaps s.step)[s.slot]? = some gap := by
  obtain ⟨gaps, hgaps, hslot⟩ := Option.bind_eq_some_iff.mp hgap
  rw [hreplays.trace] at hgaps
  simp [Schedule.gaps, hgaps, hslot]

theorem Completes.entries {time : Nat} (hcompletes : schedule.Completes s time issues) :
    issues = schedule.entries (schedule.before s + 1) := by
  rw [hcompletes.within.issues, entries_succ, List.take_of_length_le]
  rw [length_entriesOf, hcompletes.replays.step_eq, hcompletes.slot]

/-- When a driver is judged its step is complete. -/
theorem completes_of_judges {time : Nat} {point : Point}
    (hkeeps : schedule.Keeps stops time point s issues)
    (hjudges : Judges schedule.plan point s) : schedule.Completes s time issues := by
  rcases hjudges with rfl | ⟨rfl, hstep, hempty⟩
  · obtain ⟨hreplays, hwithin, hstep, hslot, -⟩ := hkeeps
    exact ⟨hreplays, hstep, hwithin, hslot⟩
  · obtain ⟨hreplays, hwithin, hplace⟩ := hkeeps
    have hnone : schedule.issued s.step = 0 :=
      Nat.eq_zero_of_le_zero ((schedule.issued_le s.step).trans hempty.le)
    refine ⟨hreplays, hstep, hwithin, hnone.symm ▸ ?_⟩
    rcases hplace with ⟨hslot, -⟩ | hissues
    · exact hslot
    · have hrequested := hissues.requested
      simp only [Schedule.requested, hempty] at hrequested
      omega

/-- After the end of a step the next step begins, or the replay is over. -/
theorem endStep_keeps {time : Nat} (hcompletes : schedule.Completes s time issues)
    (hstops : (∃ notices, checkStep schedule.plan counters s = .stopped notices) → stops s.step)
    {wasEmpty : Bool} {onward : Move}
    (hstart : (if wasEmpty then clock.now + schedule.plan.configuration.granularity.unitMs
      else clock.now) = schedule.begins (schedule.before s + 1))
    (honward : ∀ holds : Nat → Point → Prop,
      holds (schedule.begins (schedule.before s + 1)) .head → onward.Arrives clock holds) :
    (endStep schedule.plan clock counters s wasEmpty onward).move.Arrives clock
      fun time next => schedule.Keeps stops time next
        (endStep schedule.plan clock counters s wasEmpty onward).state issues := by
  have hreplays := hcompletes.replays
  have hstep := hcompletes.step
  have hissues := hcompletes.entries
  rcases endStep_cases schedule.plan clock counters s wasEmpty onward with
    ⟨_, _, -, hend⟩ | ⟨notices, hcheck, hend⟩ | ⟨_, _, -, hend⟩ <;> rw [hend]
  · trivial
  · intro _
    exact ⟨s.step, hstops ⟨notices, hcheck⟩, hreplays.from_first, hissues⟩
  · refine honward _ ?_
    rw [nextStep_state]
    have hbefore : s.step + 1 - schedule.firstStep = schedule.before s + 1 :=
      Nat.sub_add_comm hreplays.from_first
    refine ⟨⟨?_, hreplays.trace, hreplays.fits, hreplays.onward⟩, ⟨?_, rfl, ?_, ?_⟩, .inl ⟨rfl, ?_⟩⟩
    · exact hreplays.from_first.trans (Nat.le_succ _)
    · simp only [before, hbefore]
      exact hstart
    · simp only [before, hbefore, reach_zero, Nat.add_zero]
    · simp only [before, hbefore, List.take_zero, List.append_nil]
      exact hissues
    · simp only [before, steps]
      omega

/-- A driver sleeps until its next slot is due. -/
theorem wakeTime_waitFor {gaps : List Float} {slot : Nat} {gap : Int} {begin : Nat}
    (hnow : clock.now = begin + reach gaps slot) (hstart : s.stepStart = begin)
    (hnominal : s.nominal = nominal gaps slot)
    (hgap : nominal gaps (slot + 1) = nominal gaps slot + gap) :
    (0 < waitFor clock s gap →
      clock.wakeTime (waitFor clock s gap).toNat = begin + reach gaps (slot + 1)) ∧
    (¬0 < waitFor clock s gap → clock.now = begin + reach gaps (slot + 1)) := by
  have hreach := reach_succ gaps slot
  simp only [waitFor, Clock.wakeTime, ceilMs] at *
  rw [hnow, hstart, hnominal]
  omega

/-- At the head of its loop a driver goes on to the slot that is due next. -/
theorem head_keeps
    (hkeeps : schedule.Keeps stops clock.now .head s issues)
    (hstops : Judges schedule.plan .head s →
      (∃ notices, checkStep schedule.plan counters s = .stopped notices) → stops s.step) :
    (atHead schedule.plan clock counters s).move.Arrives clock
      fun time next => schedule.Keeps stops time next
        (atHead schedule.plan clock counters s).state issues := by
  have hjudged (hjudges : Judges schedule.plan .head s) := completes_of_judges hkeeps hjudges
  obtain ⟨hreplays, hwithin, hplace⟩ := hkeeps
  have hstepEq := hreplays.step_eq
  rcases atHead_cases schedule.plan clock counters s with
    ⟨hend, hturn⟩ | ⟨hstep, hempty, hturn⟩ | ⟨-, -, -, hturn⟩ | ⟨gap, hstep, hbusy, hgap, hturn⟩ <;>
    rw [hturn]
  · intro _
    rcases hplace with ⟨hslot, hbefore⟩ | hissues
    · have hall : schedule.before s = schedule.steps := by
        simp only [before, steps] at hbefore ⊢
        omega
      simp [Keeps, Over, hreplays.onward, hwithin.issues, hslot, hall]
    · exact absurd hissues.step (by omega)
  · have hcompletes := hjudged (.inr ⟨rfl, hstep, hempty⟩)
    have hslot : s.slot = 0 := by
      rw [hcompletes.slot]
      exact Nat.eq_zero_of_le_zero ((schedule.issued_le s.step).trans hempty.le)
    have hnext : clock.now + schedule.plan.configuration.granularity.unitMs =
        schedule.begins (schedule.before s + 1) := by
      rw [begins, hstepEq, duration, if_pos (show schedule.requested s.step = 0 from hempty),
        hwithin.time, hslot]
      rfl
    refine endStep_keeps hcompletes (hstops (.inr ⟨rfl, hstep, hempty⟩)) hnext
      fun holds hholds => ?_
    have hwake : clock.wakeTime (schedule.plan.configuration.granularity.unitMs * 1000) =
        schedule.begins (schedule.before s + 1) := by
      rw [← hnext, Clock.wakeTime]
      omega
    simpa only [Move.Arrives, hwake] using hholds
  · trivial
  · have hissues : schedule.Issues s := by
      rcases hplace with ⟨hslot, -⟩ | hissues
      · refine ⟨hstep, lt_issuedIn.mpr ?_⟩
        rw [hslot, reach_zero]
        exact ⟨Nat.pos_of_ne_zero hbusy, Nat.zero_le _⟩
      · exact hissues
    have hnominal := nominal_succ (hreplays.gap hgap)
    obtain ⟨hsleep, hproceed⟩ := wakeTime_waitFor hwithin.time hwithin.stepStart hwithin.nominal
      hnominal
    have hdue (time : Nat) (htime : time = schedule.begins (schedule.before s) +
        reach (schedule.gaps s.step) (s.slot + 1)) :
        schedule.Keeps stops time (.due (Binary64.toInt64Range gap)) s issues :=
      ⟨hreplays, ⟨hwithin.stepStart, hwithin.nominal, htime, hwithin.issues⟩, hissues,
        by rw [hnominal, hwithin.nominal]⟩
    dsimp only
    split
    · rename_i hwait
      exact hdue _ (hsleep hwait)
    · rename_i hwait
      exact hdue _ (hproceed hwait)

/-- The slot that has just been issued is the next of the schedule. -/
theorem issued_entry (hreplays : schedule.Replays s) (hissues : schedule.Issues s)
    (hwithin : schedule.Within s s.slot (s.slot + 1) clock.now issues) :
    issues ++ [(⟨s.step, s.slot, clock.now⟩ : Entry)] =
      schedule.entries (schedule.before s) ++
        (schedule.entriesOf (schedule.before s)).take (s.slot + 1) := by
  have hslot : s.slot < schedule.issued (schedule.firstStep + schedule.before s) := by
    rw [hreplays.step_eq]
    exact hissues.slot
  rw [hwithin.issues, List.take_add_one, entriesOf_getElem? schedule hslot, hreplays.step_eq,
    hwithin.time, List.append_assoc]
  rfl

/-- A slot that is due is issued at once, whatever the policy says of it. -/
theorem due_keeps {gap : Int} (hkeeps : schedule.Keeps stops clock.now (.due gap) s issues) :
    (turn schedule.plan clock counters (.due gap) s).move.Arrives clock
      fun time next => schedule.Keeps stops time next
        (turn schedule.plan clock counters (.due gap) s).state
        (issues ++ (turn schedule.plan clock counters (.due gap) s).issue.toList.map
          Issue.entry) := by
  obtain ⟨hreplays, hwithin, hissues, hnominal⟩ := hkeeps
  have hnext := issued_entry hreplays hissues hwithin
  rcases issueSlot_cases schedule.plan clock counters
      { s with nominal := s.nominal + gap, issued := s.issued + 1 } with
    ⟨_, _, hturn, -⟩ | ⟨_, _, _, hturn, -, hgaps, hfits⟩ | ⟨_, hturn⟩ <;> simp only [turn, hturn]
  · trivial
  · exact ⟨⟨hreplays.from_first, hgaps.trans hreplays.trace, hfits _ hreplays.fits, hreplays.onward⟩,
      ⟨hwithin.stepStart, hnominal.symm, hwithin.time, hnext⟩, ⟨hissues.step, hissues.slot⟩⟩
  · exact ⟨⟨hreplays.from_first, hreplays.trace, hreplays.fits, hreplays.onward⟩,
      ⟨hwithin.stepStart, hnominal.symm, hwithin.time, hnext⟩, ⟨hissues.step, hissues.slot⟩⟩

/-- After a slot comes the next one, or the end of the step. -/
theorem advance_keeps (counters : Counters)
    (hkeeps : schedule.Keeps stops clock.now .advance s issues) :
    (turn schedule.plan clock counters .advance s).move.Arrives clock
      fun time next => schedule.Keeps stops time next
        (turn schedule.plan clock counters .advance s).state issues := by
  obtain ⟨hreplays, hwithin, hissues⟩ := hkeeps
  have hlate : clock.now - s.stepStart = reach (schedule.gaps s.step) (s.slot + 1) := by
    rw [hwithin.time, hwithin.stepStart, Nat.add_sub_cancel_left]
  have hreplaysNext : schedule.Replays { s with slot := s.slot + 1 } :=
    ⟨hreplays.from_first, hreplays.trace, hreplays.fits, hreplays.onward⟩
  have hwithinNext : schedule.Within { s with slot := s.slot + 1 } (s.slot + 1) (s.slot + 1)
      clock.now issues :=
    ⟨hwithin.stepStart, hwithin.nominal, hwithin.time, hwithin.issues⟩
  simp only [turn, stepOver, hlate]
  split
  · rename_i hover
    simp only [Bool.or_eq_true, decide_eq_true_eq] at hover
    refine ⟨hreplaysNext, hwithinNext, hissues.step, ?_, ?_⟩
    · exact (issuedIn_eq_succ hissues.slot hover).symm
    · exact Nat.ne_of_gt (Nat.zero_lt_of_lt hissues.requested)
  · rename_i hover
    simp only [Bool.or_eq_true, decide_eq_true_eq, not_or, Nat.not_lt] at hover
    have hmore := hissues.requested
    refine ⟨hreplaysNext, hwithinNext, .inr ⟨hissues.step, lt_issuedIn.mpr ⟨?_, hover.2⟩⟩⟩
    simp only [Schedule.requested] at hmore hover ⊢
    omega

/-- The check comes when all slots of the step are issued. -/
theorem check_keeps (hkeeps : schedule.Keeps stops clock.now .check s issues)
    (hstops : (∃ notices, checkStep schedule.plan counters s = .stopped notices) →
      stops s.step) :
    (turn schedule.plan clock counters .check s).move.Arrives clock
      fun time next => schedule.Keeps stops time next
        (turn schedule.plan clock counters .check s).state issues := by
  have hcompletes := completes_of_judges hkeeps (.inl rfl)
  obtain ⟨hreplays, hwithin, hstep, hslot, hbusy⟩ := hkeeps
  have hnow : clock.now = schedule.begins (schedule.before s + 1) := by
    rw [begins, hreplays.step_eq, duration, if_neg hbusy, hwithin.time, hslot]
  refine endStep_keeps hcompletes hstops hnow fun holds hholds => ?_
  simpa only [Move.Arrives, hnow] using hholds

/-- One turn keeps a driver to its schedule. -/
theorem keeps_turn (counters : Counters) {point : Point}
    (hkeeps : schedule.Keeps stops clock.now point s issues)
    (hstops : Judges schedule.plan point s →
      (∃ notices, checkStep schedule.plan counters s = .stopped notices) → stops s.step) :
    (turn schedule.plan clock counters point s).move.Arrives clock
      fun time next => schedule.Keeps stops time next
        (turn schedule.plan clock counters point s).state
        (issues ++ (turn schedule.plan clock counters point s).issue.toList.map
          Issue.entry) := by
  cases point with
  | head =>
    have hnone : (turn schedule.plan clock counters .head s).issue = none := by
      rcases atHead_cases schedule.plan clock counters s with
        ⟨-, hturn⟩ | ⟨-, -, hturn⟩ | ⟨-, -, -, hturn⟩ | ⟨_, -, -, -, hturn⟩ <;>
        simp only [turn, hturn, endStep_issue]
    rw [hnone, Option.toList_none, List.map_nil, List.append_nil]
    exact head_keeps hkeeps hstops
  | due gap => exact due_keeps hkeeps
  | stored =>
    simp only [turn, Option.toList_none, List.map_nil, List.append_nil]
    exact hkeeps
  | advance =>
    simp only [turn, Option.toList_none, List.map_nil, List.append_nil]
    exact advance_keeps counters hkeeps
  | check =>
    have hnone : (turn schedule.plan clock counters .check s).issue = none := endStep_issue _ _
    rw [hnone, Option.toList_none, List.map_nil, List.append_nil]
    exact check_keeps hkeeps (hstops (.inl rfl))
  | drained => trivial

/-- A driver that is about to start keeps to its schedule. -/
theorem keeps_begin (plan : Plan) (specification : Specification) (clock : Clock)
    (hfits : specification.Fits plan.function) (stops : Nat → Prop) :
    Schedule.Keeps ⟨plan, specification.gaps, clock.now⟩ stops clock.now .head
      (Driver.begin plan specification clock) [] := by
  have hsame (step : Nat) (phase : Phase)
      (hstep : Schedule.firstStep ⟨plan, specification.gaps, clock.now⟩ = step) :
      Schedule.Keeps ⟨plan, specification.gaps, clock.now⟩ stops clock.now .head
        { step := step, phase := phase, stepStart := clock.now, specification := specification }
        [] := by
    subst hstep
    refine ⟨⟨le_rfl, rfl, hfits, rfl⟩, ⟨?_, rfl, ?_, ?_⟩, .inl ⟨rfl, ?_⟩⟩ <;>
      simp [before, begins]
  unfold Driver.begin
  split
  · rename_i hwarmup
    exact hsame 1 .warmup (if_pos hwarmup)
  · rename_i hcold
    exact hsame 0 .execution (if_neg hcold)

/-! ## Nothing goes wrong -/

/-- A driver that keeps to its schedule finds what it looks up, if no more has failed than
was requested. -/
theorem keeps_safe {point : Point} (hkeeps : schedule.Keeps stops clock.now point s issues)
    (hfailed : ∀ step, counters.failedAt step ≤ schedule.requested step) :
    Safe schedule.plan counters point s where
  gap hpoint _ hbusy := by
    subst hpoint
    obtain ⟨hreplays, -, hplace⟩ := hkeeps
    refine hreplays.fits.gap s.step s.slot ?_
    rcases hplace with ⟨hslot, -⟩ | hissues
    · exact hslot ▸ Nat.pos_of_ne_zero hbusy
    · exact hissues.requested
  slot gap hpoint := by
    subst hpoint
    obtain ⟨hreplays, -, hissues, -⟩ := hkeeps
    exact hreplays.fits.slot s.step s.slot hissues.requested
  check hjudges notices error hbroken := by
    have hcompletes := completes_of_judges hkeeps hjudges
    have hissued : s.slot ≤ schedule.plan.function.invocationsAt s.step :=
      hcompletes.slot.trans_le (schedule.issued_le s.step)
    rcases checkStep_cases hissued fun step _ => hfailed step with
      ⟨-, _, hstopped⟩ | ⟨-, _, hpassed⟩
    · simp [hstopped] at hbroken
    · simp [hpassed] at hbroken

/-- A driver that keeps to its schedule does not fail, if its policy has a verdict on
every slot and no more has failed than was requested. -/
theorem keeps_goesOn {point : Point} (hkeeps : schedule.Keeps stops clock.now point s issues)
    (hpolicy : schedule.plan.Decides)
    (hfailed : ∀ step, counters.failedAt step ≤ schedule.requested step) (error : ReplayError) :
    (turn schedule.plan clock counters point s).move ≠ .fail error :=
  (keeps_safe hkeeps hfailed).goesOn hpolicy error

/-! ## No more than requested -/

theorem step_of_mem_entriesOf {count : Nat} {entry : Entry}
    (hmem : entry ∈ schedule.entriesOf count) : entry.step = schedule.firstStep + count := by
  obtain ⟨slot, -, rfl⟩ := List.mem_map.mp hmem
  rfl

/-- A step is replayed once. -/
theorem countP_entries (count step : Nat) :
    (schedule.entries count).countP (·.step = step) =
      if schedule.firstStep ≤ step ∧ step < schedule.firstStep + count then schedule.issued step
      else 0 := by
  induction count with
  | zero => simp
  | succ count ih =>
    rw [entries_succ, List.countP_append, ih]
    by_cases heq : schedule.firstStep + count = step
    · have hall : (schedule.entriesOf count).countP (·.step = step) = schedule.issued step := by
        rw [List.countP_eq_length.mpr fun entry hmem => by
          simp [step_of_mem_entriesOf hmem, heq], length_entriesOf, heq]
      rw [hall, if_neg (by omega), if_pos (by omega), Nat.zero_add]
    · have hnone : (schedule.entriesOf count).countP (·.step = step) = 0 :=
        List.countP_eq_zero.mpr fun entry hmem => by simp [step_of_mem_entriesOf hmem, heq]
      rw [hnone, Nat.add_zero]
      congr 1
      apply propext
      omega

/-- Of no step more slots are issued than the schedule has. -/
theorem countP_entries_le (count step : Nat) :
    (schedule.entries count).countP (·.step = step) ≤ schedule.requested step := by
  rw [countP_entries]
  split
  · exact schedule.issued_le step
  · exact Nat.zero_le _

/-- A driver that keeps to its schedule has issued no more than was requested. -/
theorem keeps_countP_le {time : Nat} {point : Point}
    (hkeeps : schedule.Keeps stops time point s issues) (step : Nat) :
    issues.countP (·.step = step) ≤ schedule.requested step := by
  have hwithin {slots due : Nat} (hwithin : schedule.Within s slots due time issues) :
      issues.countP (·.step = step) ≤ schedule.requested step := by
    refine le_trans ?_ (countP_entries_le (schedule.before s + 1) step)
    rw [hwithin.issues, entries_succ]
    exact List.Sublist.countP_le ((List.take_sublist _ _).append_left _)
  cases point with
  | head => exact hwithin hkeeps.2.1
  | due gap => exact hwithin hkeeps.2.1
  | stored => exact hwithin hkeeps.2.1
  | advance => exact hwithin hkeeps.2.1
  | check => exact hwithin hkeeps.2.1
  | drained =>
    simp only [Keeps, Over] at hkeeps
    split at hkeeps
    · obtain ⟨_, -, -, rfl⟩ := hkeeps
      exact countP_entries_le _ _
    · subst hkeeps
      exact countP_entries_le _ _

end Schedule

end TraceReplay.Driver
