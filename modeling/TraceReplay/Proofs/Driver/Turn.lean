import TraceReplay.Driver
import TraceReplay.Proofs.Specification.Fits

/-!
# Turns of a driver

What a turn of a driver can be, point by point.  Only this file opens the
definitions of the automaton; what it leaves of the state untouched is said here
once.
-/

namespace TraceReplay.Driver

variable {plan : Plan} {clock : Clock} {counters : Counters} {s : State}

/-! ## The next step -/

/-- What the next step begins with. -/
theorem nextStep_state (plan : Plan) (clock : Clock) (s : State) (wasEmpty : Bool) :
    (nextStep plan clock s wasEmpty).1 =
      { s with
        step := s.step + 1, slot := 0, nominal := 0
        stepStart :=
          if wasEmpty then clock.now + plan.configuration.granularity.unitMs else clock.now
        phase :=
          if plan.configuration.withWarmup ∧
              s.step + 1 = plan.configuration.loader.warmupDuration + 1 then .execution
          else s.phase } := by
  simp only [nextStep]
  split <;> rfl

/-! ## The end of a step -/

/-- A step ends in one of three ways. -/
theorem endStep_cases (plan : Plan) (clock : Clock) (counters : Counters) (s : State)
    (wasEmpty : Bool) (onward : Move) :
    (∃ notices error, checkStep plan counters s = .broken notices error ∧
      endStep plan clock counters s wasEmpty onward =
        { state := s, counters := counters, notices := notices, move := .fail error }) ∨
    (∃ notices, checkStep plan counters s = .stopped notices ∧
      endStep plan clock counters s wasEmpty onward =
        { state := { s with stoppedEarly := true }, counters := counters, notices := notices
          move := .await .drained }) ∨
    (∃ notices more, checkStep plan counters s = .passed notices ∧
      endStep plan clock counters s wasEmpty onward =
        { state := (nextStep plan clock s wasEmpty).1, counters := counters
          notices := notices ++ more, move := onward }) := by
  unfold endStep
  cases hcheck : checkStep plan counters s with
  | broken notices error => exact .inl ⟨notices, error, rfl, rfl⟩
  | stopped notices => exact .inr (.inl ⟨notices, rfl, rfl⟩)
  | passed notices => exact .inr (.inr ⟨notices, _, rfl, rfl⟩)

@[simp]
theorem endStep_counters (wasEmpty : Bool) (onward : Move) :
    (endStep plan clock counters s wasEmpty onward).counters = counters := by
  unfold endStep
  split <;> rfl

@[simp]
theorem endStep_issue (wasEmpty : Bool) (onward : Move) :
    (endStep plan clock counters s wasEmpty onward).issue = none := by
  unfold endStep
  split <;> rfl

@[simp]
theorem endStep_specification (wasEmpty : Bool) (onward : Move) :
    (endStep plan clock counters s wasEmpty onward).state.specification = s.specification := by
  rcases endStep_cases plan clock counters s wasEmpty onward with
    ⟨_, _, -, hturn⟩ | ⟨_, -, hturn⟩ | ⟨_, _, -, hturn⟩ <;> rw [hturn]
  rw [nextStep_state]

/-! ## The head of the loop -/

/-- Everything a driver can do at the head of its loop. -/
theorem atHead_cases (plan : Plan) (clock : Clock) (counters : Counters) (s : State) :
    (plan.configuration.traceDuration ≤ s.step ∧
      atHead plan clock counters s =
        { state := s, counters := counters, move := .await .drained }) ∨
    (s.step < plan.configuration.traceDuration ∧ plan.function.invocationsAt s.step = 0 ∧
      atHead plan clock counters s = endStep plan clock counters s true
        (.sleep (plan.configuration.granularity.unitMs * 1000) .head)) ∨
    (s.step < plan.configuration.traceDuration ∧ plan.function.invocationsAt s.step ≠ 0 ∧
      s.specification.gap? s.step s.slot = none ∧
      atHead plan clock counters s =
        { state := s, counters := counters, move := .fail (missingSlot plan s) }) ∨
    (∃ gap, s.step < plan.configuration.traceDuration ∧
      plan.function.invocationsAt s.step ≠ 0 ∧ s.specification.gap? s.step s.slot = some gap ∧
      atHead plan clock counters s =
        { state := s, counters := counters
          move := if 0 < waitFor clock s (Binary64.toInt64Range gap) then
              .sleep (waitFor clock s (Binary64.toInt64Range gap)).toNat
                (.due (Binary64.toInt64Range gap))
            else .proceed (.due (Binary64.toInt64Range gap)) }) := by
  unfold atHead
  by_cases hstep : plan.configuration.traceDuration ≤ s.step
  · exact .inl ⟨hstep, by simp [hstep]⟩
  by_cases hempty : plan.function.invocationsAt s.step = 0
  · exact .inr (.inl ⟨by omega, hempty, by simp [hstep, hempty]⟩)
  cases hgap : s.specification.gap? s.step s.slot with
  | none => exact .inr (.inr (.inl ⟨by omega, hempty, rfl, by simp [hstep, hempty]⟩))
  | some gap => exact .inr (.inr (.inr ⟨gap, by omega, hempty, rfl, by simp [hstep, hempty]⟩))

/-! ## A slot that is due -/

/-- What goes to the invoker when a slot is fired. -/
structure Fires (plan : Plan) (s : State) (dispatch : Dispatch) : Prop where
  siblings : dispatch.siblings = plan.siblings
  invocationId : dispatch.invocationId = currentId plan s
  step : dispatch.step = s.step
  phase : dispatch.phase = s.phase

/-- Everything that can happen to a due slot: the driver fails, the slot is fired, or
its records are made up. -/
theorem issueSlot_cases (plan : Plan) (clock : Clock) (counters : Counters) (s : State) :
    (∃ notices error, issueSlot plan clock counters s =
        { state := s, counters := counters, notices := notices, move := .fail error } ∧
      ((∃ message, (plan.policy.resolve ⟨plan.function, plan.siblings, s.issued⟩).verdict =
          .panic message ∧ error = .panicked message) ∨
        (s.specification.slot? s.step s.slot = none ∧ error = missingSlot plan s))) ∨
    (∃ notices specification dispatch, issueSlot plan clock counters s =
        { state := { s with specification := specification }, counters := counters
          notices := notices, issue := some (issueOf plan clock s (some dispatch))
          move := .launch dispatch .advance } ∧
      Fires plan s dispatch ∧ specification.gaps = s.specification.gaps ∧
      ∀ f, s.specification.Fits f → specification.Fits f) ∨
    (∃ notices, issueSlot plan clock counters s =
        { state := s, counters := counters, notices := notices
          issue := some (issueOf plan clock s none)
          move := .deliver (.synthesized plan.function (currentId plan s) s.phase clock) .stored })
    := by
  unfold issueSlot
  simp only
  cases hverdict : (plan.policy.resolve ⟨plan.function, plan.siblings, s.issued⟩).verdict with
  | panic message => exact .inl ⟨_, _, rfl, .inl ⟨message, rfl, rfl⟩⟩
  | skip => exact .inr (.inr ⟨_, rfl⟩)
  | fire target sibling =>
    by_cases htest : plan.configuration.testMode
    · simp only [htest, if_true]
      exact .inr (.inr ⟨_, rfl⟩)
    · simp only [htest, Bool.false_eq_true, if_false]
      unfold fire
      cases hslot : s.specification.slot? s.step s.slot with
      | none => exact .inl ⟨_, _, rfl, .inr ⟨rfl, rfl⟩⟩
      | some slot =>
        refine .inr (.inl ⟨_, _, _, rfl, ⟨rfl, rfl, rfl, rfl⟩, ?_, ?_⟩)
        · split <;> rfl
        · intro f hfits
          split
          · exact hfits.attach _ _ _
          · exact hfits

/-! ## What a slot is issued as -/

/-- How a slot goes to the invoker, unless nothing is invoked for it: `requested` is what
its specification asks for and `number` its place among all that are issued. -/
def Plan.dispatch (plan : Plan) (phase : Phase) (requested : Option RuntimeSpecification)
    (step slot number : Nat) : Option Dispatch :=
  match (plan.policy.resolve ⟨plan.function, plan.siblings, number⟩).verdict with
  | .fire target _ =>
    if plan.configuration.testMode then none
    else requested.map fun found => {
      target := target
      siblings := plan.siblings
      specification :=
        match modeStats plan.function number with
        | some stats => { found with stats := some stats }
        | none => found
      invocationId := invocationId plan.function.name plan.configuration.granularity step slot
      step := step
      phase := phase }
  | .skip => none
  | .panic _ => none

/-- What a due slot is issued as. -/
theorem issueSlot_issue (plan : Plan) (clock : Clock) (counters : Counters) (s : State)
    {issue : Issue} (hissue : (issueSlot plan clock counters s).issue = some issue) :
    issue = issueOf plan clock s (plan.dispatch s.phase (s.specification.slot? s.step s.slot)
      s.step s.slot s.issued) := by
  unfold issueSlot at hissue
  unfold Plan.dispatch
  simp only at hissue
  cases hverdict : (plan.policy.resolve ⟨plan.function, plan.siblings, s.issued⟩).verdict with
  | panic message => simp [hverdict] at hissue
  | skip =>
    rw [hverdict] at hissue
    exact (Option.some.inj hissue).symm
  | fire target sibling =>
    simp only [hverdict] at hissue ⊢
    by_cases htest : plan.configuration.testMode
    · rw [if_pos htest] at hissue ⊢
      exact (Option.some.inj hissue).symm
    · rw [if_neg htest] at hissue ⊢
      unfold fire at hissue
      cases hslot : s.specification.slot? s.step s.slot with
      | none => simp [hslot] at hissue
      | some found =>
        simp only [hslot, Option.some.injEq] at hissue
        rw [← hissue]
        cases modeStats plan.function s.issued <;> rfl

/-- Only the slot that is issued is given statistics. -/
theorem issueSlot_slot? (plan : Plan) (clock : Clock) (counters : Counters) (s : State)
    {step slot : Nat} (hother : ¬(step = s.step ∧ slot = s.slot)) :
    (issueSlot plan clock counters s).state.specification.slot? step slot =
      s.specification.slot? step slot := by
  unfold issueSlot
  simp only
  split
  · rfl
  · split
    · rfl
    · unfold fire
      split
      · rfl
      · simp only
        split
        · exact Specification.slot?_attach_other _ _ hother
        · rfl
  · rfl

/-! ## Moves -/

/-- Where a driver goes on after a move.  It sleeps for some time and only before a
slot or at the head of its loop, lets others go first only before a check, waits for its
invocations only at its end, and finishes only after that. -/
def Move.Leads (point : Point) : Move → Prop
  | .proceed next => next = .head ∨ next = .advance ∨ ∃ gap, next = .due gap
  | .sleep micros next => 0 < micros ∧ (next = .head ∨ ∃ gap, next = .due gap)
  | .yield next => next = .check
  | .deliver _ next => next = .stored
  | .launch _ next => next = .advance
  | .await next => next = .drained
  | .finish _ => point = .drained
  | .fail _ => True

theorem endStep_leads (plan : Plan) (clock : Clock) (counters : Counters) (s : State)
    (wasEmpty : Bool) {onward : Move} {point : Point} (honward : onward.Leads point) :
    (endStep plan clock counters s wasEmpty onward).move.Leads point := by
  rcases endStep_cases plan clock counters s wasEmpty onward with
    ⟨_, _, -, hend⟩ | ⟨_, -, hend⟩ | ⟨_, _, -, hend⟩ <;> rw [hend]
  · trivial
  · rfl
  · exact honward

theorem atHead_leads (plan : Plan) (clock : Clock) (counters : Counters) (s : State)
    (point : Point) : (atHead plan clock counters s).move.Leads point := by
  rcases atHead_cases plan clock counters s with
    ⟨-, hturn⟩ | ⟨-, -, hturn⟩ | ⟨-, -, -, hturn⟩ | ⟨gap, -, -, -, hturn⟩ <;> rw [hturn]
  · rfl
  · refine endStep_leads plan clock counters s true ⟨?_, .inl rfl⟩
    cases plan.configuration.granularity <;> simp [Granularity.unitMs]
  · trivial
  · dsimp only
    split
    · rename_i hwait
      exact ⟨by omega, .inr ⟨_, rfl⟩⟩
    · exact .inr (.inr ⟨_, rfl⟩)

theorem issueSlot_leads (plan : Plan) (clock : Clock) (counters : Counters) (s : State)
    (point : Point) : (issueSlot plan clock counters s).move.Leads point := by
  rcases issueSlot_cases plan clock counters s with
    ⟨_, _, hturn, -⟩ | ⟨_, _, _, hturn, -⟩ | ⟨_, hturn⟩ <;> rw [hturn]
  · trivial
  · rfl
  · rfl

theorem turn_leads (plan : Plan) (clock : Clock) (counters : Counters) (point : Point)
    (s : State) : (turn plan clock counters point s).move.Leads point := by
  cases point with
  | head => exact atHead_leads plan clock counters s _
  | due gap => exact issueSlot_leads plan clock counters _ _
  | stored => exact .inr (.inl rfl)
  | advance =>
    simp only [turn]
    split
    · rfl
    · exact .inl rfl
  | check => exact endStep_leads plan clock counters s false (.inl rfl)
  | drained => rfl

/-! ## What a turn counts -/

theorem endStep_issued (plan : Plan) (clock : Clock) (counters : Counters) (s : State)
    (wasEmpty : Bool) (onward : Move) :
    (endStep plan clock counters s wasEmpty onward).state.issued = s.issued := by
  rcases endStep_cases plan clock counters s wasEmpty onward with
    ⟨_, _, -, hend⟩ | ⟨_, -, hend⟩ | ⟨_, _, -, hend⟩ <;> rw [hend]
  rw [nextStep_state]

/-- A driver that goes on has counted what it has issued. -/
theorem turn_issued (plan : Plan) (clock : Clock) (counters : Counters) (point : Point)
    (s : State) :
    (∃ error, (turn plan clock counters point s).move = .fail error) ∨
      (turn plan clock counters point s).state.issued =
        s.issued + (turn plan clock counters point s).issue.toList.length := by
  cases point with
  | head =>
    right
    rcases atHead_cases plan clock counters s with
      ⟨-, hturn⟩ | ⟨-, -, hturn⟩ | ⟨-, -, -, hturn⟩ | ⟨gap, -, -, -, hturn⟩ <;>
      simp only [turn, hturn, Option.toList_none, List.length_nil, Nat.add_zero]
    rw [endStep_issued, endStep_issue]
    rfl
  | due gap =>
    rcases issueSlot_cases plan clock counters
        { s with nominal := s.nominal + gap, issued := s.issued + 1 } with
      ⟨_, error, hturn, -⟩ | ⟨_, _, _, hturn, -⟩ | ⟨_, hturn⟩ <;> simp only [turn, hturn]
    · exact .inl ⟨error, rfl⟩
    · exact .inr rfl
    · exact .inr rfl
  | stored => exact .inr rfl
  | advance => exact .inr rfl
  | check =>
    right
    simp only [turn]
    rw [endStep_issued, endStep_issue]
    rfl
  | drained => exact .inr rfl

/-- A driver finishes only when none of its invocations is in flight, and reports what
has been counted. -/
theorem turn_finish {point : Point} {r : Report}
    (hmove : (turn plan clock counters point s).move = .finish r) :
    point = .drained ∧ r = report plan counters s := by
  obtain rfl : point = .drained := by
    have hleads := turn_leads plan clock counters point s
    rwa [hmove] at hleads
  exact ⟨rfl, (Move.finish.inj hmove).symm⟩

/-! ## What a turn issues -/

/-- A turn issues a slot and launches it, issues it and makes its records up, or issues
nothing. -/
theorem turn_issue_cases (plan : Plan) (clock : Clock) (counters : Counters) (point : Point)
    (s : State) :
    ((turn plan clock counters point s).issue = none ∧
      (∀ dispatch next, (turn plan clock counters point s).move ≠ .launch dispatch next) ∧
      ∀ pair next, (turn plan clock counters point s).move ≠ .deliver pair next) ∨
    (∃ due dispatch,
      (turn plan clock counters point s).issue = some (issueOf plan clock due (some dispatch)) ∧
      (turn plan clock counters point s).move = .launch dispatch .advance ∧
      Fires plan due dispatch) ∨
    (∃ due, (turn plan clock counters point s).issue = some (issueOf plan clock due none) ∧
      (turn plan clock counters point s).move =
        .deliver (.synthesized plan.function (currentId plan due) due.phase clock) .stored) := by
  have hend (wasEmpty : Bool) {onward : Move} (honward : ∀ dispatch next, onward ≠ .launch dispatch next)
      (hsilent : ∀ pair next, onward ≠ .deliver pair next) :
      (endStep plan clock counters s wasEmpty onward).issue = none ∧
        (∀ dispatch next,
          (endStep plan clock counters s wasEmpty onward).move ≠ .launch dispatch next) ∧
        ∀ pair next, (endStep plan clock counters s wasEmpty onward).move ≠ .deliver pair next := by
    refine ⟨endStep_issue _ _, ?_⟩
    rcases endStep_cases plan clock counters s wasEmpty onward with
      ⟨_, _, -, hturn⟩ | ⟨_, -, hturn⟩ | ⟨_, _, -, hturn⟩ <;> rw [hturn]
    · simp
    · simp
    · exact ⟨honward, hsilent⟩
  cases point with
  | head =>
    left
    rcases atHead_cases plan clock counters s with
      ⟨-, hturn⟩ | ⟨-, -, hturn⟩ | ⟨-, -, -, hturn⟩ | ⟨gap, -, -, -, hturn⟩ <;>
      simp only [turn, hturn]
    · simp
    · exact hend true (by simp) (by simp)
    · simp
    · split <;> simp
  | due gap =>
    rcases issueSlot_cases plan clock counters
        { s with nominal := s.nominal + gap, issued := s.issued + 1 } with
      ⟨_, _, hturn, -⟩ | ⟨_, _, dispatch, hturn, hfires, -⟩ | ⟨_, hturn⟩ <;>
      simp only [turn, hturn]
    · simp
    · exact .inr (.inl ⟨_, dispatch, rfl, rfl, hfires⟩)
    · exact .inr (.inr ⟨_, rfl, rfl⟩)
  | stored => exact .inl ⟨rfl, by simp [turn], by simp [turn]⟩
  | advance =>
    left
    simp only [turn]
    split <;> simp
  | check => exact .inl (hend false (by simp) (by simp))
  | drained => exact .inl ⟨rfl, by simp [turn], by simp [turn]⟩

/-- Only a slot that is due is issued. -/
theorem due_of_turn_issue {point : Point} {issue : Issue}
    (hissue : (turn plan clock counters point s).issue = some issue) :
    ∃ gap, point = .due gap ∧ (issueSlot plan clock counters
      { s with nominal := s.nominal + gap, issued := s.issued + 1 }).issue = some issue := by
  cases point with
  | due gap => exact ⟨gap, rfl, hissue⟩
  | head =>
    rcases atHead_cases plan clock counters s with
      ⟨-, hturn⟩ | ⟨-, -, hturn⟩ | ⟨-, -, -, hturn⟩ | ⟨gap, -, -, -, hturn⟩ <;>
      simp [turn, hturn] at hissue
  | check => simp [turn] at hissue
  | stored | advance | drained => simp [turn] at hissue

/-- Records that are made up are those of the slot that is issued with them. -/
theorem issue_of_deliver {point next : Point} {pair : RecordPair}
    (hmove : (turn plan clock counters point s).move = .deliver pair next) :
    ∃ due, due.step = s.step ∧ due.phase = s.phase ∧
      (turn plan clock counters point s).issue = some (issueOf plan clock due none) ∧
      pair = .synthesized plan.function (currentId plan due) due.phase clock := by
  obtain ⟨issue, hissue⟩ : ∃ issue, (turn plan clock counters point s).issue = some issue := by
    rcases turn_issue_cases plan clock counters point s with
      ⟨-, -, hdeliver⟩ | ⟨_, _, hissue, -⟩ | ⟨_, hissue, -⟩
    · exact absurd hmove (hdeliver _ _)
    · exact ⟨_, hissue⟩
    · exact ⟨_, hissue⟩
  obtain ⟨gap, rfl, -⟩ := due_of_turn_issue hissue
  rcases issueSlot_cases plan clock counters
      { s with nominal := s.nominal + gap, issued := s.issued + 1 } with
    ⟨_, _, hturn, -⟩ | ⟨_, _, _, hturn, -⟩ | ⟨_, hturn⟩ <;> simp only [turn, hturn] at hmove ⊢
  · exact absurd hmove (by simp)
  · exact absurd hmove (by simp)
  · obtain ⟨rfl, -⟩ := Move.deliver.inj hmove
    exact ⟨{ s with nominal := s.nominal + gap, issued := s.issued + 1 }, rfl, rfl, rfl, rfl⟩

theorem turn_issue_time (plan : Plan) (clock : Clock) (counters : Counters) (point : Point)
    (s : State) (issue : Issue) (hissue : (turn plan clock counters point s).issue = some issue) :
    issue.time = clock.now := by
  rcases turn_issue_cases plan clock counters point s with
    ⟨hnone, -⟩ | ⟨due, dispatch, hsome, -⟩ | ⟨due, hsome, -⟩
  · exact absurd (hnone.symm.trans hissue) (by simp)
  · obtain rfl := Option.some.inj (hsome.symm.trans hissue)
    rfl
  · obtain rfl := Option.some.inj (hsome.symm.trans hissue)
    rfl

/-- The driver counts the slots whose records it made up, once they are delivered. -/
theorem turn_counters (plan : Plan) (clock : Clock) (counters : Counters) {point : Point}
    (s : State) (hpoint : point ≠ .stored) :
    (turn plan clock counters point s).counters = counters := by
  cases point with
  | head =>
    rcases atHead_cases plan clock counters s with
      ⟨-, hturn⟩ | ⟨-, -, hturn⟩ | ⟨-, -, -, hturn⟩ | ⟨gap, -, -, -, hturn⟩ <;>
      simp only [turn, hturn, endStep_counters]
  | due gap =>
    rcases issueSlot_cases plan clock counters
        { s with nominal := s.nominal + gap, issued := s.issued + 1 } with
      ⟨_, _, hturn, -⟩ | ⟨_, _, _, hturn, -⟩ | ⟨_, hturn⟩ <;> simp only [turn, hturn]
  | stored => exact absurd rfl hpoint
  | advance => rfl
  | check => simp only [turn, endStep_counters]
  | drained => rfl

/-- Failures are counted by invocations, not by the driver. -/
theorem turn_failedByStep (plan : Plan) (clock : Clock) (counters : Counters) (point : Point)
    (s : State) :
    (turn plan clock counters point s).counters.failedByStep = counters.failedByStep := by
  by_cases hpoint : point = .stored
  · subst hpoint
    rfl
  · rw [turn_counters plan clock counters s hpoint]

end TraceReplay.Driver
