import TraceReplay.Proofs.Driver.Course

/-!
# The effort of a driver

How many turns a driver and its invocations can still take at most, counted in such a
way that every turn makes it less.  Each step and each slot of the trace costs a fixed
number of turns, so a replay is over after a number of turns that is known beforehand.
-/

namespace TraceReplay.Driver

/-! ## Costs of tasks -/

/-- Turns of an invocation, from its start to its end. -/
def attemptCost : Nat := 14

/-- Turns that both records of a slot take on their way to the collector. -/
def deliveryCost : Nat := 6

/-- Turns a slot costs, from the head of the loop to the next slot. -/
def slotCost : Nat := 20

namespace Plan

/-- Turns from the start of a step to the end of the replay. -/
def cost (plan : Plan) (step : Nat) : Nat :=
  3 + ∑ m ∈ Finset.Ico step plan.configuration.traceDuration,
    (2 + slotCost * plan.function.invocationsAt m)

theorem cost_end {plan : Plan} {step : Nat} (hend : plan.configuration.traceDuration ≤ step) :
    plan.cost step = 3 := by
  simp [cost, Finset.Ico_eq_empty_of_le hend]

theorem cost_step {plan : Plan} {step : Nat} (hstep : step < plan.configuration.traceDuration) :
    plan.cost step = plan.cost (step + 1) + 2 + slotCost * plan.function.invocationsAt step := by
  rw [cost, cost, Finset.sum_eq_sum_Ico_succ_bot hstep]
  omega

theorem three_le_cost (plan : Plan) (step : Nat) : 3 ≤ plan.cost step := Nat.le_add_right _ _

/-- Slots of the step after the one a driver is at. -/
def after (plan : Plan) (s : State) : Nat := plan.function.invocationsAt s.step - (s.slot + 1)

/-- Turns that a driver and the invocations it starts can still take. -/
def effort (plan : Plan) (point : Point) (s : State) : Nat :=
  match point with
  | .head =>
    if plan.configuration.traceDuration ≤ s.step then 3
    else plan.cost (s.step + 1) + 2
      + slotCost * (plan.function.invocationsAt s.step - s.slot)
  | .due _ => plan.cost (s.step + 1) + slotCost * plan.after s + 18
  | .stored => plan.cost (s.step + 1) + slotCost * plan.after s + 4
  | .advance => plan.cost (s.step + 1) + slotCost * plan.after s + 3
  | .check => plan.cost (s.step + 1) + 1
  | .drained => 1

end Plan

/-- The slot a driver is at is one of its step. -/
def InStep (plan : Plan) (point : Point) (s : State) : Prop :=
  match point with
  | .head => s.slot = 0 ∨ s.slot < plan.function.invocationsAt s.step
  | .due _ => s.slot < plan.function.invocationsAt s.step
  | .stored => s.slot < plan.function.invocationsAt s.step
  | .advance => s.slot < plan.function.invocationsAt s.step
  | .check => True
  | .drained => True

/-- Turns that follow a move: those of the driver, given where it goes on, and those of
what it sets off.  A driver that waits takes a turn more. -/
def Move.effort (driver : Point → Nat) : Move → Nat
  | .proceed next => driver next
  | .sleep _ next => driver next + 1
  | .yield next => driver next + 1
  | .deliver _ next => driver next + deliveryCost
  | .launch _ next => driver next + attemptCost
  | .await next => driver next + 1
  | .finish _ => 0
  | .fail _ => 0

variable {plan : Plan} {clock : Clock} {counters : Counters} {s : State}

/-- The next step begins with its first slot. -/
theorem effort_head {step : Nat} (hstep : s.step = step) (hslot : s.slot = 0) :
    plan.effort .head s = plan.cost step := by
  subst hstep
  simp only [Plan.effort, hslot, Nat.sub_zero]
  split
  · rename_i hend
    rw [Plan.cost_end hend]
  · rename_i hstep
    rw [Plan.cost_step (Nat.lt_of_not_le hstep)]

theorem endStep_effort (wasEmpty : Bool) {onward : Move} {effort : Nat}
    (hstop : 3 ≤ effort)
    (honward : ∀ next : State, next.step = s.step + 1 → next.slot = 0 →
      onward.effort (plan.effort · next) < effort ∧
        onward.Arrives clock fun _ point => InStep plan point next) :
    (endStep plan clock counters s wasEmpty onward).move.effort
        (plan.effort · (endStep plan clock counters s wasEmpty onward).state) < effort ∧
      (endStep plan clock counters s wasEmpty onward).move.Arrives clock fun _ point =>
        InStep plan point (endStep plan clock counters s wasEmpty onward).state := by
  rcases endStep_cases plan clock counters s wasEmpty onward with
    ⟨_, _, -, hend⟩ | ⟨_, -, hend⟩ | ⟨_, _, -, hend⟩ <;> rw [hend]
  · exact ⟨by simp only [Move.effort]; omega, trivial⟩
  · exact ⟨by simp only [Move.effort, Plan.effort]; omega, fun _ => trivial⟩
  · exact honward _ (by rw [nextStep_state]) (by rw [nextStep_state])

theorem atHead_effort (hin : InStep plan .head s) :
    (atHead plan clock counters s).move.effort
        (plan.effort · (atHead plan clock counters s).state) < plan.effort .head s ∧
      (atHead plan clock counters s).move.Arrives clock fun _ point =>
        InStep plan point (atHead plan clock counters s).state := by
  rcases atHead_cases plan clock counters s with
    ⟨hend, hturn⟩ | ⟨hstep, hempty, hturn⟩ | ⟨hstep, hbusy, -, hturn⟩ | ⟨gap, hstep, hbusy, -, hturn⟩ <;>
    rw [hturn]
  · exact ⟨by simp [Move.effort, Plan.effort, hend], fun _ => trivial⟩
  · have heffort : plan.effort .head s = plan.cost (s.step + 1) + 2 := by
      simp [Plan.effort, Nat.not_le.mpr hstep, hempty]
    have hcost := plan.three_le_cost (s.step + 1)
    refine endStep_effort true (by omega) fun next hnext hslot => ⟨?_, .inl hslot⟩
    rw [Move.effort, effort_head hnext hslot, heffort]
    omega
  · have hcost := plan.three_le_cost (s.step + 1)
    refine ⟨?_, trivial⟩
    simp only [Move.effort, Plan.effort, Nat.not_le.mpr hstep, if_false]
    omega
  · have hslot : s.slot < plan.function.invocationsAt s.step := by
      rcases hin with hzero | hslot
      · omega
      · exact hslot
    have hless : plan.effort (.due (Binary64.toInt64Range gap)) s + 1 < plan.effort .head s := by
      simp only [Plan.effort, Nat.not_le.mpr hstep, if_false, Plan.after, slotCost]
      omega
    dsimp only
    split
    · exact ⟨hless, hslot⟩
    · exact ⟨by simp only [Move.effort]; omega, hslot⟩

/-- Every turn of a driver makes its effort less, and leaves it in its step. -/
theorem turn_effort (clock : Clock) (counters : Counters) {point : Point}
    (hin : InStep plan point s) :
    (turn plan clock counters point s).move.effort
        (plan.effort · (turn plan clock counters point s).state) < plan.effort point s ∧
      (turn plan clock counters point s).move.Arrives clock fun _ next =>
        InStep plan next (turn plan clock counters point s).state := by
  cases point with
  | head => exact atHead_effort hin
  | due gap =>
    rcases issueSlot_cases plan clock counters
        { s with nominal := s.nominal + gap, issued := s.issued + 1 } with
      ⟨_, _, hturn, -⟩ | ⟨_, _, _, hturn, -⟩ | ⟨_, hturn⟩ <;> simp only [turn, hturn]
    · exact ⟨by simp only [Move.effort, Plan.effort]; omega, trivial⟩
    · refine ⟨?_, hin⟩
      simp only [Move.effort, Plan.effort, Plan.after, attemptCost]
      omega
    · refine ⟨?_, hin⟩
      simp only [Move.effort, Plan.effort, Plan.after, deliveryCost]
      omega
  | stored =>
    refine ⟨?_, hin⟩
    simp only [turn, Move.effort, Plan.effort]
    omega
  | advance =>
    simp only [turn]
    split
    · refine ⟨?_, trivial⟩
      simp only [Move.effort, Plan.effort]
      omega
    · rename_i hmore
      have hslot : s.slot + 1 < plan.function.invocationsAt s.step := by
        simp only [stepOver, Bool.or_eq_true, decide_eq_true_eq, not_or] at hmore
        exact lt_of_le_of_ne hin hmore.1
      refine ⟨?_, .inr hslot⟩
      have hcost := plan.three_le_cost (s.step + 1)
      simp only [Move.effort, Plan.effort, Plan.after]
      split <;> omega
  | check =>
    have hcost := plan.three_le_cost (s.step + 1)
    refine endStep_effort false ?_ fun next hnext hslot => ⟨?_, .inl hslot⟩
    · simp only [Plan.effort]
      omega
    · rw [Move.effort, effort_head hnext hslot, Plan.effort]
      omega
  | drained => exact ⟨Nat.one_pos, trivial⟩

/-- A driver that is about to start is at its first slot. -/
theorem inStep_begin (plan : Plan) (specification : Specification) (clock : Clock) :
    InStep plan .head (begin plan specification clock) := by
  unfold begin
  split <;> exact .inl rfl

/-! ## Whole traces -/

theorem sum_getD_le (counts : List Nat) (last : Nat) :
    ∑ m ∈ Finset.range last, counts.getD m 0 ≤ counts.sum := by
  induction counts generalizing last with
  | nil => simp
  | cons count counts ih =>
    cases last with
    | zero => simp
    | succ last =>
      have hrest := ih last
      rw [Finset.sum_range_succ', List.sum_cons]
      simp only [List.getD_cons_succ, List.getD_cons_zero]
      omega

theorem sum_invocationsAt_le (f : Function) (first last : Nat) :
    ∑ m ∈ Finset.Ico first last, f.invocationsAt m ≤ f.totalInvocations := by
  have hat (step : Nat) : f.invocationsAt step =
      (f.invocationStats.map UInt64.toNat).getD step 0 := by
    simp only [Function.invocationsAt, List.getD_eq_getElem?_getD, List.getElem?_map]
    cases f.invocationStats[step]? <;> rfl
  simp only [hat, Function.totalInvocations, ← List.sum_eq_foldr]
  refine le_trans (Finset.sum_le_sum_of_subset ?_) (sum_getD_le _ last)
  rw [Finset.range_eq_Ico]
  exact Finset.Ico_subset_Ico_left (Nat.zero_le first)

/-- The effort of a driver that is about to start. -/
theorem effort_begin_le (plan : Plan) (specification : Specification) (clock : Clock) :
    plan.effort .head (begin plan specification clock) ≤
      3 + 2 * plan.configuration.traceDuration + slotCost * plan.function.totalInvocations := by
  have hcost (step : Nat) : plan.cost step ≤
      3 + 2 * plan.configuration.traceDuration + slotCost * plan.function.totalInvocations := by
    have hsum := sum_invocationsAt_le plan.function step plan.configuration.traceDuration
    simp only [Plan.cost, Finset.sum_add_distrib, ← Finset.mul_sum, Finset.sum_const,
      Nat.card_Ico, smul_eq_mul, slotCost]
    omega
  unfold begin
  split
  · rw [effort_head rfl rfl]
    exact hcost _
  · rw [effort_head rfl rfl]
    exact hcost _

end TraceReplay.Driver
