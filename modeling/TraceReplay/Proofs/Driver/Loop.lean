import TraceReplay.Proofs.Driver.Effort

/-!
# Iterations of a driver's loop

The loop of a driver is entered at its head.  It takes an iteration for every slot, and
one for a step that has none, so a step never takes more iterations than it has slots,
or than one.
-/

namespace TraceReplay.Driver

/-- The turn enters the loop. -/
def enters (plan : Plan) (point : Point) (s : State) : Bool :=
  match point with
  | .head => s.step < plan.configuration.traceDuration
  | _ => false

namespace Plan

/-- Iterations that a step takes at most. -/
def iterationsOf (plan : Plan) (step : Nat) : Nat := max 1 (plan.function.invocationsAt step)

/-- Iterations from the start of a step to the end of the loop. -/
def iterationsFrom (plan : Plan) (step : Nat) : Nat :=
  ∑ m ∈ Finset.Ico step plan.configuration.traceDuration, plan.iterationsOf m

theorem iterationsFrom_end {plan : Plan} {step : Nat}
    (hend : plan.configuration.traceDuration ≤ step) : plan.iterationsFrom step = 0 := by
  rw [iterationsFrom, Finset.Ico_eq_empty_of_le hend, Finset.sum_empty]

theorem iterationsFrom_step {plan : Plan} {step : Nat}
    (hstep : step < plan.configuration.traceDuration) :
    plan.iterationsFrom step = plan.iterationsOf step + plan.iterationsFrom (step + 1) :=
  Finset.sum_eq_sum_Ico_succ_bot hstep _

/-- Iterations that the loop can still take. -/
def iterationsLeft (plan : Plan) (point : Point) (s : State) : Nat :=
  match point with
  | .head =>
    if plan.configuration.traceDuration ≤ s.step then 0
    else plan.iterationsOf s.step - s.slot + plan.iterationsFrom (s.step + 1)
  | .due _ => plan.after s + plan.iterationsFrom (s.step + 1)
  | .stored => plan.after s + plan.iterationsFrom (s.step + 1)
  | .advance => plan.after s + plan.iterationsFrom (s.step + 1)
  | .check => plan.iterationsFrom (s.step + 1)
  | .drained => 0

end Plan

variable {plan : Plan} {clock : Clock} {counters : Counters} {s : State}

/-- The next step begins with its first slot. -/
theorem iterationsLeft_head {step : Nat} (hstep : s.step = step) (hslot : s.slot = 0) :
    plan.iterationsLeft .head s = plan.iterationsFrom step := by
  subst hstep
  simp only [Plan.iterationsLeft, hslot, Nat.sub_zero]
  split
  · rename_i hend
    rw [Plan.iterationsFrom_end hend]
  · rename_i hstep
    rw [Plan.iterationsFrom_step (Nat.lt_of_not_le hstep)]

/-- After a step the loop has the iterations of the steps that follow, if it goes on. -/
theorem endStep_iterations (wasEmpty : Bool) {onward : Move}
    (honward : ∀ holds : Nat → Point → Prop, (∀ time, holds time .head) →
      onward.Arrives clock holds) :
    (endStep plan clock counters s wasEmpty onward).move.Arrives clock fun _ next =>
      plan.iterationsLeft next (endStep plan clock counters s wasEmpty onward).state ≤
        plan.iterationsFrom (s.step + 1) := by
  rcases endStep_cases plan clock counters s wasEmpty onward with
    ⟨_, _, -, hend⟩ | ⟨_, -, hend⟩ | ⟨_, _, -, hend⟩ <;> rw [hend]
  · trivial
  · intro _
    exact Nat.zero_le _
  · apply honward
    intro _
    exact (iterationsLeft_head (by rw [nextStep_state]) (by rw [nextStep_state])).le

theorem atHead_iterations (hin : InStep plan .head s) :
    (atHead plan clock counters s).move.Arrives clock fun _ next =>
      plan.iterationsLeft next (atHead plan clock counters s).state +
          (enters plan .head s).toNat ≤ plan.iterationsLeft .head s := by
  have henters (hstep : s.step < plan.configuration.traceDuration) :
      (enters plan .head s).toNat = 1 := by simp [enters, hstep]
  rcases atHead_cases plan clock counters s with
    ⟨hend, hturn⟩ | ⟨hstep, hempty, hturn⟩ | ⟨-, -, -, hturn⟩ | ⟨gap, hstep, hbusy, -, hturn⟩ <;>
    rw [hturn]
  · intro _
    simp [Plan.iterationsLeft, enters, hend]
  · have hslot : s.slot = 0 := by
      rcases hin with hzero | hslot
      · exact hzero
      · omega
    have hleft : plan.iterationsLeft .head s = 1 + plan.iterationsFrom (s.step + 1) := by
      rw [iterationsLeft_head rfl hslot, Plan.iterationsFrom_step hstep, Plan.iterationsOf, hempty]
      rfl
    rw [henters hstep, hleft]
    refine Move.Arrives.mono (fun _ _ hle => ?_)
      (endStep_iterations true fun _ hholds => hholds _)
    omega
  · trivial
  · have hslot : s.slot < plan.function.invocationsAt s.step := by
      rcases hin with hzero | hslot
      · omega
      · exact hslot
    have hleft : plan.iterationsLeft (.due (Binary64.toInt64Range gap)) s + 1 ≤
        plan.iterationsLeft .head s := by
      simp only [Plan.iterationsLeft, Nat.not_le.mpr hstep, if_false, Plan.after,
        Plan.iterationsOf]
      omega
    simp only [henters hstep]
    split <;> exact hleft

/-- A turn that enters the loop takes one of the iterations that are left, and no turn adds
any. -/
theorem turn_iterations (clock : Clock) (counters : Counters) {point : Point}
    (hin : InStep plan point s) :
    (turn plan clock counters point s).move.Arrives clock fun _ next =>
      plan.iterationsLeft next (turn plan clock counters point s).state +
          (enters plan point s).toNat ≤ plan.iterationsLeft point s := by
  cases point with
  | head => exact atHead_iterations hin
  | due gap =>
    rcases issueSlot_cases plan clock counters
        { s with nominal := s.nominal + gap, issued := s.issued + 1 } with
      ⟨_, _, hturn, -⟩ | ⟨_, _, _, hturn, -⟩ | ⟨_, hturn⟩ <;> simp only [turn, hturn]
    · trivial
    · exact le_rfl
    · exact le_rfl
  | stored =>
    exact le_rfl
  | advance =>
    have hslot : s.slot < plan.function.invocationsAt s.step := hin
    simp only [turn, enters, Bool.toNat_false, Nat.add_zero]
    split
    · exact Nat.le_add_left _ _
    · -- The step has slots, so its iterations are those of its slots.
      have hmax : plan.iterationsOf s.step = plan.function.invocationsAt s.step :=
        max_eq_right (Nat.one_le_of_lt hslot)
      simp only [Move.Arrives, Plan.iterationsLeft, Plan.after, hmax]
      split
      · exact Nat.zero_le _
      · exact le_rfl
  | check =>
    exact endStep_iterations false fun _ hholds => hholds _
  | drained => trivial

/-- A loop that is entered has an iteration left. -/
theorem enters_le_iterationsLeft {point : Point} (hin : InStep plan point s) :
    (enters plan point s).toNat ≤ plan.iterationsLeft point s := by
  cases point with
  | head =>
    simp only [enters, Plan.iterationsLeft, Plan.iterationsOf]
    split
    · rename_i hend
      simp [hend]
    · have hle := Bool.toNat_le (decide (s.step < plan.configuration.traceDuration))
      rcases hin with hzero | hslot <;> omega
  | _ => exact Nat.zero_le _

/-- The iterations of a whole replay. -/
theorem iterationsLeft_begin (plan : Plan) (specification : Specification) (clock : Clock) :
    plan.iterationsLeft .head (begin plan specification clock) =
      plan.iterationsFrom (if plan.configuration.withWarmup then 1 else 0) := by
  unfold begin
  split
  · exact iterationsLeft_head rfl rfl
  · exact iterationsLeft_head rfl rfl

end TraceReplay.Driver
