import TraceReplay.Proofs.Driver.Turn

/-!
# How a driver fails

A driver fails at a slot on which its policy panics, at a slot that its specification lacks, or
at the end of a step whose books are wrong.  No turn adds to what a specification lacks, or takes
away from it.
-/

namespace TraceReplay.Driver

/-- What a driver fails with that was given a specification. -/
inductive Plan.FailsWith (plan : Plan) (given : Specification) : ReplayError → Prop
  | panics {issued : Nat} {message : String}
      (hverdict : (plan.policy.resolve ⟨plan.function, plan.siblings, issued⟩).verdict =
        .panic message) :
      plan.FailsWith given (.panicked message)
  | lacks {step slot : Nat} (hlacks : given.Lacks step slot) :
      plan.FailsWith given
        (.invalidSpecification plan.function.name (.missingSlot step slot))
  | misjudges {ideal real : Int} {check : HealthCheck}
      (hinvalid : Health.check ideal real check plan.configuration.loader.thresholds = .invalid) :
      plan.FailsWith given (.invalidRatio ideal real)

theorem Plan.FailsWith.congr {plan : Plan} {given other : Specification} {error : ReplayError}
    (hfails : plan.FailsWith given error)
    (hsame : ∀ step slot, given.Lacks step slot ↔ other.Lacks step slot) :
    plan.FailsWith other error := by
  cases hfails with
  | panics hverdict => exact .panics hverdict
  | lacks hlacks => exact .lacks ((hsame _ _).mp hlacks)
  | misjudges hinvalid => exact .misjudges hinvalid

variable {plan : Plan} {clock : Clock} {counters : Counters} {s : State}

/-! ## What a turn fails with -/

theorem checkFailures_broken {steps : List Nat} {heard notices : List Notice} {error : ReplayError}
    (hbroken : checkFailures plan counters steps heard = .broken notices error)
    (given : Specification) : plan.FailsWith given error := by
  induction steps generalizing heard with
  | nil => simp [checkFailures] at hbroken
  | cons step steps ih =>
    unfold checkFailures at hbroken
    simp only at hbroken
    split at hbroken
    · exact ih hbroken
    · simp at hbroken
    · rename_i hinvalid
      obtain ⟨-, rfl⟩ := StepEnd.broken.inj hbroken
      exact .misjudges hinvalid

theorem checkStep_broken {notices : List Notice} {error : ReplayError}
    (hbroken : checkStep plan counters s = .broken notices error) (given : Specification) :
    plan.FailsWith given error := by
  unfold checkStep at hbroken
  split at hbroken
  · simp at hbroken
  · simp only at hbroken
    split at hbroken
    · exact checkFailures_broken hbroken given
    · simp at hbroken
    · rename_i hinvalid
      obtain ⟨-, rfl⟩ := StepEnd.broken.inj hbroken
      exact .misjudges hinvalid

theorem endStep_fail {wasEmpty : Bool} {onward : Move} {error : ReplayError}
    (honward : onward ≠ .fail error)
    (hmove : (endStep plan clock counters s wasEmpty onward).move = .fail error)
    (given : Specification) : plan.FailsWith given error := by
  rcases endStep_cases plan clock counters s wasEmpty onward with
    ⟨_, cause, hbroken, hturn⟩ | ⟨_, -, hturn⟩ | ⟨_, _, -, hturn⟩ <;> rw [hturn] at hmove
  · obtain rfl := Move.fail.inj hmove
    exact checkStep_broken hbroken given
  · simp at hmove
  · exact absurd hmove honward

/-- A driver whose turn fails has a reason. -/
theorem turn_fail {point : Point} {error : ReplayError}
    (hmove : (turn plan clock counters point s).move = .fail error) :
    plan.FailsWith s.specification error := by
  cases point with
  | head =>
    rcases atHead_cases plan clock counters s with
      ⟨-, hturn⟩ | ⟨-, -, hturn⟩ | ⟨-, -, hgap, hturn⟩ | ⟨gap, -, -, -, hturn⟩ <;>
      simp only [turn, hturn] at hmove
    · simp at hmove
    · exact endStep_fail (by simp) hmove _
    · obtain rfl := Move.fail.inj hmove
      exact .lacks (.inl hgap)
    · split at hmove <;> simp at hmove
  | due gap =>
    rcases issueSlot_cases plan clock counters
        { s with nominal := s.nominal + gap, issued := s.issued + 1 } with
      ⟨_, cause, hturn, hcause⟩ | ⟨_, _, dispatch, hturn, -⟩ | ⟨_, hturn⟩ <;>
      simp only [turn, hturn] at hmove
    · obtain rfl := Move.fail.inj hmove
      rcases hcause with ⟨message, hverdict, rfl⟩ | ⟨hslot, rfl⟩
      · exact .panics hverdict
      · exact .lacks (.inr hslot)
    · simp at hmove
    · simp at hmove
  | stored => simp [turn] at hmove
  | advance =>
    simp only [turn] at hmove
    split at hmove <;> simp at hmove
  | check => exact endStep_fail (by simp) hmove _
  | drained => simp [turn] at hmove

/-! ## What a specification lacks -/

/-- The slot that is issued was there before, and still is. -/
theorem issueSlot_lacks (plan : Plan) (clock : Clock) (counters : Counters) (s : State)
    (step slot : Nat) :
    (issueSlot plan clock counters s).state.specification.Lacks step slot ↔
      s.specification.Lacks step slot := by
  unfold issueSlot
  simp only
  split
  · rfl
  · split
    · rfl
    · unfold fire
      split
      · rfl
      · simp only
        split
        · exact Specification.lacks_attach _ _ _ _ _ _
        · rfl
  · rfl

theorem turn_lacks (plan : Plan) (clock : Clock) (counters : Counters) (point : Point) (s : State)
    (step slot : Nat) :
    (turn plan clock counters point s).state.specification.Lacks step slot ↔
      s.specification.Lacks step slot := by
  cases point with
  | head =>
    rcases atHead_cases plan clock counters s with
      ⟨-, hturn⟩ | ⟨-, -, hturn⟩ | ⟨-, -, -, hturn⟩ | ⟨gap, -, -, -, hturn⟩ <;>
      simp only [turn, hturn, endStep_specification]
  | due gap => exact issueSlot_lacks plan clock counters _ step slot
  | stored => rfl
  | advance => rfl
  | check => simp only [turn, endStep_specification]
  | drained => rfl

end TraceReplay.Driver
