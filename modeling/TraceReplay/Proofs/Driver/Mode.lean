import TraceReplay.Proofs.Driver.Invariant

/-!
# Whether slots are invoked

In test mode no slot of a driver goes to the invoker, and nothing is written into the
specification.  Otherwise every slot that the driver issues goes there if the policy fires
every slot: where the specification has none the driver fails, and issues nothing.
-/

namespace TraceReplay.Driver

variable {plan : Plan} {clock : Clock} {counters : Counters} {point : Point} {s : State}
  {issue : Issue}

/-! ## Test mode -/

theorem dispatch_of_testMode (htest : plan.configuration.testMode = true) (phase : Phase)
    (requested : Option RuntimeSpecification) (step slot number : Nat) :
    plan.dispatch phase requested step slot number = none := by
  unfold Plan.dispatch
  split
  · exact if_pos htest
  · rfl
  · rfl

theorem turn_issue_dispatch_of_testMode (htest : plan.configuration.testMode = true)
    (hissue : (turn plan clock counters point s).issue = some issue) : issue.dispatch = none := by
  obtain ⟨gap, -, hslot⟩ := due_of_turn_issue hissue
  rw [issueSlot_issue plan clock counters _ hslot]
  exact dispatch_of_testMode htest _ _ _ _ _

/-- Nothing is dispatched, and the specification stays as it was given. -/
def rehearsing (plan : Plan) (given : Specification) (htest : plan.configuration.testMode = true) :
    Invariant plan where
  holds _ s issues := s.specification = given ∧ ∀ issue ∈ issues, issue.dispatch = none
  turn clock counters {point s issues} hholds := by
    obtain ⟨hgiven, hnone⟩ := hholds
    refine Move.Arrives.of_forall (fun _ _ => ?_) _
    cases hissue : (turn plan clock counters point s).issue with
    | none =>
      refine ⟨?_, by simpa using hnone⟩
      rw [turn_specification, hissue]
      exact hgiven
    | some issue =>
      have hdispatch := turn_issue_dispatch_of_testMode htest hissue
      constructor
      · rw [turn_specification, hissue]
        simpa [Specification.annotated, hdispatch] using hgiven
      · simpa [or_imp, forall_and] using And.intro hnone hdispatch

/-- The records that are made up for an issued slot for which nothing is invoked. -/
def Plan.madeUp (plan : Plan) (epoch : Int) (issue : Issue) : RecordPair :=
  .synthesized plan.function issue.invocationId (plan.phaseOf issue.step) ⟨epoch, issue.time⟩

/-- What is delivered is what is made up for the slot that is issued. -/
theorem madeUp_of_deliver {pair : RecordPair} {next : Point}
    (hmove : (turn plan clock counters point s).move = .deliver pair next)
    (hphase : s.phase = plan.phaseOf s.step) :
    ∃ issue, (turn plan clock counters point s).issue = some issue ∧
      pair = plan.madeUp clock.epoch issue := by
  obtain ⟨due, hstep, hsame, hissue, rfl⟩ := issue_of_deliver hmove
  refine ⟨_, hissue, ?_⟩
  rw [hsame, hphase, ← hstep]
  rfl

/-- In test mode nothing goes to the invoker: a slot has its records made up and delivered as it
is issued. -/
theorem turn_testMode (htest : plan.configuration.testMode = true)
    (hphase : s.phase = plan.phaseOf s.step) :
    ((turn plan clock counters point s).issue = none ∧
      (∀ dispatch next, (turn plan clock counters point s).move ≠ .launch dispatch next) ∧
      ∀ pair next, (turn plan clock counters point s).move ≠ .deliver pair next) ∨
    ∃ issue, (turn plan clock counters point s).issue = some issue ∧
      (turn plan clock counters point s).move =
        .deliver (plan.madeUp clock.epoch issue) .stored := by
  rcases turn_issue_cases plan clock counters point s with hnone | ⟨due, dispatch, hissue, -⟩ |
    ⟨due, -, hdeliver⟩
  · exact .inl hnone
  · exact absurd (turn_issue_dispatch_of_testMode htest hissue) (by simp [issueOf])
  · obtain ⟨issue, hissue, hpair⟩ := madeUp_of_deliver hdeliver hphase
    exact .inr ⟨issue, hissue, hpair ▸ hdeliver⟩

/-! ## Policies that fire every slot -/

/-- The policy fires every slot of the driver. -/
def Plan.FiresAll (plan : Plan) : Prop :=
  ∀ number, ∃ target sibling,
    (plan.policy.resolve ⟨plan.function, plan.siblings, number⟩).verdict = .fire target sibling

theorem turn_issue_dispatch_of_firesAll (hfires : plan.FiresAll)
    (htest : plan.configuration.testMode = false)
    (hissue : (turn plan clock counters point s).issue = some issue) :
    issue.dispatch.isSome = true := by
  obtain ⟨gap, -, hslot⟩ := due_of_turn_issue hissue
  obtain ⟨target, sibling, hverdict⟩ := hfires (s.issued + 1)
  unfold issueSlot at hslot
  simp only [hverdict, htest, Bool.false_eq_true, if_false] at hslot
  unfold fire at hslot
  split at hslot
  · exact absurd hslot nofun
  · rw [← Option.some.inj hslot]
    rfl

/-- Every slot that is issued is dispatched. -/
def dispatching (plan : Plan) (hfires : plan.FiresAll)
    (htest : plan.configuration.testMode = false) : Invariant plan where
  holds _ _ issues := ∀ issue ∈ issues, issue.dispatch.isSome = true
  turn clock counters {point s issues} hall := by
    refine Move.Arrives.of_forall (fun _ _ issue hmem => ?_) _
    rcases List.mem_append.mp hmem with hold | hnew
    · exact hall issue hold
    · exact turn_issue_dispatch_of_firesAll hfires htest (Option.mem_toList.mp hnew)

end TraceReplay.Driver
