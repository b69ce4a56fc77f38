import TraceReplay.Proofs.Driver.Mode
import TraceReplay.Proofs.Policy.FanOut
import TraceReplay.Proofs.Replay.Refinement
import TraceReplay.Proofs.Replay.Upheld

/-!
# Replica fan-out in a replay

A driver numbers its slots from one, over all steps that it replays and whether it is late or
stopped.  Under replica fan-out every slot is dispatched to the sibling whose turn its number
is, so at any time of a replay the first siblings have received equally many slots, but for
one, and the others none.
-/

namespace TraceReplay

namespace Driver

/-- The place among the siblings of the function that an issued slot was dispatched to. -/
def Plan.siblingOf (plan : Plan) (issue : Issue) : Option Nat :=
  match issue.dispatch,
      (plan.policy.resolve ⟨plan.function, plan.siblings, issue.number⟩).verdict with
  | some _, .fire _ sibling => sibling
  | _, _ => none

/-- The slots went to the first `count` siblings in turn, under IDs of the driven function. -/
structure Plan.FansOut (plan : Plan) (count : Nat) (issues : List Issue) : Prop where
  numbers : issues.map (·.number) = List.range' 1 issues.length
  dispatched : ∀ issue ∈ issues, ∃ dispatch, issue.dispatch = some dispatch ∧
    plan.siblingOf issue = some (issue.number % count) ∧
    plan.siblings[issue.number % count]? = some dispatch.target ∧
    dispatch.invocationId = issue.invocationId
  labelled : ∀ issue ∈ issues, issue.invocationId =
    invocationId plan.function.name plan.configuration.granularity issue.step issue.slot

/-- What a fired slot goes to the invoker as. -/
theorem Plan.dispatch_of_fires {plan : Plan} {phase : Phase}
    {requested : Option RuntimeSpecification} {step slot number : Nat} {target : Function}
    {sibling : Option Nat} {dispatch : Dispatch}
    (hverdict : (plan.policy.resolve ⟨plan.function, plan.siblings, number⟩).verdict =
      .fire target sibling)
    (hdispatch : plan.dispatch phase requested step slot number = some dispatch) :
    dispatch.target = target ∧ dispatch.invocationId =
      invocationId plan.function.name plan.configuration.granularity step slot := by
  unfold Plan.dispatch at hdispatch
  rw [hverdict] at hdispatch
  obtain ⟨-, hsome⟩ := Option.ite_none_left_eq_some.mp hdispatch
  obtain ⟨found, -, rfl⟩ := Option.map_eq_some_iff.mp hsome
  exact ⟨rfl, rfl⟩

/-- Siblings that have their turns receive equally many slots, but for one. -/
theorem Plan.FansOut.share {plan : Plan} {count : Nat} {issues : List Issue}
    (hfans : plan.FansOut count issues) (hpos : 0 < count) {place : Nat} (hplace : place < count) :
    issues.countP (plan.siblingOf · = some place) = issues.length / count ∨
      issues.countP (plan.siblingOf · = some place) = issues.length ⌈/⌉ count := by
  have hturn : issues.countP (plan.siblingOf · = some place) =
      (issues.map (·.number)).countP (· % count = place) := by
    rw [List.countP_map]
    apply List.countP_congr
    intro issue hmem
    obtain ⟨dispatch, -, hsibling, -⟩ := hfans.dispatched issue hmem
    simp [hsibling]
  rw [hturn, hfans.numbers]
  exact Policy.countP_mod_range' hpos hplace issues.length

/-- Nobody else receives a slot. -/
theorem Plan.FansOut.share_of_le {plan : Plan} {count : Nat} {issues : List Issue}
    (hfans : plan.FansOut count issues) (hpos : 0 < count) {place : Nat} (hplace : count ≤ place) :
    issues.countP (plan.siblingOf · = some place) = 0 := by
  apply List.countP_eq_zero.mpr
  intro issue hmem
  obtain ⟨dispatch, -, hsibling, -⟩ := hfans.dispatched issue hmem
  have hturn := Nat.mod_lt issue.number hpos
  simp only [hsibling, Option.some.injEq, decide_eq_true_eq]
  omega

end Driver

namespace Replay

/-- What a lane issues under replica fan-out goes to its siblings in turn. -/
theorem Track.Settled.shares {plan : Driver.Plan} {given : Specification} {t : Track}
    (hsettled : t.Settled plan given) {replicas : Nat}
    (hpolicy : plan.policy = .replicaFanOut replicas) (hreplicas : 0 < replicas)
    (hsiblings : plan.siblings ≠ [])
    (hdispatched : ∀ issue ∈ t.issues, issue.dispatch.isSome = true) :
    plan.FansOut (min replicas plan.siblings.length) t.issues where
  numbers := by
    apply List.ext_getElem (by simp)
    intro place hplace hplace'
    have hless : place < t.issues.length := by simpa using hplace
    have hnumber : t.issues[place].number = place + 1 :=
      congrArg Driver.Issue.number (hsettled.issues place _ (List.getElem?_eq_getElem hless))
    rw [List.getElem_map, hnumber, List.getElem_range', Nat.one_mul, Nat.add_comm]
  dispatched issue hmem := by
    obtain ⟨place, hplace⟩ := List.getElem?_of_mem hmem
    have hissue := hsettled.issues place issue hplace
    have hnumber : issue.number = place + 1 := congrArg Driver.Issue.number hissue
    obtain ⟨dispatch, hdispatch⟩ := Option.isSome_iff_exists.mp (hdispatched issue hmem)
    obtain ⟨target, htarget, hverdict⟩ :=
      Policy.resolve_replicaFanOut hreplicas hsiblings plan.function issue.number
    rw [← hpolicy] at hverdict
    have hfired := congrArg Driver.Issue.dispatch hissue
    rw [hdispatch, Driver.Plan.issueAt, ← hnumber] at hfired
    obtain ⟨hgoal, hid⟩ := Driver.Plan.dispatch_of_fires hverdict hfired.symm
    refine ⟨dispatch, hdispatch, ?_, hgoal ▸ htarget, ?_⟩
    · simp [Driver.Plan.siblingOf, hdispatch, hverdict]
    · exact hid.trans (hsettled.invocationId hmem).symm
  labelled issue hmem := hsettled.invocationId hmem

section Worlds

variable {w u : World} {starts : List Start} {place replicas : Nat} {start : Start}

/-- At any time of a replay, and at its end, a driver whose slots fan out to its siblings has
dispatched every slot that it issued.  Numbers in a row go to the first `min replicas siblings`
siblings, to each of them once; so these have received the quotient of the slots, rounded up or
down, and the other siblings none. -/
theorem Founded.fansOut (hfounded : Founded w) (hstart : starts[place]? = some start)
    (hpasses : (w.startAll starts).Passes u)
    (hpolicy : start.plan.policy = .replicaFanOut replicas) (hreplicas : 0 < replicas)
    (hsiblings : start.plan.siblings ≠ []) (htest : start.plan.configuration.testMode = false) :
    let siblings := start.plan.siblings
    let count := min replicas siblings.length
    let issues := u.view.issuesOf (w.lanes.length + place)
    (∀ f first, ((List.range' first count).map fun number =>
        ((Policy.replicaFanOut replicas).resolve ⟨f, siblings, number⟩).verdict).Perm
      ((siblings.take count).mapIdx fun place target => .fire target (some place))) ∧
    start.plan.FansOut count issues ∧
    (∀ sibling < count,
      issues.countP (start.plan.siblingOf · = some sibling) = issues.length / count ∨
        issues.countP (start.plan.siblingOf · = some sibling) = issues.length ⌈/⌉ count) ∧
    (∀ sibling, count ≤ sibling → issues.countP (start.plan.siblingOf · = some sibling) = 0) ∧
    ∀ finish ∈ u.finished, finish.lane = w.lanes.length + place → ∀ r, finish.result = .ok r →
      r.issued = issues.length := by
  intro siblings count issues
  have hpos : 0 < count := Nat.lt_min.mpr ⟨hreplicas, List.length_pos_iff.mpr hsiblings⟩
  have hfires : start.plan.FiresAll := by
    intro number
    obtain ⟨target, -, hverdict⟩ :=
      Policy.resolve_replicaFanOut hreplicas hsiblings start.plan.function number
    exact ⟨target, _, hpolicy ▸ hverdict⟩
  have hbegin : (Driver.dispatching start.plan hfires htest).holds .head
      (Driver.begin start.plan start.specification w.clock) [] := by
    simp [Driver.dispatching]
  obtain ⟨lane, -, hserves, hupholds⟩ := hfounded.upholds hstart hpasses hbegin
  obtain ⟨_, _, hdispatched⟩ := hupholds.last
  have hfans : start.plan.FansOut count issues :=
    hserves.settled.shares hpolicy hreplicas hsiblings hdispatched
  refine ⟨Policy.resolve_replicaFanOut_perm hreplicas hsiblings, hfans,
    fun _ hless => hfans.share hpos hless, fun _ hle => hfans.share_of_le hpos hle, ?_⟩
  intro finish hmem hlane r hresult
  have hended : finish ∈ (u.view.track (w.lanes.length + place) lane).finished :=
    List.mem_filter.mpr ⟨hmem, decide_eq_true hlane⟩
  exact (hserves.manned.ended finish hended r hresult).2.2.2

/-! ## Three slots for two of three copies -/

/-- A driver of three slots in two steps, with three copies as siblings, two of which have
turns. -/
def Start.copies : Start where
  plan := {
    index := 0
    function := { name := "bert", invocationStats := [2, 1] }
    siblings := ["bert-serverful-copy-0", "bert-serverful-copy-1", "bert-serverful-copy-2"].map
      fun name => { name := name, invocationStats := [2, 1] }
    policy := .replicaFanOut 2
    configuration := .ofLoader { experimentDuration := 2, granularity := .second } }
  context := { invoker := .scripted fun _ => {} }
  specification := {
    gaps := [[0, 0], [0]], perStepCount := [2, 1], rawDuration := []
    slots := [[{ runtime := 100, memory := 64 }, { runtime := 100, memory := 64 }],
      [{ runtime := 100, memory := 64 }]] }

theorem fansOut_copies :
    let ended := (({} : World).startAll [.copies]).runToEnd
    Start.copies.specification.validate Start.copies.plan.function = .ok () ∧
      Start.copies.plan.configuration.testMode = false ∧
      Start.copies.plan.FansOut 2 (ended.view.issuesOf 0) ∧
      (ended.view.issuesOf 0).map (fun issue => issue.dispatch.map (·.target.name)) =
        [some "bert-serverful-copy-1", some "bert-serverful-copy-0", some "bert-serverful-copy-1"] ∧
      (ended.view.issuesOf 0).countP (Start.copies.plan.siblingOf · = some 2) = 0 := by
  intro ended
  obtain ⟨-, hfans, -, hothers, -⟩ := Unmanned.empty.toFounded.fansOut
    (show [Start.copies][0]? = some .copies from rfl) (World.runToEnd_passes _) rfl (by decide)
    (by decide) rfl
  exact ⟨rfl, rfl, hfans, by decide +kernel, hothers 2 le_rfl⟩

end Worlds
end Replay
end TraceReplay
