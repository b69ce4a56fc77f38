import TraceReplay.Proofs.Driver.Course

/-!
# What drivers issue

What a slot is issued as, its ID, its number and what goes to the invoker, can be read off
the plan of a driver and the specification that it was given.  A driver writes statistics
into its specification, but only for slots that it has issued, so it never reads what it
wrote.
-/

namespace TraceReplay.Driver

namespace Plan

/-- The phase a step is replayed in. -/
def phaseOf (plan : Plan) (step : Nat) : Phase :=
  if plan.configuration.withWarmup ∧ step ≤ plan.configuration.loader.warmupDuration then .warmup
  else .execution

/-- What the slot of an entry is issued as, if `number - 1` slots come before it. -/
def issueAt (plan : Plan) (given : Specification) (entry : Entry) (number : Nat) : Issue where
  driver := plan.index
  time := entry.time
  step := entry.step
  slot := entry.slot
  number := number
  invocationId :=
    invocationId plan.function.name plan.configuration.granularity entry.step entry.slot
  dispatch := plan.dispatch (plan.phaseOf entry.step) (given.slot? entry.step entry.slot)
    entry.step entry.slot number

/-- What the driver finds for the slots from `first` on is what it was given. -/
structure Intact (plan : Plan) (given : Specification) (first : Nat) (s : State) : Prop where
  phase : s.phase = plan.phaseOf s.step
  slots : ∀ step slot, s.step < step ∨ s.step = step ∧ first ≤ slot →
    s.specification.slot? step slot = given.slot? step slot

/-- What the driver has yet to issue is as it was given. -/
def HasRest (plan : Plan) (given : Specification) (s : State) : Point → Prop
  | .head => plan.Intact given s.slot s
  | .due _ => plan.Intact given s.slot s
  | .stored => plan.Intact given (s.slot + 1) s
  | .advance => plan.Intact given (s.slot + 1) s
  | .check => plan.Intact given s.slot s
  | .drained => True

variable {plan : Plan} {given : Specification} {clock : Clock} {counters : Counters} {s : State}

/-- The phase changes once, when the warmup is over. -/
theorem phaseOf_succ (plan : Plan) (step : Nat) :
    plan.phaseOf (step + 1) =
      if plan.configuration.withWarmup ∧ step + 1 = plan.configuration.loader.warmupDuration + 1
      then .execution else plan.phaseOf step := by
  simp only [phaseOf]
  by_cases hwarmup : plan.configuration.withWarmup
  · simp only [hwarmup, true_and]
    split_ifs <;> first | rfl | omega
  · simp [hwarmup]

/-- Nothing of the next step has been issued when it begins. -/
theorem Intact.nextStep {first : Nat} (hintact : plan.Intact given first s) (wasEmpty : Bool) :
    plan.HasRest given (nextStep plan clock s wasEmpty).1 .head := by
  rw [nextStep_state]
  refine ⟨?_, fun step slot hlater => ?_⟩
  · rw [phaseOf_succ, hintact.phase]
  · refine hintact.slots step slot (.inl ?_)
    rcases hlater with hstep | ⟨hstep, -⟩ <;> simp only at hstep <;> omega

theorem Intact.endStep {first : Nat} (hintact : plan.Intact given first s) (wasEmpty : Bool)
    {onward : Move} (honward : ∀ holds : Nat → Point → Prop, (∀ time, holds time .head) →
      onward.Arrives clock holds) :
    (endStep plan clock counters s wasEmpty onward).move.Arrives clock fun _ next =>
      plan.HasRest given (endStep plan clock counters s wasEmpty onward).state next := by
  rcases endStep_cases plan clock counters s wasEmpty onward with
    ⟨_, _, -, hend⟩ | ⟨_, -, hend⟩ | ⟨_, _, -, hend⟩ <;> rw [hend]
  · trivial
  · exact fun _ => trivial
  · apply honward
    intro _
    exact hintact.nextStep wasEmpty

/-- The slot that is issued is the only one that changes. -/
theorem Intact.issueSlot (hintact : plan.Intact given s.slot s) :
    (issueSlot plan clock counters s).move.Arrives clock fun _ next =>
      plan.HasRest given (issueSlot plan clock counters s).state next := by
  have hrest : ∀ step slot, s.step < step ∨ s.step = step ∧ s.slot + 1 ≤ slot →
      (Driver.issueSlot plan clock counters s).state.specification.slot? step slot =
        given.slot? step slot := by
    intro step slot hlater
    rw [issueSlot_slot? plan clock counters s (by omega)]
    apply hintact.slots
    omega
  rcases issueSlot_cases plan clock counters s with
    ⟨_, _, hturn, -⟩ | ⟨_, _, _, hturn, -⟩ | ⟨_, hturn⟩ <;> rw [hturn] at hrest ⊢
  · trivial
  · exact ⟨hintact.phase, hrest⟩
  · exact ⟨hintact.phase, hrest⟩

/-- Wherever a driver goes on, it has the rest of what it was given. -/
theorem hasRest_turn (clock : Clock) (counters : Counters) {point : Point}
    (hrest : plan.HasRest given s point) :
    (turn plan clock counters point s).move.Arrives clock fun _ next =>
      plan.HasRest given (turn plan clock counters point s).state next := by
  cases point with
  | head =>
    have hintact : plan.Intact given s.slot s := hrest
    rcases atHead_cases plan clock counters s with
      ⟨-, hturn⟩ | ⟨-, -, hturn⟩ | ⟨-, -, -, hturn⟩ | ⟨gap, -, -, -, hturn⟩ <;>
      simp only [turn, hturn]
    · exact fun _ => trivial
    · exact hintact.endStep true fun _ hholds => hholds _
    · trivial
    · split <;> exact hintact
  | due gap =>
    have hintact : plan.Intact given s.slot
        { s with nominal := s.nominal + gap, issued := s.issued + 1 } := ⟨hrest.phase, hrest.slots⟩
    exact hintact.issueSlot
  | stored => exact hrest
  | advance =>
    have hintact : plan.Intact given (s.slot + 1) { s with slot := s.slot + 1 } :=
      ⟨hrest.phase, hrest.slots⟩
    simp only [turn]
    split <;> exact hintact
  | check =>
    have hintact : plan.Intact given s.slot s := hrest
    exact hintact.endStep false fun _ hholds => hholds _
  | drained => trivial

/-- What a driver issues is settled by its plan and what it was given. -/
theorem HasRest.issue_turn {point : Point} (hrest : plan.HasRest given s point) {issue : Issue}
    (hissue : (turn plan clock counters point s).issue = some issue) :
    issue = plan.issueAt given issue.entry (s.issued + 1) := by
  cases point with
  | due gap =>
    have hrest : plan.Intact given s.slot s := hrest
    have hslot := hrest.slots s.step s.slot (.inr ⟨rfl, le_rfl⟩)
    have hissue := issueSlot_issue plan clock counters
      { s with nominal := s.nominal + gap, issued := s.issued + 1 } hissue
    rw [hissue]
    simp only [issueAt, issueOf, currentId, Issue.entry, hslot, hrest.phase]
  | head =>
    rcases atHead_cases plan clock counters s with
      ⟨-, hturn⟩ | ⟨-, -, hturn⟩ | ⟨-, -, -, hturn⟩ | ⟨gap, -, -, -, hturn⟩ <;>
      simp [turn, hturn] at hissue
  | check => simp [turn] at hissue
  | stored | advance | drained => simp [turn] at hissue

/-- When a driver begins it has everything it was given. -/
theorem hasRest_begin (plan : Plan) (given : Specification) (clock : Clock) :
    plan.HasRest given (begin plan given clock) .head := by
  unfold begin
  split
  · rename_i hwarmup
    refine ⟨?_, fun _ _ _ => rfl⟩
    have hone : 1 ≤ plan.configuration.loader.warmupDuration := of_decide_eq_true hwarmup
    exact (if_pos ⟨hwarmup, hone⟩).symm
  · rename_i hcold
    exact ⟨(if_neg fun hwarmup => hcold hwarmup.1).symm, fun _ _ _ => rfl⟩

end Plan

/-! ## Issues in closed form -/

namespace Schedule

/-- What is issued in the first `count` replayed steps. -/
def issues (schedule : Schedule) (given : Specification) (count : Nat) : List Issue :=
  (schedule.entries count).mapIdx fun place entry => schedule.plan.issueAt given entry (place + 1)

end Schedule

/-- What can be seen of an issued slot, its time counted from a start: when it was issued as
which slot, and whether it went to the invoker, for which target and with which
specification. -/
structure Observation where
  time : Int
  step : Nat
  slot : Nat
  /-- Its place among all slots of the driver, from one. -/
  number : Nat
  invocationId : String
  dispatch : Option Dispatch

def Issue.observed (start : Nat) (issue : Issue) : Observation where
  time := issue.time - start
  step := issue.step
  slot := issue.slot
  number := issue.number
  invocationId := issue.invocationId
  dispatch := issue.dispatch

/-- One row of observations is another that is cut at the end of a step. -/
structure CutOf (cut whole : List Observation) : Prop where
  leads : cut <+: whole
  step : ∃ step, cut = whole.filter (·.step < step)

/-- The same slot of a replay that starts later. -/
def Entry.later (start : Nat) (entry : Entry) : Entry := { entry with time := start + entry.time }

namespace Schedule

variable (schedule : Schedule)

/-- The schedule of a replay that starts at once. -/
def promptly : Schedule := { schedule with start := 0 }

/-- What can be seen of the first `count` replayed steps. -/
def observations (given : Specification) (count : Nat) : List Observation :=
  (schedule.entries count).mapIdx fun place entry =>
    (schedule.plan.issueAt given entry (place + 1)).observed schedule.start

theorem map_observed_issues (given : Specification) (count : Nat) :
    (schedule.issues given count).map (·.observed schedule.start) =
      schedule.observations given count := by
  apply List.ext_getElem?
  intro place
  simp only [issues, observations, List.getElem?_map, List.getElem?_mapIdx, Option.map_map]
  rfl

theorem begins_promptly (count : Nat) :
    schedule.begins count = schedule.start + schedule.promptly.begins count := by
  induction count with
  | zero => rfl
  | succ count ih =>
    rw [begins, ih, Nat.add_assoc]
    rfl

theorem entriesOf_promptly (count : Nat) :
    schedule.entriesOf count = (schedule.promptly.entriesOf count).map (·.later schedule.start) := by
  rw [entriesOf, entriesOf, List.map_map, begins_promptly]
  apply List.map_congr_left
  intro slot _
  simp only [Function.comp_apply, Entry.later, Nat.add_assoc]
  rfl

theorem entries_promptly (count : Nat) :
    schedule.entries count = (schedule.promptly.entries count).map (·.later schedule.start) := by
  rw [entries, entries, List.map_flatMap, funext (entriesOf_promptly schedule)]

/-- What can be seen does not depend on when the replay starts. -/
theorem observations_promptly (given : Specification) (count : Nat) :
    schedule.observations given count = schedule.promptly.observations given count := by
  apply List.ext_getElem?
  intro place
  rw [observations, entries_promptly, observations]
  simp only [List.getElem?_mapIdx, List.getElem?_map, Option.map_map]
  congr 1
  funext entry
  simp [Issue.observed, Plan.issueAt, Entry.later, promptly]

/-- What can be seen does not depend on the place of the function in the trace. -/
theorem observations_index (index : Nat) (given : Specification) (count : Nat) :
    { schedule with plan := { schedule.plan with index := index } }.observations given count =
      schedule.observations given count := by
  have hentries : ({ schedule with plan := { schedule.plan with index := index } }).entries count =
      schedule.entries count := by
    apply entries_congr <;> rfl
  rw [observations, hentries, observations]
  rfl

theorem entries_add (count more : Nat) :
    schedule.entries (count + more) =
      schedule.entries count ++ (List.range more).flatMap fun next => schedule.entriesOf (count + next) := by
  simp only [entries, List.range_add, List.flatMap_append, List.flatMap_map]

/-- Fewer steps are cut off at the end of the last of them. -/
theorem observations_cutOf (given : Specification) {count more : Nat} (hle : count ≤ more) :
    CutOf (schedule.observations given count) (schedule.observations given more) := by
  obtain ⟨rest, rfl⟩ := Nat.exists_eq_add_of_le hle
  set after := (List.range rest).flatMap fun next => schedule.entriesOf (count + next) with hafter
  have hall : schedule.observations given (count + rest) = schedule.observations given count ++
      after.mapIdx fun place entry => (schedule.plan.issueAt given entry
        (place + (schedule.entries count).length + 1)).observed schedule.start := by
    simp only [observations, entries_add, ← hafter, List.mapIdx_append]
  refine ⟨⟨_, hall.symm⟩, schedule.firstStep + count, ?_⟩
  have hbefore : ∀ seen ∈ schedule.observations given count,
      seen.step < schedule.firstStep + count := by
    intro seen hseen
    obtain ⟨place, hplace, rfl⟩ := List.mem_mapIdx.mp hseen
    obtain ⟨before, hless, hmem⟩ := List.mem_flatMap.mp (List.getElem_mem hplace)
    have hstep := step_of_mem_entriesOf hmem
    simp only [Issue.observed, Plan.issueAt, hstep]
    have hless := List.mem_range.mp hless
    omega
  have hlater : ∀ seen ∈ after.mapIdx fun place entry => (schedule.plan.issueAt given entry
      (place + (schedule.entries count).length + 1)).observed schedule.start,
      ¬seen.step < schedule.firstStep + count := by
    intro seen hseen
    obtain ⟨place, hplace, rfl⟩ := List.mem_mapIdx.mp hseen
    obtain ⟨next, -, hmem⟩ := List.mem_flatMap.mp (List.getElem_mem hplace)
    have hstep := step_of_mem_entriesOf hmem
    simp only [Issue.observed, Plan.issueAt, hstep]
    omega
  rw [hall, List.filter_append, List.filter_eq_self.mpr fun seen hseen => by
      simpa using hbefore seen hseen,
    List.filter_eq_nil_iff.mpr fun seen hseen => by simpa using hlater seen hseen,
    List.append_nil]

end Schedule
end TraceReplay.Driver
