import TraceReplay.Proofs.Replay.Tally

/-!
# The ledger of failures

With an invoker that asks nobody it is settled as soon as a slot is fired whether its
invocation fails, and when.  What has failed is counted, and what is yet to fail is owed
by a task that stands somewhere: no failure is lost, and none is counted twice.
-/

namespace TraceReplay

/-- Every invocation takes its time and ends, without asking the scheduler. -/
def Invoker.Waits (invoker : Invoker) : Prop :=
  ∀ request clock, ∃ execution, invoker.attempt request clock = .execute execution

/-- A panic is not counted as a failure, nor as anything else. -/
def Ending.fails : Ending → Bool
  | .returns outcome => !outcome.success
  | .panics => false

namespace Replay

/-- An invocation that fails: the step of its slot, and when it returns. -/
@[ext]
structure Failure where
  step : Nat
  time : Nat
deriving DecidableEq

/-- When an invocation that begins now fails, if it does. -/
def Lane.failsAt? (lane : Lane) (clock : Clock) (dispatch : Dispatch) : Option Nat :=
  match lane.context.invoker.attempt (View.request lane dispatch) clock with
  | .execute execution =>
    if execution.ending.fails then some (clock.now + execution.delay) else none
  | .consult .. => none

/-- The failure of a slot that was issued, if it was fired and its invocation fails. -/
def Lane.failure? (lane : Lane) (epoch : Int) (issue : Driver.Issue) : Option Failure :=
  (issue.dispatch.bind (lane.failsAt? ⟨epoch, issue.time⟩)).map (⟨issue.step, ·⟩)

/-- The failures of slots that were issued. -/
def Lane.failures (lane : Lane) (epoch : Int) (issues : List Driver.Issue) : Multiset Failure :=
  issues.filterMap (lane.failure? epoch)

/-- The failure that a standing task leads to. -/
def Lane.owed? (lane : Lane) (clock : Clock) : Place × Task → Option Failure
  | (_, .attempt _ dispatch) => (lane.failsAt? clock dispatch).map (⟨dispatch.step, ·⟩)
  | (place, .conclude _ dispatch ending) =>
    if ending.fails then some ⟨dispatch.step, place.time clock.now⟩ else none
  | _ => none

/-- The failures that standing tasks lead to. -/
def Lane.owed (lane : Lane) (clock : Clock) (standing : Standing) : Multiset Failure :=
  standing.filterMap (lane.owed? clock)

section Owed

variable {lane : Lane} {clock : Clock}

theorem owed?_of_awaited? {x : Place × Task} (hawaited : x.2.awaited? = none) :
    lane.owed? clock x = none := by
  obtain ⟨place, task⟩ := x
  cases task with
  | attempt => simp [Task.awaited?] at hawaited
  | conclude => simp [Task.awaited?] at hawaited
  | _ => rfl

theorem owed_cons (x : Place × Task) (standing : Standing) :
    lane.owed clock (x ::ₘ standing) =
      lane.owed clock standing + ((lane.owed? clock x).toList : Multiset Failure) := by
  rw [Lane.owed, Multiset.filterMap_cons, add_comm]
  cases lane.owed? clock x <;> rfl

theorem owed_cons_none {x : Place × Task} (hnone : lane.owed? clock x = none)
    (standing : Standing) : lane.owed clock (x ::ₘ standing) = lane.owed clock standing :=
  Multiset.filterMap_cons_none _ _ hnone

theorem owed_cons_congr {x y : Place × Task} (hsame : lane.owed? clock y = lane.owed? clock x)
    (standing : Standing) :
    lane.owed clock (y ::ₘ standing) = lane.owed clock (x ::ₘ standing) := by
  simp only [Lane.owed, Multiset.filterMap_cons, hsame]

theorem owed_map {f : Place × Task → Place × Task} {later : Clock} {standing : Standing}
    (hsame : ∀ x ∈ standing, lane.owed? later (f x) = lane.owed? clock x) :
    lane.owed later (standing.map f) = lane.owed clock standing := by
  rw [Lane.owed, Multiset.filterMap_map]
  induction standing using Multiset.induction_on with
  | empty => rfl
  | cons x standing ih =>
    have hrest := ih fun y hy => hsame y (Multiset.mem_cons_of_mem hy)
    simp only [Lane.owed, Multiset.filterMap_cons, Function.comp_apply,
      hsame x (Multiset.mem_cons_self x standing)] at hrest ⊢
    rw [hrest]

/-- Beginning an execution settles nothing that was not settled before. -/
theorem owed?_executing (index : Nat) {dispatch : Dispatch} {execution : Execution}
    (hattempt : lane.context.invoker.attempt (View.request lane dispatch) clock =
      .execute execution) (place : Place) :
    lane.owed? clock (View.executing clock index dispatch execution) =
      lane.owed? clock (place, .attempt index dispatch) := by
  have htime : (if execution.delay = 0 then Place.ready
      else .asleep (clock.now + execution.delay)).time clock.now = clock.now + execution.delay := by
    split <;> simp_all [Place.time]
  simp only [Lane.owed?, View.executing, Lane.failsAt?, hattempt, htime]
  split <;> rfl

/-- A failure that is owed while its invocation sleeps is owed for the time it wakes. -/
theorem owed?_wakeAt {x : Place × Task} {time : Nat} (hallowed : View.Allowed x.1 x.2)
    (hready : x.1 ≠ .ready) (hdeferred : x.1 ≠ .deferred) :
    lane.owed? { clock with now := time } (View.wakeAt time x) = lane.owed? clock x := by
  obtain ⟨place, task⟩ := x
  cases task with
  | attempt => exact absurd hallowed hready
  | conclude index dispatch ending =>
    obtain ⟨due, rfl⟩ : ∃ due, place = .asleep due := hallowed.resolve_left hready
    by_cases hwakes : due = time
    · simp [View.wakeAt, Lane.owed?, Place.time, hwakes]
    · simp [View.wakeAt, Lane.owed?, Place.time, hwakes]
  | answered =>
    obtain rfl := hallowed.resolve_left hready
    rfl
  | _ =>
    rw [owed?_of_awaited? (x := (place, _)) rfl]
    exact owed?_of_awaited? (by rw [View.wakeAt_task]; rfl)

theorem failures_append (lane : Lane) (epoch : Int) (issues : List Driver.Issue)
    (issue : Option Driver.Issue) :
    lane.failures epoch (issues ++ issue.toList) =
      lane.failures epoch issues + ((issue.bind (lane.failure? epoch)).toList : Multiset Failure) := by
  cases issue with
  | none => simp [Lane.failures]
  | some issue =>
    simp only [Lane.failures, Option.toList_some, List.filterMap_append, Option.bind_some,
      List.filterMap_cons, List.filterMap_nil, ← Multiset.coe_add]
    cases lane.failure? epoch issue <;> rfl

end Owed

theorem Track.Delivers.awaited?_store {task : Task} {x : Place × Task}
    (hdelivers : Delivers task x) : task.awaited? = none := by
  cases hdelivers with
  | waits hstore => cases task <;> first | rfl | exact absurd hstore (by simp [View.isStore])
  | _ => rfl

/-! ## Counting failures -/

@[simp]
theorem length_count (dispatch : Dispatch) (outcome : Outcome) (c : Counters) :
    (dispatch.count outcome c).failedByStep.length = c.failedByStep.length := by
  unfold Dispatch.count
  split
  · rfl
  · exact List.length_modify _ _ _

theorem failedAt_recordFailure (c : Counters) (failed : Nat) {step : Nat}
    (hstep : step < c.failedByStep.length) :
    (c.recordFailure failed).failedAt step = c.failedAt step + if failed = step then 1 else 0 := by
  simp only [Counters.failedAt, Counters.recordFailure, List.getD_eq_getElem?_getD,
    List.getElem?_modify, List.getElem?_eq_getElem hstep]
  split <;> rfl

/-! ## The ledger along a replay -/

namespace Track

/-- Failures are counted or owed, each once; those that are counted lie in the past.
The lane was started as `own`. -/
structure Accounted (own : Lane) (epoch : Int) (counted : Multiset Failure) (t : Track) :
    Prop where
  plan : t.lane.plan = own.plan
  context : t.lane.context = own.context
  clock : t.clock.epoch = epoch
  steps : t.lane.counters.failedByStep.length = own.plan.configuration.traceDuration
  /-- Nobody has asked the scheduler. -/
  unasked : ∀ x ∈ t.standing, ∀ lane dispatch reply begin, x.2 ≠ .answered lane dispatch reply begin
  counts : ∀ step < own.plan.configuration.traceDuration,
    t.lane.counters.failedAt step = counted.countP (·.step = step)
  past : ∀ failure ∈ counted, failure.time ≤ t.clock.now
  ledger : own.failures epoch t.issues = counted + own.owed t.clock t.standing

variable {own : Lane} {epoch : Int} {counted : Multiset Failure} {index : Nat} {t : Track}

/-- A driver does not ask the scheduler. -/
theorem unasked_move {s : Driver.State} {move : Driver.Move} {x : Place × Task}
    (hx : x ∈ (t.move index s move).standing) :
    x ∈ t.standing ∨ ∀ lane dispatch reply begin, x.2 ≠ .answered lane dispatch reply begin := by
  have hadd {y : Place × Task}
      (hy : ∀ lane dispatch reply begin, y.2 ≠ .answered lane dispatch reply begin)
      {standing : Standing} (hx : x ∈ y ::ₘ standing) :
      x ∈ standing ∨ ∀ lane dispatch reply begin, x.2 ≠ .answered lane dispatch reply begin := by
    rcases Multiset.mem_cons.mp hx with rfl | hmem
    · exact .inr hy
    · exact .inl hmem
  cases move with
  | launch dispatch next =>
    rcases hadd (by simp) hx with hmem | hunasked
    · exact hadd (by simp) hmem
    · exact .inr hunasked
  | finish report => exact .inl hx
  | fail error => exact .inl hx
  | _ => exact hadd (by simp) hx

theorem owed_move {clock : Clock} {s : Driver.State} {move : Driver.Move}
    (hlaunch : ∀ dispatch next, move ≠ .launch dispatch next) :
    own.owed clock (t.move index s move).standing = own.owed clock t.standing := by
  cases move with
  | launch dispatch next => exact absurd rfl (hlaunch dispatch next)
  | finish report => rfl
  | fail error => rfl
  | _ => exact owed_cons_none rfl _

theorem owed_launch {clock : Clock} {s : Driver.State} {dispatch : Dispatch}
    {next : Driver.Point} :
    own.owed clock (t.move index s (.launch dispatch next)).standing =
      own.owed clock ((.ready, .attempt index dispatch) ::ₘ t.standing) :=
  owed_cons_none rfl _

namespace Accounted

theorem not_answered (haccounted : t.Accounted own epoch counted) {place : Place}
    {dispatch : Dispatch} {reply : Option PlacementReply}
    {begin : Option PlacementReply → Clock → Execution} {rest : Standing}
    (hstanding : t.standing = (place, .answered index dispatch reply begin) ::ₘ rest) : False := by
  apply haccounted.unasked (place, .answered index dispatch reply begin) _ _ _ _ _ rfl
  rw [hstanding]
  exact Multiset.mem_cons_self _ _

/-- The lane goes on with other tasks that owe the same. -/
theorem settle (haccounted : t.Accounted own epoch counted) (standing : Standing)
    (hunasked : ∀ x ∈ standing, x ∈ t.standing ∨
      ∀ lane dispatch reply begin, x.2 ≠ .answered lane dispatch reply begin)
    (howed : own.owed t.clock standing = own.owed t.clock t.standing) (inFlight : Nat) :
    Accounted own epoch counted
      { t with lane := { t.lane with inFlight := inFlight }, standing := standing } where
  plan := haccounted.plan
  context := haccounted.context
  clock := haccounted.clock
  steps := haccounted.steps
  unasked x hx := (hunasked x hx).elim (haccounted.unasked x) id
  counts := haccounted.counts
  past := haccounted.past
  ledger := haccounted.ledger.trans (congrArg (counted + ·) howed.symm)

/-- A task takes the place of another that owes the same. -/
theorem replace (haccounted : t.Accounted own epoch counted) {x y : Place × Task}
    {rest : Standing} (hstanding : t.standing = x ::ₘ rest)
    (hunasked : ∀ lane dispatch reply begin, y.2 ≠ .answered lane dispatch reply begin)
    (howed : own.owed? t.clock y = own.owed? t.clock x) :
    Accounted own epoch counted { t with standing := y ::ₘ rest } := by
  apply haccounted.settle (y ::ₘ rest) _ _ t.lane.inFlight
  · intro z hz
    rcases Multiset.mem_cons.mp hz with rfl | hmem
    · exact .inr hunasked
    · left
      rw [hstanding]
      exact Multiset.mem_cons_of_mem hmem
  · rw [hstanding]
    exact owed_cons_congr howed rest

/-- The outcome of an invocation is counted when the invocation returns. -/
theorem publish (haccounted : t.Accounted own epoch counted) {dispatch : Dispatch}
    {outcome : Outcome} {rest : Standing}
    (hstanding : t.standing = (.ready, .conclude index dispatch (.returns outcome)) ::ₘ rest) :
    ∃ counted, Accounted own epoch counted { t with
      lane := { t.lane with counters := dispatch.count outcome t.lane.counters }
      standing :=
        (.ready, .storeRecord index (dispatch.label outcome) (.release index)) ::ₘ rest } := by
  have hreplaced (hsuccess : outcome.success = true) := haccounted.replace
    (y := (.ready, .storeRecord index (dispatch.label outcome) (.release index))) hstanding
    (by simp) (by simp [Lane.owed?, Ending.fails, hsuccess])
  cases hsuccess : outcome.success with
  | true =>
    have hcount : dispatch.count outcome t.lane.counters = t.lane.counters.recordSuccess := by
      simp [Dispatch.count, hsuccess]
    rw [hcount]
    exact ⟨counted, { hreplaced hsuccess with }⟩
  | false =>
    have hcount : dispatch.count outcome t.lane.counters =
        t.lane.counters.recordFailure dispatch.step := by
      simp [Dispatch.count, hsuccess]
    refine ⟨⟨dispatch.step, t.clock.now⟩ ::ₘ counted, {
      plan := haccounted.plan
      context := haccounted.context
      clock := haccounted.clock
      steps := (length_count _ _ _).trans haccounted.steps
      unasked := fun x hx => ?_
      counts := fun step hstep => ?_
      past := fun failure hmem => ?_
      ledger := ?_ }⟩
    · rcases Multiset.mem_cons.mp hx with rfl | hmem
      · simp
      · exact haccounted.unasked x (by rw [hstanding]; exact Multiset.mem_cons_of_mem hmem)
    · rw [hcount, failedAt_recordFailure _ _ (by rwa [haccounted.steps]),
        haccounted.counts step hstep, Multiset.countP_cons]
    · rcases Multiset.mem_cons.mp hmem with rfl | hmem
      · exact le_rfl
      · exact haccounted.past failure hmem
    · have hnothing : own.owed t.clock
          ((.ready, .storeRecord index (dispatch.label outcome) (.release index)) ::ₘ rest) =
            own.owed t.clock rest := owed_cons_none rfl rest
      rw [haccounted.ledger, hstanding, hnothing, Multiset.cons_add, ← Multiset.add_cons]
      congr 1
      exact Multiset.filterMap_cons_some _ _ _ (by simp [Lane.owed?, Ending.fails, hsuccess,
        Place.time])

/-- The turn of the driver: the failure of a slot that is fired is owed from then on. -/
theorem drive (haccounted : t.Accounted own epoch counted) {point : Driver.Point}
    {s : Driver.State} {rest : Standing}
    (hstanding : t.standing = (.ready, .drive index point s) ::ₘ rest) :
    Accounted own epoch counted ({ t with standing := rest }.drive index
      (Driver.turn t.lane.plan t.clock t.lane.counters point s)) := by
  have hfailed := Driver.turn_failedByStep t.lane.plan t.clock t.lane.counters point s
  have hcases := Driver.turn_issue_cases t.lane.plan t.clock t.lane.counters point s
  have hledger : own.failures epoch t.issues = counted + own.owed t.clock rest := by
    rw [haccounted.ledger, hstanding]
    exact congrArg (counted + ·) (owed_cons_none rfl rest)
  generalize Driver.turn t.lane.plan t.clock t.lane.counters point s = turn at hfailed hcases
  refine {
    plan := (move_plan _ _ _ _).trans haccounted.plan
    context := (move_context _ _ _ _).trans haccounted.context
    clock := (congrArg Clock.epoch (move_clock _ _ _ _)).trans haccounted.clock
    steps := ?_
    unasked := fun x hx => ?_
    counts := fun step hstep => ?_
    past := fun failure hmem => ?_
    ledger := ?_ }
  · rw [Track.drive, move_counters]
    exact (congrArg List.length hfailed).trans haccounted.steps
  · rcases unasked_move hx with hmem | hunasked
    · exact haccounted.unasked x (by rw [hstanding]; exact Multiset.mem_cons_of_mem hmem)
    · exact hunasked
  · rw [Track.drive, move_counters]
    exact (failedAt_congr hfailed step).trans (haccounted.counts step hstep)
  · rw [Track.drive, move_clock]
    exact haccounted.past failure hmem
  · rw [Track.drive, move_issues, move_clock, failures_append, hledger, add_assoc]
    congr 1
    rcases hcases with ⟨hissue, hlaunch, -⟩ | ⟨due, dispatch, hissue, hmove, hfires⟩ |
      ⟨due, hissue, hmove⟩
    · rw [owed_move hlaunch, hissue]
      exact add_zero _
    · have hfails : own.failure? epoch (Driver.issueOf t.lane.plan t.clock due (some dispatch)) =
          own.owed? t.clock (.ready, .attempt index dispatch) := by
        simp [Lane.failure?, Lane.owed?, Driver.issueOf, hfires.step, ← haccounted.clock]
      rw [hmove, hissue, owed_launch, owed_cons, Option.bind_some, hfails]
    · rw [hmove, owed_move (by simp), hissue]
      exact add_zero _

/-- As time passes or tasks go on, what is owed stays owed for the same time. -/
theorem map (haccounted : t.Accounted own epoch counted) {f : Place × Task → Place × Task}
    (htask : ∀ x, (f x).2 = x.2) {clock : Clock} (hepoch : clock.epoch = t.clock.epoch)
    (hlater : t.clock.now ≤ clock.now)
    (hsame : ∀ x ∈ t.standing, own.owed? clock (f x) = own.owed? t.clock x) :
    Accounted own epoch counted { t with clock := clock, standing := t.standing.map f } where
  plan := haccounted.plan
  context := haccounted.context
  clock := hepoch.trans haccounted.clock
  steps := haccounted.steps
  unasked y hy := by
    obtain ⟨x, hx, rfl⟩ := Multiset.mem_map.mp hy
    rw [htask]
    exact haccounted.unasked x hx
  counts := haccounted.counts
  past failure hmem := (haccounted.past failure hmem).trans hlater
  ledger := haccounted.ledger.trans (congrArg (counted + ·) (owed_map hsame).symm)

/-- Whatever happens in a lane, its failures stay accounted for. -/
theorem step (haccounted : t.Accounted own epoch counted) (hwaits : own.context.invoker.Waits)
    (horderly : t.Orderly index) {t' : Track} {mine : Bool} (hstep : Step index mine t t') :
    ∃ counted, t'.Accounted own epoch counted := by
  cases hstep with
  | drive hstanding => exact ⟨counted, haccounted.drive hstanding⟩
  | proceed hstanding hproceeds =>
    have hrequest (dispatch : Dispatch) :
        View.request t.lane dispatch = View.request own dispatch := by
      simp only [View.request, haccounted.plan, haccounted.context]
    cases hproceeds with
    | executes hattempt =>
      rw [haccounted.context, hrequest] at hattempt
      exact ⟨counted, haccounted.replace hstanding (by simp [View.executing])
        (owed?_executing index hattempt _)⟩
    | consults hattempt =>
      obtain ⟨execution, hexecutes⟩ := hwaits (View.request t.lane _) t.clock
      rw [haccounted.context, hexecutes] at hattempt
      exact absurd hattempt (by simp)
    | unheard hattempt =>
      obtain ⟨execution, hexecutes⟩ := hwaits (View.request t.lane _) t.clock
      rw [haccounted.context, hexecutes] at hattempt
      exact absurd hattempt (by simp)
    | answered => exact (haccounted.not_answered hstanding).elim
  | answer hstanding => exact (haccounted.not_answered hstanding).elim
  | panic hstanding => exact ⟨counted, haccounted.replace hstanding (by simp) rfl⟩
  | publish hstanding => exact haccounted.publish hstanding
  | @deliver _ place task x rest hstanding _ hdelivers =>
    obtain ⟨hallowed, -⟩ := horderly.first hstanding
    have hnext := hdelivers.awaited? hallowed
    refine ⟨counted, haccounted.replace hstanding (fun lane dispatch reply begin hasked => ?_) ?_⟩
    · rw [hasked] at hnext
      exact absurd hnext (by simp [Task.awaited?])
    · rw [owed?_of_awaited? hnext]
      exact (owed?_of_awaited? (x := (place, task)) hdelivers.awaited?_store).symm
  | @release _ rest hstanding =>
    refine ⟨counted, haccounted.settle rest (fun x hx => .inl ?_) ?_ _⟩
    · rw [hstanding]
      exact Multiset.mem_cons_of_mem hx
    · rw [hstanding]
      exact (owed_cons_none rfl rest).symm
  | @resume _ point s rest hstanding =>
    refine ⟨counted, haccounted.settle ((.ready, .drive index point s) ::ₘ rest)
      (fun x hx => ?_) ?_ _⟩
    · rcases Multiset.mem_cons.mp hx with rfl | hmem
      · exact .inr (by simp)
      · left
        rw [hstanding]
        exact Multiset.mem_cons_of_mem (Multiset.mem_cons_of_mem hmem)
    · calc own.owed t.clock ((.ready, .drive index point s) ::ₘ rest)
          = own.owed t.clock rest := owed_cons_none rfl rest
        _ = own.owed t.clock ((.held, .drive index point s) ::ₘ rest) :=
          (owed_cons_none rfl rest).symm
        _ = own.owed t.clock t.standing := by
          rw [hstanding]
          exact (owed_cons_none rfl _).symm
  | rouse =>
    refine ⟨counted, haccounted.map View.rouse_task rfl le_rfl fun x hx => ?_⟩
    obtain ⟨place, task⟩ := x
    cases place <;> cases task <;> rfl
  | tick hready hdeferred hdue hstores hlater =>
    refine ⟨counted, haccounted.map (View.wakeAt_task _) rfl hlater.le fun x hx => ?_⟩
    exact owed?_wakeAt (horderly.allowed x hx) (hready x hx) (hdeferred x hx)

end Accounted
end Track
end Replay
end TraceReplay
