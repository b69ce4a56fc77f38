import TraceReplay.Proofs.Driver.Effort
import TraceReplay.Proofs.Replay.Lanes

/-!
# Replays come to an end

Every turn of a world costs something, and what a world can still spend is bounded
before a replay starts.  So a replay to the end is one after which nothing is left to do.
-/

namespace TraceReplay

namespace Replay

section Effort

-- The plans of the lanes, which stay the same all the time.
variable (plans : Nat → Option Driver.Plan)

/-- Turns that a ready task can lead to on its own. -/
def Task.effort : Task → Nat
  | .drive lane point s => (plans lane).elim 1 (·.effort point s)
  | .attempt .. => Driver.attemptCost
  | .answered .. => 10
  | .conclude .. => 8
  | .storeRecord _ _ next => next.effort + Driver.deliveryCost
  | .storeJob _ _ next => next.effort + 3
  | .release _ => 1
  | .collect => 1
  | .serve => 1
  | .idle => 1

/-- Tasks that wait take a turn more to go on; one that waits to deliver a record has had
a turn already. -/
def effortAt : Place × Task → Nat
  | (.ready, task) => task.effort plans
  | (.held, .storeRecord _ _ next) => next.effort plans + 5
  | (.held, .storeJob _ _ next) => next.effort plans + 2
  | (_, task) => task.effort plans + 1

namespace World

/-- Messages that somebody has still to take. -/
def messages (w : World) : Nat :=
  w.records.queue.length + w.jobs.queue.length + w.link.elim 0 Link.tickets

/-- Turns that a world can still take. -/
def effort (w : World) : Nat := (w.standing.map (effortAt plans)).sum + w.messages

variable {plans} {w : World}

theorem effort_cons {w' : World} {x : Place × Task} (hstanding : w'.standing = x ::ₘ w.standing)
    (hmessages : w'.messages = w.messages) :
    w'.effort plans = w.effort plans + effortAt plans x := by
  rw [effort, effort, hstanding, hmessages, Multiset.map_cons, Multiset.sum_cons]
  omega

theorem effort_congr {w' : World} (hstanding : w'.standing = w.standing)
    (hmessages : w'.messages = w.messages) : w'.effort plans = w.effort plans := by
  rw [effort, effort, hstanding, hmessages]

theorem effort_of_ready {task : Task} {rest : List Task} (hready : w.ready = task :: rest) :
    w.effort plans = ({ w with ready := rest } : World).effort plans + task.effort plans :=
  effort_cons (standing_of_ready hready) rfl

theorem effort_wake (task : Task) :
    (w.wake task).effort plans = w.effort plans + task.effort plans :=
  effort_cons (standing_wake w task) rfl

theorem effort_goOn (task : Task) :
    (w.goOn task).effort plans = w.effort plans + task.effort plans :=
  effort_cons (standing_goOn w task) rfl

theorem effort_updateLane (index : Nat) {f : Lane → Lane}
    (hwaiting : ∀ lane, (f lane).waiting = lane.waiting) :
    (w.updateLane index f).effort plans = w.effort plans :=
  effort_congr (standing_updateLane w index f hwaiting) rfl

theorem effort_wakeCollector_le : w.wakeCollector.effort plans ≤ w.effort plans + 1 := by
  unfold wakeCollector
  split
  · exact Nat.le_succ _
  · exact (effort_wake .collect).le

theorem effort_wakeScheduler_le : w.wakeScheduler.effort plans ≤ w.effort plans + 1 := by
  unfold wakeScheduler
  split
  · exact Nat.le_succ _
  · exact (effort_wake .serve).le

/-! ## What operations cost -/

theorem effort_move_le {index : Nat} {lane : Lane} (hlane : w.lanes[index]? = some lane)
    (hfree : lane.waiting = none) (s : Driver.State) (move : Driver.Move) :
    (w.move index s move).effort plans ≤ w.effort plans
      + move.effort fun next => (Task.drive index next s).effort plans := by
  cases move with
  | proceed next => exact (effort_goOn _).le
  | sleep micros next => exact (effort_cons (standing_sleepUntil w _ _) rfl).le
  | yield next => exact (effort_cons (standing_defer w _) rfl).le
  | deliver pair next => exact (effort_goOn _).le
  | launch dispatch next =>
    simp only [World.move]
    have hlane : (w.updateLane index fun lane =>
        { lane with inFlight := lane.inFlight + 1 }).effort plans = w.effort plans :=
      effort_updateLane index fun _ => rfl
    rw [effort_goOn, effort_wake, hlane]
    simp only [Driver.Move.effort, Task.effort]
    omega
  | await next =>
    simp only [World.move, lane?, hlane]
    split
    · rw [effort_goOn]
      exact Nat.le_succ _
    · exact (effort_cons (standing_park hlane hfree next s) rfl).le
  | finish report => exact le_rfl
  | fail error => exact le_rfl

theorem effort_drive_lt {index : Nat} {lane : Lane} (hlane : w.lanes[index]? = some lane)
    (hfree : lane.waiting = none) (hplan : plans index = some lane.plan) {point : Driver.Point}
    {s : Driver.State} (hin : Driver.InStep lane.plan point s) :
    (w.drive index point s).effort plans <
      w.effort plans + (Task.drive index point s).effort plans := by
  obtain ⟨hless, -⟩ := Driver.turn_effort w.clock lane.counters hin
  simp only [drive, lane?, hlane]
  generalize Driver.turn lane.plan w.clock lane.counters point s = turn at hless ⊢
  generalize hmoved : (World.mk _ _ _ _ _ _ _ _ _ _ _ _ _ _ _ _) = moved
  have hstanding : moved.standing = w.standing := by
    rw [← hmoved]
    exact standing_updateLane _ index _ fun _ => rfl
  have hlanes : moved.lanes[index]? = some { lane with counters := turn.counters } := by
    rw [← hmoved]
    simp [updateLane, report, hlane]
  have heffort : moved.effort plans = w.effort plans :=
    effort_congr hstanding (by rw [← hmoved]; rfl)
  refine lt_of_le_of_lt (effort_move_le hlanes hfree turn.state turn.move) ?_
  simp only [Task.effort, hplan, Option.elim_some, heffort]
  exact Nat.add_lt_add_left hless _

theorem effort_begin_le (index : Nat) (dispatch : Dispatch) (execution : Execution) :
    (w.begin index dispatch execution).effort plans ≤ w.effort plans + 9 := by
  unfold World.begin
  dsimp only
  split
  · rw [effort_goOn, effort_congr (standing_report w _) rfl]
    simp [Task.effort]
  · exact (effort_cons (standing_sleepUntil _ _ _) rfl).le

theorem effort_consult_le (index : Nat) (dispatch : Dispatch) (request : PlacementRequest)
    (begin : Option PlacementReply → Clock → Execution) :
    (w.consult index dispatch request begin).effort plans ≤ w.effort plans + 13 := by
  unfold consult
  split
  · rename_i link hask
    obtain ⟨old, hold, hask⟩ := Option.bind_eq_some_iff.mp hask
    refine effort_wakeScheduler_le.trans (Nat.succ_le_succ ?_)
    have hcallers : link.callers.Perm
        ((⟨index, dispatch, begin⟩ : Caller) :: w.link.elim [] Link.callers) := by
      rw [hold]
      exact Link.callers_ask? hask
    have hstanding := standing_link hcallers
    have hmessages : messages { w with link := some link } = w.messages + 1 := by
      simp only [messages, hold, Option.elim_some, Link.tickets_ask? hask]
      omega
    rw [effort, hstanding, hmessages, Multiset.map_cons, Multiset.sum_cons, effort]
    simp only [effortAt, Caller.unanswered, Task.effort]
    omega
  · rw [effort_goOn]
    simp [Task.effort]

theorem effort_attempt_lt (index : Nat) (dispatch : Dispatch) :
    (w.attempt index dispatch).effort plans <
      w.effort plans + (Task.attempt index dispatch).effort plans := by
  simp only [attempt, Task.effort, Driver.attemptCost]
  split
  · omega
  · split
    · exact Nat.lt_of_le_of_lt (effort_begin_le _ _ _) (by omega)
    · exact Nat.lt_of_le_of_lt (effort_consult_le _ _ _ _) (by omega)

theorem effort_conclude_lt (index : Nat) (dispatch : Dispatch) (ending : Ending) :
    (w.conclude index dispatch ending).effort plans <
      w.effort plans + (Task.conclude index dispatch ending).effort plans := by
  cases ending with
  | panics =>
    simp only [conclude]
    rw [effort_goOn]
    simp [Task.effort]
  | returns outcome =>
    simp only [conclude]
    have hlane : (w.updateLane index fun lane =>
        { lane with counters := dispatch.count outcome lane.counters }).effort plans =
          w.effort plans := effort_updateLane index fun _ => rfl
    rw [effort_goOn, hlane]
    simp [Task.effort, Driver.deliveryCost]

theorem effort_release_lt (index : Nat) :
    (w.release index).effort plans < w.effort plans + (Task.release index).effort plans := by
  simp only [release, Task.effort]
  cases hlane : w.lane? index with
  | none => exact Nat.lt_succ_self _
  | some lane =>
    have hset : (w.updateLane index fun other =>
        { other with inFlight := lane.inFlight - 1 }).effort plans = w.effort plans :=
      effort_updateLane index fun _ => rfl
    cases hparked : lane.waiting with
    | none =>
      simp only [hparked, hset]
      exact Nat.lt_succ_self _
    | some waiting =>
      obtain ⟨point, s⟩ := waiting
      by_cases hlast : lane.inFlight - 1 = 0
      · simp only [hparked, hlast, if_true]
        have hunparked : w.effort plans = effort plans _ + _ := effort_cons (standing_unpark
          (f := fun other => { other with inFlight := 0, waiting := none }) (fun _ => rfl)
          hlane hparked) rfl
        rw [effort_wake, hunparked]
        simp only [effortAt]
        omega
      · simp only [hparked, hlast, if_false, hset]
        exact Nat.lt_succ_self _

theorem effort_lose (pair : RecordPair) (next : Task) :
    (w.lose pair next).effort plans = w.effort plans + next.effort plans :=
  effort_goOn next

theorem effort_storeRecord_lt (index : Nat) (pair : RecordPair) (next : Task) :
    (w.storeRecord index pair next).effort plans <
      w.effort plans + (Task.storeRecord index pair next).effort plans := by
  have hlost : (w.lose pair next).effort plans = _ := effort_lose pair next
  simp only [storeRecord, Task.effort, Driver.deliveryCost]
  split
  · omega
  · rcases w.records.send_cases ⟨index, pair, next⟩ with
      ⟨hsend, -⟩ | ⟨hsend, -⟩ | ⟨hsend, -⟩ <;> simp only [hsend]
    · omega
    · rw [effort_goOn]
      refine lt_of_le_of_lt (Nat.add_le_add_right effort_wakeCollector_le _) ?_
      simp only [effort, messages, List.length_append, List.length_singleton, Task.effort]
      simp only [standing, heldTasks]
      omega
    · rw [effort_cons (standing_waitRecord w _) rfl]
      simp only [effortAt, Delivery.recordTask]
      omega

theorem effort_storeJob_lt (index : Nat) (pair : RecordPair) (next : Task) :
    (w.storeJob index pair next).effort plans <
      w.effort plans + (Task.storeJob index pair next).effort plans := by
  have hlost : (w.lose pair next).effort plans = _ := effort_lose pair next
  simp only [storeJob, Task.effort]
  split
  · omega
  · rcases w.jobs.send_cases ⟨index, pair, next⟩ with
      ⟨hsend, -⟩ | ⟨hsend, -⟩ | ⟨hsend, -⟩ <;> simp only [hsend]
    · omega
    · rw [effort_goOn]
      refine lt_of_le_of_lt (Nat.add_le_add_right effort_wakeCollector_le _) ?_
      simp only [effort, messages, List.length_append, List.length_singleton]
      simp only [standing, heldTasks]
      omega
    · rw [effort_cons (standing_waitJob w _) rfl]
      simp only [effortAt, Delivery.jobTask]
      omega

/-- A message that is taken has to be taken no more, and a sender that waited for room
has had its turn. -/
theorem effort_collect_lt : w.collect.effort plans < w.effort plans + 1 := by
  unfold collect
  rcases w.records.take?_cases with ⟨-, hnone⟩ | ⟨message, queue, hqueue, -, htake⟩ |
    ⟨message, queue, sender, waiting, hqueue, hwaiting, htake⟩
  · simp only [hnone]
    rcases w.jobs.take?_cases with ⟨-, hnone⟩ | ⟨message, queue, hqueue, -, htake⟩ |
      ⟨message, queue, sender, waiting, hqueue, hwaiting, htake⟩
    · simp only [hnone]
      exact Nat.lt_succ_self _
    · simp only [htake]
      rw [effort_goOn]
      simp only [effort, messages, hqueue, List.length_cons, Task.effort]
      simp only [standing, heldTasks]
      omega
    · simp only [htake]
      rw [effort_goOn, effort_wake]
      simp only [effort, messages, hqueue, standing_takeJob hwaiting (queue ++ [sender]),
        Multiset.map_cons, Multiset.sum_cons, effortAt, Delivery.jobTask, List.length_append,
        List.length_cons, List.length_nil, Task.effort]
      simp only [standing, heldTasks]
      omega
  · simp only [htake]
    rw [effort_goOn]
    simp only [effort, messages, hqueue, List.length_cons, Task.effort]
    simp only [standing, heldTasks]
    omega
  · simp only [htake]
    rw [effort_goOn, effort_wake]
    simp only [effort, messages, hqueue, standing_takeRecord hwaiting (queue ++ [sender]),
      Multiset.map_cons, Multiset.sum_cons, effortAt, Delivery.recordTask, List.length_append,
      List.length_cons, List.length_nil, Task.effort]
    simp only [standing, heldTasks]
    omega

theorem effort_placed_deferred (tasks : List Task) :
    ((placed .deferred tasks).map (effortAt plans)).sum =
      ((placed .ready tasks).map (effortAt plans)).sum + tasks.length := by
  induction tasks with
  | nil => rfl
  | cons task tasks ih =>
    simp only [placed_cons, Multiset.map_cons, Multiset.sum_cons, ih, effortAt, List.length_cons]
    omega

theorem effort_sleeping (timers : List (Nat × Task)) :
    ((sleeping timers).map (effortAt plans)).sum =
      ((placed .ready (timers.map (·.2))).map (effortAt plans)).sum + timers.length := by
  induction timers with
  | nil => rfl
  | cons timer timers ih =>
    obtain ⟨due, task⟩ := timer
    simp only [sleeping_cons, List.map_cons, placed_cons, Multiset.map_cons, Multiset.sum_cons, ih,
      effortAt, List.length_cons]
    omega

/-- Tasks that have let others go first have one turn behind them. -/
theorem effort_rouse (hready : w.ready = []) :
    w.effort plans = ({ w with ready := w.deferred, deferred := [] } : World).effort plans
      + w.deferred.length := by
  simp only [effort, standing, hready, placed_nil, zero_add, add_zero, Multiset.map_add,
    Multiset.sum_add, effort_placed_deferred]
  simp only [heldTasks, messages]
  omega

/-- So have tasks that have slept. -/
theorem effort_tick (hready : w.ready = []) (time due : Nat) :
    w.effort plans = ({ w with
      clock := { w.clock with now := time }
      ready := (w.timers.takeWhile (·.1 = due)).map (·.2)
      timers := w.timers.dropWhile (·.1 = due) } : World).effort plans
        + (w.timers.takeWhile (·.1 = due)).length := by
  have htimers : sleeping w.timers = sleeping (w.timers.takeWhile (·.1 = due)) +
      sleeping (w.timers.dropWhile (·.1 = due)) := by
    rw [← sleeping_append, List.takeWhile_append_dropWhile]
  simp only [effort, standing, hready, placed_nil, zero_add, htimers, Multiset.map_add,
    Multiset.sum_add, effort_sleeping]
  simp only [heldTasks, messages]
  omega

theorem effortAt_placed {place : Place} {α : Type} (f : α → Task) (effort : Nat)
    (heffort : ∀ x, effortAt plans (place, f x) = effort) (xs : List α) :
    ((placed place (xs.map f)).map (effortAt plans)).sum = xs.length * effort := by
  simp [placed, Function.comp_def, heffort]

theorem effort_serve_lt : w.serve.effort plans < w.effort plans + 1 := by
  cases hreceive : w.link.bind (·.receive?) with
  | none =>
    simp only [serve, hreceive]
    exact Nat.lt_succ_self _
  | some received =>
    obtain ⟨answers, next⟩ := received
    obtain ⟨link, hlink, hnext⟩ := Option.bind_eq_some_iff.mp hreceive
    rw [serve_some hlink hnext, effort_of_ready rfl]
    have hunlinked := standing_unlink hlink (Link.callers_receive? hnext)
    have hwoken := standing_ready_append { w with link := some next } (answers.map answeredTask)
    have htickets := Link.tickets_receive? hnext
    simp only [effort, hwoken, hunlinked, Multiset.map_add, Multiset.sum_add]
    rw [effortAt_placed _ 10 fun _ => rfl, effortAt_placed _ 11 fun _ => rfl]
    simp only [messages, hlink, Option.elim_some, Task.effort]
    omega

end World
end Effort

/-! ## Paced worlds -/

namespace Track

/-- The driver is at a slot of its step. -/
def Paced (t : Track) : Prop :=
  ∀ x ∈ t.standing, ∀ lane point s, x.2.driving? = some (lane, point, s) →
    Driver.InStep t.lane.plan point s

theorem Paced.step {index : Nat} {t t' : Track} (hpaced : t.Paced) (horderly : t.Orderly index)
    {own : Bool} (hstep : Step index own t t') : t'.Paced := by
  cases own with
  | true =>
    cases hstep with
    | @drive _ point s rest hstanding =>
      obtain ⟨-, harrives⟩ := Driver.turn_effort t.clock t.lane.counters
        (hpaced (.ready, .drive index point s) (by simp [hstanding]) index point s rfl)
      intro x hx lane other state hdriving
      simp only [Track.drive, move_plan]
      rcases mem_move hx with hmem | hnone | ⟨next, hnext, hholds⟩
      · exact hpaced x (by rw [hstanding]; exact Multiset.mem_cons_of_mem hmem) lane other
          state hdriving
      · exact absurd hnone (by simp [hdriving])
      · rw [hnext] at hdriving
        simp only [Option.some.injEq, Prod.mk.injEq] at hdriving
        obtain ⟨-, rfl, rfl⟩ := hdriving
        exact hholds _ harrives
  | false =>
    have honward := hstep.onward horderly
    intro x hx lane point s hdriving
    obtain ⟨y, hy, hsame, -⟩ := honward.driver x hx lane point s hdriving
    rw [honward.plan]
    exact hpaced y hy lane point s hsame

end Track

/-- A sound world whose drivers are where their plans allow. -/
structure Steady (plans : Nat → Option Driver.Plan) (w : World) : Prop extends Sound w where
  planned : ∀ index lane, w.view.lane index = some lane → plans index = some lane.plan
  paced : ∀ index lane, w.view.lane index = some lane → (w.view.track index lane).Paced

namespace Steady

variable {plans : Nat → Option Driver.Plan} {w w' : World}

theorem step (hsteady : Steady plans w) (hstep : w.step? = some w') : Steady plans w' := by
  obtain ⟨hturn, hsound⟩ := hsteady.toSound.step hstep
  have hsetup := (hturn.keeps (P := fun v => ∀ index, v.setup index = w.view.setup index)
    (fun _ hstep hsame index => (View.setup_step hstep index).trans (hsame index))
    hsteady.orderly fun _ => rfl).2
  have hbefore {index : Nat} {lane : Lane} (hlane : w'.view.lane index = some lane) :
      ∃ old, w.view.lane index = some old ∧ old.plan = lane.plan := by
    have hsame := hsetup index
    simp only [View.setup, hlane, Option.map_some] at hsame
    obtain ⟨old, hold, heq⟩ := Option.map_eq_some_iff.mp hsame.symm
    exact ⟨old, hold, (Prod.mk.inj heq).1⟩
  refine { hsound with
    planned := fun index lane hlane => ?_
    paced := fun index lane hlane => ?_ }
  · obtain ⟨old, hold, hplan⟩ := hbefore hlane
    rw [hsteady.planned index old hold, hplan]
  · obtain ⟨old, hold, -⟩ := hbefore hlane
    obtain ⟨lane', hlane', hpaced⟩ := hsteady.toSound.hasTrack (.single hstep)
      ⟨old, hold, hsteady.paced index old hold⟩ fun horderly hpaced => hpaced.step horderly
    obtain rfl := Option.some.inj (hlane'.symm.trans hlane)
    exact hpaced

/-- Every turn costs something. -/
theorem effort_lt (hsteady : Steady plans w) (hstep : w.step? = some w') :
    w'.effort plans < w.effort plans := by
  rcases World.step?_cases hstep with ⟨task, rest, hready, rfl⟩ | ⟨hready, hdeferred, rfl⟩ |
    ⟨due, task, rest, hready, hdeferred, htimers, rfl⟩
  · rw [World.effort_of_ready hready]
    cases task with
    | drive index point s =>
      have hmem := Sound.mem_of_ready hready rfl
      obtain ⟨lane, hlane⟩ := hsteady.toSound.lane hmem rfl
      have hview : w.view.lane index = some lane.unparked := by simp [World.view, hlane]
      have hplan : plans index = some lane.plan := hsteady.planned index lane.unparked hview
      have hin : Driver.InStep lane.plan point s :=
        hsteady.paced index lane.unparked hview _ (mem_ofLane.mpr ⟨hmem, rfl⟩) index point s rfl
      exact World.effort_drive_lt (w := { w with ready := rest }) hlane
        (hsteady.toSound.free hready hlane) hplan hin
    | attempt index dispatch => exact World.effort_attempt_lt index dispatch
    | answered index dispatch reply begin =>
      exact Nat.lt_succ_of_le (World.effort_begin_le index dispatch _)
    | conclude index dispatch ending => exact World.effort_conclude_lt index dispatch ending
    | storeRecord index pair next => exact World.effort_storeRecord_lt index pair next
    | storeJob index pair next => exact World.effort_storeJob_lt index pair next
    | release index => exact World.effort_release_lt index
    | collect => exact World.effort_collect_lt
    | serve => exact World.effort_serve_lt
    | idle => exact Nat.lt_succ_self _
  · rw [World.effort_rouse hready]
    have hpos := List.length_pos_of_ne_nil hdeferred
    omega
  · have hawake : 0 < (w.timers.takeWhile (·.1 = due)).length := by
      simp [htimers]
    rw [World.effort_tick hready (max w.clock.now due) due]
    omega

/-- With a turn for everything that can be spent a replay goes on until it is enough, or until
nothing is left to do. -/
theorem run_stops (hsteady : Steady plans w) (enough : World → Bool) {fuel : Nat}
    (hfuel : w.effort plans ≤ fuel) :
    (w.run enough fuel).isQuiet = true ∧ enough (w.run enough fuel) = true ∨
      (w.run enough fuel).step? = none := by
  induction fuel generalizing w with
  | zero =>
    cases hstep : w.step? with
    | none => exact .inr (by simpa [World.run] using hstep)
    | some next =>
      have hless := hsteady.effort_lt hstep
      omega
  | succ fuel ih =>
    by_cases henough : (w.isQuiet && enough w) = true
    · simp only [World.run, henough, if_true]
      exact .inl (Bool.and_eq_true_iff.mp henough)
    · simp only [World.run, henough, Bool.false_eq_true, if_false]
      cases hstep : w.step? with
      | none => exact .inr hstep
      | some next =>
        have hless := hsteady.effort_lt hstep
        exact ih (hsteady.step hstep) (by omega)

end Steady

/-! ## Turns there can be -/

/-- A sound world without drivers. -/
structure Driverless (w : World) : Prop extends Sound w where
  idle : ∀ x ∈ w.view.standing, x.2.driving? = none

/-- A founded world without drivers. -/
structure Unmanned (w : World) : Prop extends Founded w where
  idle : ∀ x ∈ w.view.standing, x.2.driving? = none

theorem Unmanned.driverless {w : World} (hunmanned : Unmanned w) : Driverless w :=
  ⟨hunmanned.toSound, hunmanned.idle⟩

namespace Driverless

variable {plans : Nat → Option Driver.Plan} {w : World}

/-- Only the end of an invocation follows when a record is delivered. -/
theorem next_eq_release (hdriverless : Driverless w) {place : Place} {task next : Task} {index : Nat}
    (hmem : (place, task) ∈ w.view.standing) (hnext : View.AfterStore index next)
    (hsame : task.driving? = next.driving?) : next = .release index := by
  rcases hnext with rfl | ⟨s, rfl⟩
  · rfl
  · exact absurd (hdriverless.idle _ hmem) (by rw [hsame]; simp [Task.driving?])

/-- A task that is no driver leads to few turns. -/
theorem effortAt_le (hdriverless : Driverless w) {x : Place × Task} (hx : x ∈ w.standing) :
    effortAt plans x ≤ 15 := by
  obtain ⟨place, task⟩ := x
  have hmem (hlane : task.lane?.isSome) : (place, task) ∈ w.view.standing :=
    mem_ofLanes.mpr ⟨hx, hlane⟩
  cases task with
  | drive index point s =>
    exact absurd (hdriverless.idle _ (hmem rfl)) (by simp [Task.driving?])
  | attempt index dispatch =>
    obtain rfl : place = .ready := hdriverless.orderly.allowed _ (hmem rfl)
    simp [effortAt, Task.effort, Driver.attemptCost]
  | storeRecord index pair next =>
    obtain ⟨hplace, hnext⟩ := hdriverless.orderly.allowed _ (hmem rfl)
    obtain rfl := hdriverless.next_eq_release (hmem rfl) hnext rfl
    rcases hplace with rfl | rfl <;> simp [effortAt, Task.effort, Driver.deliveryCost]
  | storeJob index pair next =>
    obtain ⟨hplace, hnext⟩ := hdriverless.orderly.allowed _ (hmem rfl)
    obtain rfl := hdriverless.next_eq_release (hmem rfl) hnext rfl
    rcases hplace with rfl | rfl <;> simp [effortAt, Task.effort]
  | _ => cases place <;> simp [effortAt, Task.effort]

theorem parked_eq_zero (hdriverless : Driverless w) : parkedFrom 0 w.lanes = 0 := by
  refine Multiset.eq_zero_of_forall_notMem fun x hx => ?_
  obtain ⟨index, lane, point, s, -, -, rfl⟩ := mem_parkedFrom.mp hx
  have hmem : (.held, .drive (0 + index) point s) ∈ w.view.standing := by
    refine mem_ofLanes.mpr ⟨?_, rfl⟩
    simp only [World.standing, World.heldTasks, Multiset.mem_add]
    exact .inr (.inr hx)
  exact absurd (hdriverless.idle _ hmem) (by simp [Task.driving?])

/-- A world without drivers can take fewer turns than it is given for its tasks. -/
theorem effort_le (hdriverless : Driverless w) :
    w.effort plans ≤ World.turnsPerSlot * w.population := by
  have hsum := Multiset.sum_le_card_nsmul (w.standing.map (effortAt plans)) 15 fun effort hmem => by
    obtain ⟨x, hx, rfl⟩ := Multiset.mem_map.mp hmem
    exact hdriverless.effortAt_le hx
  have hcard : Multiset.card w.standing + w.messages ≤ 2 * w.population := by
    have hplaced (place : Place) (tasks : List Task) :
        Multiset.card (placed place tasks) = tasks.length := by simp [placed]
    have hsleeping : Multiset.card (sleeping w.timers) = w.timers.length := by simp [sleeping]
    simp only [World.standing, World.heldTasks, Multiset.card_add, hplaced, hsleeping,
      hdriverless.parked_eq_zero, Multiset.card_zero, List.length_map, World.messages,
      World.population]
    cases w.link with
    | none =>
      simp only [Option.elim_none, List.length_nil]
      omega
    | some link =>
      simp only [Option.elim_some, Link.tickets, Link.callers, List.length_append, List.length_map]
      omega
  simp only [World.effort, World.turnsPerSlot, Multiset.card_map, smul_eq_mul] at hsum ⊢
  omega

/-- Where nobody is driven nobody is at a wrong place of a trace. -/
theorem steady (hdriverless : Driverless w) :
    Steady (fun index => (w.view.lane index).map (·.plan)) w :=
  { hdriverless.toSound with
    planned := fun index lane hlane => by simp [hlane]
    paced := fun index lane _ x hx _ _ _ hdriving =>
      absurd (hdriverless.idle x (mem_ofLane.mp hx).1) (by simp [hdriving]) }

theorem effort_le_turns (hdriverless : Driverless w) : w.effort plans ≤ w.turns := by
  refine hdriverless.effort_le.trans ?_
  simp only [World.turns, World.turnsPerSlot]
  omega

/-- The turns of a world without drivers are enough for what it has to do. -/
theorem run_stops (hdriverless : Driverless w) (enough : World → Bool) :
    (w.run enough w.turns).isQuiet = true ∧ enough (w.run enough w.turns) = true ∨
      (w.run enough w.turns).step? = none :=
  hdriverless.steady.run_stops enough hdriverless.effort_le_turns

end Driverless

/-- Starting a driver costs the turns it can take. -/
theorem World.effort_begun_le (w : World) (start : Start) {plans : Nat → Option Driver.Plan}
    (hplan : plans w.lanes.length = some start.plan) :
    (w.begun start).effort plans ≤ w.effort plans + World.turnsOf start.plan := by
  have hbegin := Driver.effort_begin_le start.plan start.specification w.clock
  have hstanding : (w.begun start).standing =
      (.ready, start.driver w.clock w.lanes.length) ::ₘ w.standing := by
    refine (World.standing_wake _ _).trans ?_
    simp [World.standing, World.heldTasks, parkedFrom_append, parkedFrom, Start.driver]
  rw [World.effort_cons hstanding rfl]
  simp only [effortAt, Start.driver, Task.effort, hplan, Option.elim_some, World.turnsOf,
    World.turnsPerSlot, Driver.slotCost] at hbegin ⊢
  omega

/-- The turns for a replay are enough for all that was there and all that is started. -/
theorem World.effort_startAll_le (w : World) (starts : List Start)
    {plans : Nat → Option Driver.Plan}
    (hplans : ∀ place start, starts[place]? = some start →
      plans (w.lanes.length + place) = some start.plan)
    (heffort : w.effort plans ≤ w.turns) : (w.startAll starts).effort plans ≤
      (w.startAll starts).turns := by
  induction starts generalizing w with
  | nil => exact heffort
  | cons start starts ih =>
    refine ih (w.begun start) (fun place other hother => ?_) ?_
    · have hplan := hplans (place + 1) other (by simpa using hother)
      rw [World.begun_lanes, List.length_append, List.length_singleton]
      rwa [Nat.add_assoc, Nat.add_comm 1]
    · have hbegun := w.effort_begun_le start (hplans 0 start rfl)
      have hturns : (w.begun start).turns = w.turns + World.turnsPerSlot + World.turnsOf start.plan := by
        simp only [World.turns, World.population, World.begun, World.start, World.wake,
          List.length_append, List.length_singleton, List.map_append, ← List.sum_eq_foldr,
          List.sum_append, List.map_cons, List.map_nil, List.sum_cons, List.sum_nil, World.turnsPerSlot]
        omega
      omega

theorem Start.track_paced (start : Start) (clock : Clock) (index : Nat) :
    (start.track clock index).Paced := by
  intro x hx lane point s hdriving
  obtain rfl := Multiset.mem_singleton.mp hx
  obtain ⟨-, rfl, rfl⟩ := Prod.mk.inj (Option.some.inj hdriving)
  exact Driver.inStep_begin start.plan start.specification clock

namespace Unmanned

variable {w : World}

/-- Every lane of a replay is one that was there, without a driver, or one with a driver
that is about to start. -/
theorem steady_startAll (hunmanned : Unmanned w) (starts : List Start) :
    Steady (fun index => ((w.startAll starts).view.lane index).map (·.plan))
      (w.startAll starts) := by
  obtain ⟨hfounded, hold, hnew⟩ := hunmanned.toFounded.startAll starts
  refine { hfounded.toSound with
    planned := fun index lane hlane => by simp [hlane]
    paced := fun index lane hlane => ?_ }
  by_cases hindex : index < w.lanes.length
  · obtain ⟨own, hown⟩ : ∃ own, w.view.lane index = some own := by
      simp [World.view, hindex]
    obtain ⟨hlane', htrack⟩ := hold index own hown
    obtain rfl := Option.some.inj (hlane'.symm.trans hlane)
    rw [htrack]
    intro x hx lane point s hdriving
    exact absurd (hunmanned.idle x (mem_ofLane.mp hx).1) (by simp [hdriving])
  · obtain ⟨place, rfl⟩ := Nat.exists_eq_add_of_le (Nat.le_of_not_lt hindex)
    obtain ⟨start, hstart⟩ : ∃ start, starts[place]? = some start := by
      simp only [World.view, World.startAll_lanes] at hlane
      rw [List.getElem?_append_right (by omega), Nat.add_sub_cancel_left] at hlane
      cases hstart : starts[place]? with
      | none => simp [hstart] at hlane
      | some start => exact ⟨start, rfl⟩
    obtain ⟨hlane', htrack⟩ := hnew place start hstart
    obtain rfl := Option.some.inj (hlane'.symm.trans hlane)
    rw [htrack]
    exact start.track_paced _ _

/-- The turns for a replay are enough for all there is to do. -/
theorem run_stops (hunmanned : Unmanned w) (starts : List Start) (enough : World → Bool) :
    let last := (w.startAll starts).run enough (w.startAll starts).turns
    last.isQuiet = true ∧ enough last = true ∨ last.step? = none := by
  obtain ⟨-, -, hnew⟩ := hunmanned.toFounded.startAll starts
  refine (hunmanned.steady_startAll starts).run_stops enough ?_
  refine w.effort_startAll_le starts (fun place start hstart => ?_)
    hunmanned.driverless.effort_le_turns
  rw [(hnew place start hstart).1]
  rfl

/-- A replay that starts in a world without drivers ends when nothing is left to do. -/
theorem runToEnd_ends (hunmanned : Unmanned w) (starts : List Start) :
    (w.startAll starts).runToEnd.step? = none := by
  rcases hunmanned.run_stops starts (fun _ => false) with ⟨-, hnever⟩ | hend
  · exact absurd hnever (by simp)
  · exact hend

end Unmanned
end Replay
end TraceReplay
