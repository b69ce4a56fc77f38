import TraceReplay.Proofs.Collector.Intake
import TraceReplay.Proofs.Replay.Housekeeping
import TraceReplay.Proofs.Replay.Orderly

/-!
# Turns as steps of views

Every turn of a world is a row of steps of its view, none for a turn in which only a
service of the world looks around.  The worlds this is said of are sound: they keep
the order they keep on their own, their tasks stand where they may, and no lane has
two drivers.
-/

namespace TraceReplay.Replay

namespace World

/-! ## Views after operations -/

section Operations

variable (w : World)

theorem view_of_ready {w : World} {task : Task} {rest : List Task}
    (hready : w.ready = task :: rest) (hlane : task.lane?.isSome) :
    w.view = { w with ready := rest }.view.add .ready task :=
  View.ext rfl (by simp [view, View.add, standing_of_ready hready, hlane])
    rfl rfl rfl rfl rfl rfl rfl

theorem view_of_service {w : World} {task : Task} {rest : List Task}
    (hready : w.ready = task :: rest) (hlane : task.lane? = none) :
    w.view = { w with ready := rest }.view :=
  View.ext rfl (by simp [view, standing_of_ready hready, hlane]) rfl rfl rfl rfl rfl rfl rfl

theorem view_wake {task : Task} (hlane : task.lane?.isSome) :
    (w.wake task).view = w.view.add .ready task :=
  View.ext rfl (by simp [view, View.add, hlane]) rfl rfl rfl rfl rfl rfl rfl

theorem view_goOn {task : Task} (hlane : task.lane?.isSome) :
    (w.goOn task).view = w.view.add .ready task :=
  View.ext rfl (by simp [view, View.add, hlane]) rfl rfl rfl rfl rfl rfl rfl

theorem view_goOn_service {task : Task} (hlane : task.lane? = none) :
    (w.goOn task).view = w.view :=
  View.ext rfl (by simp [view, hlane]) rfl rfl rfl rfl rfl rfl rfl

theorem view_sleepUntil (due : Nat) {task : Task} (hlane : task.lane?.isSome) :
    (w.sleepUntil due task).view = w.view.add (.asleep due) task :=
  View.ext rfl (by simp [view, View.add, hlane]) rfl rfl rfl rfl rfl rfl rfl

theorem view_defer {task : Task} (hlane : task.lane?.isSome) :
    { w with deferred := w.deferred ++ [task] }.view = w.view.add .deferred task :=
  View.ext rfl (by simp [view, View.add, standing_defer, hlane]) rfl rfl rfl rfl rfl rfl rfl

@[simp]
theorem view_report (notices : List Notice) : (w.report notices).view = w.view := rfl

theorem view_wake_service {task : Task} (hlane : task.lane? = none) :
    (w.wake task).view = w.view :=
  View.ext rfl (by simp [view, hlane]) rfl rfl rfl rfl rfl rfl rfl

@[simp]
theorem view_wakeCollector : w.wakeCollector.view = w.view := by
  unfold wakeCollector
  split
  · rfl
  · exact view_wake_service w rfl

@[simp]
theorem view_wakeScheduler : w.wakeScheduler.view = w.view := by
  unfold wakeScheduler
  split
  · rfl
  · exact view_wake_service w rfl

/-- The lane of a view after a change of the lane. -/
theorem lane_updateLane {w : World} {index : Nat} {lane : Lane} (f : Lane → Lane)
    (hlane : w.lanes[index]? = some lane) :
    (w.updateLane index f).view.lane = (w.view.setLane index (f lane).unparked).lane := by
  funext other
  by_cases heq : other = index
  · simp [view, View.setLane, updateLane, heq, hlane, List.getElem?_modify]
  · simp [view, View.setLane, updateLane, heq, Ne.symm heq, List.getElem?_modify,
      Function.comp_def]

theorem view_updateLane {w : World} {index : Nat} {lane : Lane} {f : Lane → Lane}
    (hwaiting : ∀ lane, (f lane).waiting = lane.waiting) (hlane : w.lanes[index]? = some lane) :
    (w.updateLane index f).view = w.view.setLane index (f lane).unparked :=
  View.ext rfl (by simp [view, View.setLane, standing_updateLane w index f hwaiting])
    (lane_updateLane f hlane) rfl rfl rfl rfl rfl rfl

/-- A driver starts to wait for its invocations. -/
theorem view_park {w : World} {index : Nat} {lane : Lane} {point : Driver.Point}
    {s : Driver.State} (hlane : w.lanes[index]? = some lane) (hfree : lane.waiting = none) :
    (w.updateLane index fun lane => { lane with waiting := some (point, s) }).view =
      (w.view.add .held (.drive index point s)) := by
  refine View.ext rfl ?_ ?_ rfl rfl rfl rfl rfl rfl
  · simp only [view, View.add, standing_park hlane hfree]
    exact ofLanes_cons rfl _
  · rw [lane_updateLane _ hlane]
    funext other
    by_cases heq : other = index
    · simp [heq, View.add, view, hlane, Lane.unparked]
    · simp [View.setLane_lane_ne _ _ heq, View.add]

/-- The last invocation of a driver that waits for it is over. -/
theorem view_unpark {w : World} {index : Nat} {lane : Lane} {point : Driver.Point}
    {s : Driver.State} {f : Lane → Lane} (hf : ∀ lane, (f lane).waiting = none)
    (hlane : w.lanes[index]? = some lane) (hparked : lane.waiting = some (point, s)) :
    w.view.standing = (.held, .drive index point s) ::ₘ (w.updateLane index f).view.standing ∧
      (w.updateLane index f).view.lane = (w.view.setLane index (f lane).unparked).lane := by
  refine ⟨?_, lane_updateLane f hlane⟩
  simp only [view, standing_unpark hf hlane hparked]
  exact ofLanes_cons rfl _

end Operations

/-! ## Turns of drivers -/

theorem lanes_updateLane {w : World} {index : Nat} {lane : Lane} (f : Lane → Lane)
    (hlane : w.lanes[index]? = some lane) : (w.updateLane index f).lanes[index]? = some (f lane) := by
  simp [updateLane, hlane]

theorem view_move {w : World} {index : Nat} {lane : Lane}
    (hlane : w.lanes[index]? = some lane) (hfree : lane.waiting = none) (s : Driver.State)
    (move : Driver.Move) : (w.move index s move).view = w.view.move index lane.unparked s move := by
  cases move with
  | proceed next => exact view_goOn w rfl
  | sleep micros next => exact view_sleepUntil w _ rfl
  | yield next => exact view_defer w rfl
  | deliver pair next => exact view_goOn w rfl
  | launch dispatch next =>
    have hset := view_updateLane (f := fun lane => { lane with inFlight := lane.inFlight + 1 })
      (fun _ => rfl) hlane
    simp only [World.move, View.move]
    rw [view_goOn _ rfl, view_wake _ rfl, hset]
    rfl
  | await next =>
    simp only [World.move, lane?, hlane, View.move]
    by_cases hidle : lane.inFlight = 0
    · simp only [hidle, Lane.unparked, if_true]
      exact view_goOn w rfl
    · simp only [hidle, Lane.unparked, if_false]
      exact view_park hlane hfree
  | finish report => rfl
  | fail error => rfl

theorem view_drive {w : World} {index : Nat} {lane : Lane} (hlane : w.lanes[index]? = some lane)
    (hfree : lane.waiting = none) (point : Driver.Point) (s : Driver.State) :
    (w.drive index point s).view = w.view.drive index lane.unparked
      (Driver.turn lane.unparked.plan w.view.clock lane.unparked.counters point s) := by
  simp only [World.drive, lane?, hlane]
  set turn := Driver.turn lane.plan w.clock lane.counters point s with hturn
  have hset := view_updateLane (w := w.report turn.notices)
    (f := fun lane => { lane with counters := turn.counters }) (fun _ => rfl) hlane
  have hissued := congrArg
    (fun v : View => { v with issues := turn.issue.toList.map (index, ·) ++ w.issues }) hset
  refine (@view_move _ index { lane with counters := turn.counters } ?_ hfree _ _).trans ?_
  · exact lanes_updateLane (w := w.report turn.notices) _ hlane
  exact congrArg (fun v : View => v.move index _ turn.state turn.move) hissued

/-! ## Turns of invocations -/

theorem view_begin (w : World) (index : Nat) (dispatch : Dispatch) (execution : Execution) :
    (w.begin index dispatch execution).view =
      { w.view with
        standing := View.executing w.clock index dispatch execution ::ₘ w.view.standing } := by
  unfold World.begin View.executing
  by_cases hdelay : execution.delay = 0
  · simp only [hdelay, if_true]
    exact view_goOn _ rfl
  · simp only [hdelay, if_false]
    exact view_sleepUntil _ _ rfl

theorem view_link {w : World} {link : Link Caller} {caller : Caller}
    (hcallers : link.callers.Perm (caller :: w.link.elim [] Link.callers)) :
    { w with link := some link }.view = w.view.add .held caller.unanswered := by
  refine View.ext rfl ?_ rfl rfl rfl rfl rfl rfl rfl
  simp only [view, View.add, standing_link hcallers]
  exact ofLanes_cons rfl _

theorem step_attempt {w : World} {index : Nat} {lane : Lane} {dispatch : Dispatch}
    (hlane : w.lanes[index]? = some lane) :
    View.Step none (w.view.add .ready (.attempt index dispatch)) (w.attempt index dispatch).view := by
  have hview : w.view.lane index = some lane.unparked := by simp [view, hlane]
  simp only [World.attempt, lane?, hlane]
  cases hattempt : lane.context.invoker.attempt (dispatch.request lane.context.promptFunctions
      lane.plan.configuration.loader lane.context.hasAdmission) w.clock with
  | execute execution =>
    rw [view_begin]
    exact .proceed rfl hview (.executes hattempt)
  | consult request begin =>
    simp only [World.consult]
    cases hask : w.link.bind (·.ask? ⟨request, ⟨index, dispatch, begin⟩⟩) with
    | none =>
      rw [view_goOn _ rfl]
      exact .proceed rfl hview (.unheard hattempt)
    | some next =>
      obtain ⟨link, hlink, hnext⟩ := Option.bind_eq_some_iff.mp hask
      have hcallers : next.callers.Perm
          ((⟨index, dispatch, begin⟩ : Caller) :: w.link.elim [] Link.callers) := by
        rw [hlink]
        exact Link.callers_ask? hnext
      rw [view_wakeScheduler, view_link hcallers]
      exact .proceed rfl hview (.consults hattempt)

theorem step_conclude {w : World} {index : Nat} {lane : Lane} {dispatch : Dispatch}
    {ending : Ending} (hlane : w.lanes[index]? = some lane) :
    View.Step none (w.view.add .ready (.conclude index dispatch ending))
      (w.conclude index dispatch ending).view := by
  have hview : w.view.lane index = some lane.unparked := by simp [view, hlane]
  cases ending with
  | panics =>
    rw [World.conclude, view_goOn _ rfl]
    exact .panic rfl
  | returns outcome =>
    have hset := view_updateLane
      (f := fun lane => { lane with counters := dispatch.count outcome lane.counters })
      (fun _ => rfl) hlane
    rw [World.conclude, view_goOn _ rfl, hset]
    exact .publish (v := w.view.add .ready (.conclude index dispatch (.returns outcome))) rfl hview

theorem mem_standing_parked {w : World} {index : Nat} {point : Driver.Point} {s : Driver.State}
    (hmem : (.held, .drive index point s) ∈ w.standing) :
    ∃ lane, w.lanes[index]? = some lane ∧ lane.waiting = some (point, s) := by
  simp only [standing, heldTasks, Multiset.mem_add, mem_placed, mem_sleeping, mem_parkedFrom,
    List.mem_map, reduceCtorEq, false_and, exists_false, false_or, true_and] at hmem
  rcases hmem with ((⟨delivery, -, htask⟩ | ⟨delivery, -, htask⟩) | ⟨caller, -, htask⟩) |
    ⟨other, lane, _, _, hlane, hparked, htask⟩
  · exact Task.noConfusion htask
  · exact Task.noConfusion htask
  · exact Task.noConfusion htask
  · simp only [Nat.zero_add, Prod.mk.injEq, Task.drive.injEq, true_and] at htask
    obtain ⟨rfl, rfl, rfl⟩ := htask
    exact ⟨lane, hlane, hparked⟩

theorem step_release {w : World} {index : Nat} {lane : Lane}
    (hlane : w.lanes[index]? = some lane) :
    View.Step none (w.view.add .ready (.release index)) (w.release index).view := by
  have hview : w.view.lane index = some lane.unparked := by simp [view, hlane]
  have hset := view_updateLane
    (f := fun other => { other with inFlight := lane.inFlight - 1 }) (fun _ => rfl) hlane
  simp only [World.release, lane?, hlane]
  cases hparked : lane.waiting with
  | none =>
    rw [hset]
    refine .release (v := w.view.add .ready (.release index)) rfl hview fun _ point s hmem => ?_
    obtain ⟨other, hother, hwaits⟩ := mem_standing_parked (mem_ofLanes.mp hmem).1
    obtain rfl : lane = other := Option.some.inj (hlane.symm.trans hother)
    simp [hparked] at hwaits
  | some waiting =>
    obtain ⟨point, s⟩ := waiting
    by_cases hlast : lane.inFlight - 1 = 0
    · simp only [hlast, if_true]
      obtain ⟨hstanding, hlanes⟩ := view_unpark
        (f := fun other => { other with inFlight := 0, waiting := none }) (fun _ => rfl)
        hlane hparked
      rw [view_wake _ rfl]
      have hready : (w.view.add .ready (.release index)).standing =
          (.ready, .release index) ::ₘ (.held, .drive index point s) ::ₘ (w.updateLane index
            fun other => { other with inFlight := 0, waiting := none }).view.standing :=
        congrArg (Multiset.cons (Place.ready, Task.release index)) hstanding
      have hstep := View.Step.resume hready hview hlast
      convert hstep using 2
      refine View.ext rfl rfl ?_ rfl rfl rfl rfl rfl rfl
      rw [hlanes, ← hlast]
      rfl
    · simp only [hlast, if_false]
      rw [hset]
      exact .release (v := w.view.add .ready (.release index)) rfl hview
        fun hzero => absurd hzero hlast

/-! ## Records on their way -/

theorem view_lose (w : World) (pair : RecordPair) {next : Task} (hnext : next.lane?.isSome) :
    (w.lose pair next).view = w.view.add .ready next :=
  view_goOn _ hnext

theorem step_storeRecord {w : World} {index : Nat} {lane : Lane} {pair : RecordPair}
    {next : Task} (hlane : w.lanes[index]? = some lane) (hnext : next.lane?.isSome) :
    View.Step none (w.view.add .ready (.storeRecord index pair next))
      (w.storeRecord index pair next).view := by
  have hview : w.view.lane index = some lane.unparked := by simp [view, hlane]
  simp only [World.storeRecord, lane?, hlane, Option.all_some]
  cases hsink : lane.sinkOpen with
  | false =>
    simp only [Bool.not_false, if_true]
    rw [view_lose _ _ hnext]
    exact .loseRecord rfl hview (.inl hsink)
  | true =>
    simp only [Bool.not_true, Bool.false_eq_true, if_false]
    rcases w.records.send_cases ⟨index, pair, next⟩ with ⟨hsend, hopen⟩ | ⟨hsend, -⟩ | ⟨hsend, -⟩
      <;> rw [hsend]
    · simp only
      rw [view_lose _ _ hnext]
      exact .loseRecord rfl hview (.inr hopen)
    · simp only
      rw [view_goOn _ rfl, view_wakeCollector]
      have hstep := View.Step.storeRecord (v := w.view.add .ready (.storeRecord index pair next))
        rfl (.inl rfl) hview hsink
      convert hstep using 1
      refine View.ext rfl rfl rfl ?_ rfl rfl rfl rfl rfl
      exact Multiset.coe_eq_coe.mpr (by simp [← List.append_assoc])
    · have hstep := View.Step.queue (v := w.view.add .ready (.storeRecord index pair next))
        rfl rfl
      convert hstep using 1
      refine View.ext rfl ?_ rfl rfl rfl rfl rfl rfl rfl
      exact (congrArg ofLanes (standing_waitRecord w ⟨index, pair, next⟩)).trans
        (ofLanes_cons rfl _)

theorem step_storeJob {w : World} {index : Nat} {lane : Lane} {pair : RecordPair}
    {next : Task} (hlane : w.lanes[index]? = some lane) (hnext : next.lane?.isSome) :
    View.Step none (w.view.add .ready (.storeJob index pair next))
      (w.storeJob index pair next).view := by
  have hview : w.view.lane index = some lane.unparked := by simp [view, hlane]
  simp only [World.storeJob, lane?, hlane, Option.all_some]
  cases hsink : lane.sinkOpen with
  | false =>
    simp only [Bool.not_false, if_true]
    rw [view_lose _ _ hnext]
    exact .loseJob rfl hview (.inl hsink)
  | true =>
    simp only [Bool.not_true, Bool.false_eq_true, if_false]
    rcases w.jobs.send_cases ⟨index, pair, next⟩ with ⟨hsend, hopen⟩ | ⟨hsend, -⟩ | ⟨hsend, -⟩
      <;> rw [hsend]
    · simp only
      rw [view_lose _ _ hnext]
      exact .loseJob rfl hview (.inr hopen)
    · simp only
      rw [view_goOn _ hnext, view_wakeCollector]
      have hstep := View.Step.storeJob (v := w.view.add .ready (.storeJob index pair next))
        rfl (.inl rfl) hview hsink
      convert hstep using 1
      refine View.ext rfl rfl rfl rfl ?_ rfl rfl rfl rfl
      exact Multiset.coe_eq_coe.mpr (by simp [← List.append_assoc])
    · have hstep := View.Step.queue (v := w.view.add .ready (.storeJob index pair next))
        rfl rfl
      convert hstep using 1
      refine View.ext rfl ?_ rfl rfl rfl rfl rfl rfl rfl
      exact (congrArg ofLanes (standing_waitJob w ⟨index, pair, next⟩)).trans
        (ofLanes_cons rfl _)

/-! ## Turns of the collector -/

theorem view_takeRecord {w : World} {sender : Delivery} {waiting : List Delivery}
    (hwaiting : w.records.waiting = sender :: waiting) (queue : List Delivery) :
    w.view.standing = (.held, .storeRecord sender.lane sender.pair sender.next) ::ₘ
      { w with records := { w.records with queue := queue, waiting := waiting } }.view.standing :=
  (congrArg ofLanes (standing_takeRecord hwaiting queue)).trans (ofLanes_cons rfl _)

theorem view_takeJob {w : World} {sender : Delivery} {waiting : List Delivery}
    (hwaiting : w.jobs.waiting = sender :: waiting) (queue : List Delivery) :
    w.view.standing = (.held, .storeJob sender.lane sender.pair sender.next) ::ₘ
      { w with jobs := { w.jobs with queue := queue, waiting := waiting } }.view.standing :=
  (congrArg ofLanes (standing_takeJob hwaiting queue)).trans (ofLanes_cons rfl _)

/-- The collector takes a record; a sender that waited for room goes on. -/
theorem steps_collect_record {w : World} (hears : w.collector.announcementOpen = true)
    (hsenders : MaySend w.lanes w.records.waiting) (htaken : w.records.queue ≠ []) :
    Relation.ReflTransGen (View.Step none) w.view w.collect.view := by
  rcases w.records.take?_cases with ⟨hempty, -⟩ | ⟨message, queue, hqueue, -, htake⟩ |
    ⟨message, queue, sender, waiting, hqueue, hwaiting, htake⟩
  · exact absurd hempty htaken
  · have haccept := Collector.accept_record (Collector.not_finished_of_open hears)
      message.pair.record
    simp only [World.collect, htake, haccept]
    rw [view_goOn_service _ rfl]
    suffices hview : _ = w.view from hview ▸ .refl
    refine View.ext rfl rfl rfl (Multiset.coe_eq_coe.mpr ?_) rfl rfl rfl rfl rfl
    simpa [hqueue] using List.perm_middle.symm
  · have haccept := Collector.accept_record (Collector.not_finished_of_open hears)
      message.pair.record
    simp only [World.collect, htake, haccept]
    rw [view_goOn_service _ rfl, view_wake _ rfl]
    obtain ⟨lane, hlane, hsink⟩ := hsenders sender (by simp [hwaiting])
    have hview : w.view.lane sender.lane = some lane.unparked := by simp [view, hlane]
    have hstep := View.Step.storeRecord (view_takeRecord hwaiting (queue ++ [sender]))
      (.inr rfl) hview hsink
    refine .single ?_
    convert hstep using 1
    refine View.ext rfl rfl rfl (Multiset.coe_eq_coe.mpr ?_) rfl rfl rfl rfl rfl
    rw [hqueue, List.map_append, List.map_cons, List.map_cons, List.map_nil, List.cons_append,
      ← List.append_assoc, ← List.cons_append]
    exact (List.perm_append_singleton _ _).trans (List.perm_middle.symm.cons _)

/-- The collector takes a job record when there is no other record to take. -/
theorem steps_collect_job {w : World} (hears : w.collector.announcementOpen = true)
    (hsenders : MaySend w.lanes w.jobs.waiting)
    (hnext : ∀ delivery ∈ w.jobs.waiting, delivery.next.lane?.isSome)
    (hempty : w.records.queue = []) (htaken : w.jobs.queue ≠ []) :
    Relation.ReflTransGen (View.Step none) w.view w.collect.view := by
  have hnone : w.records.take? = none := by simp [Mailbox.take?, hempty]
  rcases w.jobs.take?_cases with ⟨hnothing, -⟩ | ⟨message, queue, hqueue, -, htake⟩ |
    ⟨message, queue, sender, waiting, hqueue, hwaiting, htake⟩
  · exact absurd hnothing htaken
  · have haccept := Collector.accept_job (Collector.not_finished_of_open hears)
      message.pair.job
    simp only [World.collect, hnone, htake, haccept]
    rw [view_goOn_service _ rfl]
    suffices hview : _ = w.view from hview ▸ .refl
    refine View.ext rfl rfl rfl rfl (Multiset.coe_eq_coe.mpr ?_) rfl rfl rfl rfl
    simpa [hqueue] using List.perm_middle.symm
  · have haccept := Collector.accept_job (Collector.not_finished_of_open hears)
      message.pair.job
    simp only [World.collect, hnone, htake, haccept]
    rw [view_goOn_service _ rfl, view_wake _ (hnext sender (by simp [hwaiting]))]
    obtain ⟨lane, hlane, hsink⟩ := hsenders sender (by simp [hwaiting])
    have hview : w.view.lane sender.lane = some lane.unparked := by simp [view, hlane]
    have hstep := View.Step.storeJob (view_takeJob hwaiting (queue ++ [sender]))
      (.inr rfl) hview hsink
    refine .single ?_
    convert hstep using 1
    refine View.ext rfl rfl rfl rfl (Multiset.coe_eq_coe.mpr ?_) rfl rfl rfl rfl
    rw [hqueue, List.map_append, List.map_cons, List.map_cons, List.map_nil, List.cons_append,
      ← List.append_assoc, ← List.cons_append]
    exact (List.perm_append_singleton _ _).trans (List.perm_middle.symm.cons _)

theorem steps_collect {w : World} (hears : w.collector.announcementOpen = true)
    (hrecordSenders : MaySend w.lanes w.records.waiting)
    (hjobSenders : MaySend w.lanes w.jobs.waiting)
    (hnext : ∀ delivery ∈ w.jobs.waiting, delivery.next.lane?.isSome) :
    Relation.ReflTransGen (View.Step none) w.view w.collect.view := by
  by_cases hrecords : w.records.queue = []
  · by_cases hjobs : w.jobs.queue = []
    · simp only [World.collect, Mailbox.take?, hrecords, hjobs]
      exact .refl
    · exact steps_collect_job hears hjobSenders hnext hrecords hjobs
  · exact steps_collect_record hears hrecordSenders hrecords

/-! ## Turns of the scheduler -/

/-- Callers that get their answers go on. -/
theorem steps_answers (answers : List (Caller × Option PlacementReply)) (v : View)
    (rest : Standing)
    (hstanding : v.standing = placed .held (answers.map (·.1.unanswered)) + rest) :
    Relation.ReflTransGen (View.Step none) v
      { v with standing := placed .ready (answers.map answeredTask) + rest } := by
  induction answers generalizing v rest with
  | nil =>
    simp only [List.map_nil, placed_nil, zero_add] at hstanding ⊢
    rw [← hstanding]
  | cons answer answers ih =>
    simp only [List.map_cons, placed_cons, Multiset.cons_add] at hstanding ⊢
    have hstep : View.Step none v { v with
        standing := (.ready, answeredTask answer) ::ₘ
          (placed .held (answers.map (·.1.unanswered)) + rest) } := .answer hstanding
    refine .head hstep ?_
    have hsteps := ih { v with standing := (.ready, answeredTask answer) ::ₘ (_ + rest) }
      ((.ready, answeredTask answer) ::ₘ rest) (Multiset.add_cons _ _ _).symm
    rwa [Multiset.add_cons] at hsteps

theorem ofLanes_placed {place : Place} {tasks : List Task}
    (hlane : ∀ task ∈ tasks, task.lane?.isSome) : ofLanes (placed place tasks) = placed place tasks :=
  Multiset.filter_eq_self.mpr fun _ hx => hlane _ (mem_placed.mp hx).2

theorem steps_serve (w : World) : Relation.ReflTransGen (View.Step none) w.view w.serve.view := by
  cases hreceive : w.link.bind (·.receive?) with
  | none =>
    simp only [World.serve, hreceive]
    exact .refl
  | some received =>
    obtain ⟨answers, next⟩ := received
    obtain ⟨link, hlink, hnext⟩ := Option.bind_eq_some_iff.mp hreceive
    have hanswered (place : Place) (f : Caller × Option PlacementReply → Task)
        (hf : ∀ answer, (f answer).lane?.isSome) :
        ofLanes (placed place (answers.map f)) = placed place (answers.map f) :=
      ofLanes_placed fun task htask => by
        obtain ⟨answer, -, rfl⟩ := List.mem_map.mp htask
        exact hf answer
    have hsteps := steps_answers answers w.view (ofLanes { w with link := some next }.standing) (by
      rw [← hanswered .held _ fun _ => rfl, ← ofLanes_add,
        ← standing_unlink hlink (Link.callers_receive? hnext)]
      rfl)
    convert hsteps using 1
    have hserve : (Task.serve).lane? = none := rfl
    rw [serve_some hlink hnext, view_of_service rfl hserve]
    refine View.ext rfl ?_ rfl rfl rfl rfl rfl rfl rfl
    rw [← hanswered .ready answeredTask fun _ => rfl, ← ofLanes_add]
    exact congrArg ofLanes (standing_ready_append { w with link := some next } _)

end World
end TraceReplay.Replay
