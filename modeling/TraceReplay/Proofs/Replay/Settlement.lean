import TraceReplay.Proofs.Replay.Books
import TraceReplay.Proofs.Replay.Interleaving

/-!
# Slots are settled

Every slot that a lane has issued is counted, has a task that will see to it, or was lost
when its invocation panicked.  The turn of a task settles what the task owes: it counts an
outcome, leaves it to the task that follows, or panics.
-/

namespace TraceReplay

namespace Driver

/-- Slots that a driver hands on. -/
def Move.slots : Move → Nat
  | .launch .. => 1
  | .deliver .. => 1
  | _ => 0

/-- A driver hands on the slot that it issues. -/
theorem turn_slots (plan : Plan) (clock : Clock) (counters : Counters) (point : Point)
    (s : State) : (turn plan clock counters point s).move.slots =
      (turn plan clock counters point s).issue.toList.length := by
  rcases turn_issue_cases plan clock counters point s with
    ⟨hissue, hlaunch, hdeliver⟩ | ⟨due, dispatch, hissue, hmove, -⟩ | ⟨due, hissue, hmove⟩
  · rw [hissue]
    cases hmove : (turn plan clock counters point s).move with
    | launch dispatch next => exact absurd hmove (hlaunch dispatch next)
    | deliver pair next => exact absurd hmove (hdeliver pair next)
    | _ => rfl
  · rw [hissue, hmove]
    rfl
  · rw [hissue, hmove]
    rfl

end Driver

namespace Replay

/-- Outcomes of a lane that are left to the task, and to what follows it. -/
def Task.owes (index : Nat) : Task → Nat
  | .attempt lane _ => if lane = index then 1 else 0
  | .answered lane _ _ _ => if lane = index then 1 else 0
  | .conclude lane _ _ => if lane = index then 1 else 0
  | .drive lane .stored _ => if lane = index then 1 else 0
  | .drive .. => 0
  | .storeRecord _ _ next => next.owes index
  | .storeJob _ _ next => next.owes index
  | .release _ => 0
  | .collect => 0
  | .serve => 0
  | .idle => 0

/-- In its turn the task panics, as an invocation of a lane. -/
def Task.panics (index : Nat) : Task → Bool
  | .conclude lane _ .panics => lane = index
  | _ => false

def outstanding (index : Nat) (standing : Standing) : Nat := (standing.map (·.2.owes index)).sum

section Outstanding

variable {index : Nat}

theorem Task.owes_drive {lane : Nat} {point : Driver.Point} {s : Driver.State}
    (hpoint : point ≠ .stored) : (Task.drive lane point s).owes index = 0 := by
  cases point with
  | stored => exact absurd rfl hpoint
  | _ => rfl

@[simp]
theorem outstanding_cons (x : Place × Task) (standing : Standing) :
    outstanding index (x ::ₘ standing) = outstanding index standing + x.2.owes index := by
  rw [outstanding, Multiset.map_cons, Multiset.sum_cons, Nat.add_comm]
  rfl

theorem outstanding_add (left right : Standing) :
    outstanding index (left + right) = outstanding index left + outstanding index right := by
  simp [outstanding]

theorem outstanding_map {f : Place × Task → Place × Task} (htask : ∀ x, (f x).2 = x.2)
    (standing : Standing) : outstanding index (standing.map f) = outstanding index standing := by
  simp only [outstanding, Multiset.map_map, Function.comp_def, htask]

/-- Nothing is left to the services of a world. -/
theorem outstanding_ofLanes (standing : Standing) :
    outstanding index (ofLanes standing) = outstanding index standing := by
  induction standing using Multiset.induction with
  | empty => rfl
  | cons x standing ih =>
    obtain ⟨place, task⟩ := x
    cases task with
    | collect | serve | idle =>
      rw [ofLanes_cons_service rfl, outstanding_cons, ih]
      rfl
    | _ => rw [ofLanes_cons rfl, outstanding_cons, outstanding_cons, ih]

/-- Tasks in the place of others that as much is left to. -/
theorem outstanding_placed {α : Type} {f g : α → Task}
    (hsame : ∀ x, (f x).owes index = (g x).owes index) (place place' : Place) (xs : List α) :
    outstanding index (placed place (xs.map f)) = outstanding index (placed place' (xs.map g)) := by
  simp [outstanding, placed, Function.comp_def, hsame]

end Outstanding

theorem World.outstanding_view (w : World) (index : Nat) :
    outstanding index w.view.standing = outstanding index w.standing := outstanding_ofLanes _

theorem World.outstanding_of_ready {w : World} {index : Nat} {task : Task} {rest : List Task}
    (hready : w.ready = task :: rest) : outstanding index w.view.standing =
      outstanding index { w with ready := rest }.standing + task.owes index := by
  rw [outstanding_view, standing_of_ready hready, outstanding_cons]

/-- Outcomes that a lane has counted. -/
def View.outcomes (v : View) (index : Nat) : Nat := (v.lane index).elim 0 Lane.outcomes

/-- Slots that are issued are counted, left to a task or lost. -/
def View.Balanced (index lost : Nat) (v : View) : Prop :=
  (v.issuesOf index).length = v.outcomes index + outstanding index v.standing + lost

/-! ## Turns of drivers -/

section Drivers

variable {v v' : View} {index owner lost : Nat} {lane : Lane}

theorem View.outcomes_setLane (next : Lane) :
    (v.setLane owner next).outcomes index =
      if owner = index then next.outcomes else v.outcomes index := by
  by_cases hsame : owner = index
  · subst hsame
    simp [outcomes]
  · simp [outcomes, hsame, setLane_lane_ne v next (Ne.symm hsame)]

theorem View.outcomes_move (hlane : v.lane owner = some lane) (s : Driver.State)
    (move : Driver.Move) : (v.move owner lane s move).outcomes index = v.outcomes index := by
  cases move with
  | launch dispatch next =>
    refine (outcomes_setLane _).trans ?_
    split
    · rename_i hsame
      subst hsame
      simp [outcomes, hlane, Lane.outcomes]
    · rfl
  | _ => rfl

theorem View.outstanding_move {s : Driver.State} {move : Driver.Move} {point : Driver.Point}
    (hleads : move.Leads point) :
    outstanding index (v.move owner lane s move).standing =
      outstanding index v.standing + if owner = index then move.slots else 0 := by
  have hadd (place : Place) {next : Driver.Point} (hnext : next ≠ .stored) :
      outstanding index (v.add place (.drive owner next s)).standing =
        outstanding index v.standing + if owner = index then 0 else 0 := by
    rw [add, outstanding_cons, Task.owes_drive hnext, ite_self]
  cases move with
  | proceed next =>
    refine hadd _ ?_
    rcases hleads with rfl | rfl | ⟨gap, rfl⟩ <;> simp
  | sleep micros next =>
    refine hadd _ ?_
    rcases hleads.2 with rfl | ⟨gap, rfl⟩ <;> simp
  | yield next =>
    obtain rfl : next = .check := hleads
    exact hadd _ (by simp)
  | await next =>
    obtain rfl : next = .drained := hleads
    exact hadd _ (by simp)
  | launch dispatch next =>
    obtain rfl : next = .advance := hleads
    simp [View.move, View.add, setLane, Task.owes, Driver.Move.slots]
  | deliver pair next =>
    obtain rfl : next = .stored := hleads
    simp [View.move, View.add, Task.owes, Driver.Move.slots]
  | finish report => simp [View.move, Driver.Move.slots]
  | fail error => simp [View.move, Driver.Move.slots]

theorem View.outcomes_drive (turn : Driver.Turn) :
    (v.drive owner lane turn).outcomes index =
      if owner = index then { lane with counters := turn.counters }.outcomes
      else v.outcomes index :=
  (outcomes_move (setLane_lane_self _ owner _) _ _).trans (outcomes_setLane _)

theorem View.outstanding_drive {turn : Driver.Turn} {point : Driver.Point}
    (hleads : turn.move.Leads point) :
    outstanding index (v.drive owner lane turn).standing =
      outstanding index v.standing + if owner = index then turn.move.slots else 0 :=
  outstanding_move hleads

theorem View.issuesOf_drive (turn : Driver.Turn) :
    (v.drive owner lane turn).issuesOf index =
      v.issuesOf index ++ if owner = index then turn.issue.toList else [] := by
  have hmove : (v.drive owner lane turn).issuesOf index =
      { v with issues := turn.issue.toList.map (owner, ·) ++ v.issues }.issuesOf index := by
    unfold View.drive
    cases turn.move <;> rfl
  rw [hmove]
  by_cases hsame : owner = index
  · subst hsame
    rw [if_pos rfl, issuesOf_append]
  · rw [if_neg hsame, issuesOf_append_other v hsame, List.append_nil]

/-- What a driver counts in its turn was left to it. -/
theorem outcomes_turn (owner : Nat) (lane : Lane) (clock : Clock) (point : Driver.Point)
    (s : Driver.State) :
    { lane with counters :=
        (Driver.turn lane.plan clock lane.counters point s).counters }.outcomes =
      lane.outcomes + (Task.drive owner point s).owes owner := by
  by_cases hpoint : point = .stored
  · subst hpoint
    simp only [Driver.turn, Lane.outcomes, Counters.recordSuccess, Task.owes, if_true]
    omega
  · rw [Driver.turn_counters _ _ _ s hpoint, Task.owes_drive hpoint, Nat.add_zero]

/-- A driver settles what was left to it, and leaves the slot that it issues to a task. -/
theorem View.Balanced.drive (hbalanced : v.Balanced index lost) (hstep : Step (some owner) v v') :
    v'.Balanced index lost := by
  cases hstep with
  | @drive _ _ point s lane rest hstanding hlane =>
    have hleads := Driver.turn_leads lane.plan v.clock lane.counters point s
    have hslots := Driver.turn_slots lane.plan v.clock lane.counters point s
    rw [View.Balanced, hstanding, outstanding_cons] at hbalanced
    rw [View.Balanced, outcomes_drive, issuesOf_drive, outstanding_drive hleads, hslots]
    by_cases hsame : owner = index
    · subst hsame
      have houtcomes : v.outcomes owner = lane.outcomes := by simp [outcomes, hlane]
      have hissued : { v with standing := rest }.issuesOf owner = v.issuesOf owner := rfl
      simp only [if_true, outcomes_turn owner lane, hissued,
        List.length_append]
      simp only at hbalanced
      omega
    · have hnone : (Task.drive owner point s).owes index = 0 := by
        cases point <;> simp [Task.owes, hsame]
      simp only [hnone, Nat.add_zero] at hbalanced
      simp only [if_neg hsame, List.append_nil, Nat.add_zero]
      exact hbalanced

end Drivers

/-! ## Turns of others -/

namespace World

variable {w w' w'' : World} {index owner owes lost : Nat}

/-- Of two worlds, `w'` has counted what `w` and one task more have left to tasks, or leaves it
to tasks as well, apart from what is lost. -/
structure Settles (index : Nat) (w : World) (owes lost : Nat) (w' : World) : Prop where
  issues : w'.issues = w.issues
  outcomes : w'.view.outcomes index + outstanding index w'.standing + lost =
    w.view.outcomes index + outstanding index w.standing + owes

theorem outcomes_updateLane {f : Lane → Lane} (hsame : ∀ lane, (f lane).outcomes = lane.outcomes) :
    (w.updateLane owner f).view.outcomes index = w.view.outcomes index := by
  simp only [View.outcomes, view, updateLane, List.getElem?_modify]
  cases w.lanes[index]? with
  | none => rfl
  | some lane =>
    by_cases hindex : owner = index
    · simpa [hindex, Lane.unparked, Lane.outcomes] using hsame lane
    · simp [hindex, Lane.unparked, Lane.outcomes]

namespace Settles

theorem of_outstanding (hlanes : w'.lanes = w.lanes) (hissues : w'.issues = w.issues)
    (hleft : outstanding index w'.standing = outstanding index w.standing + owes) :
    Settles index w owes 0 w' where
  issues := hissues
  outcomes := by
    simp only [View.outcomes, view, hlanes, hleft]
    omega

/-- One more task stands somewhere, and what was left to the other is left to it. -/
theorem of_cons {x : Place × Task} (hlanes : w'.lanes = w.lanes) (hissues : w'.issues = w.issues)
    (hstanding : w'.standing = x ::ₘ w.standing) (howes : x.2.owes index = owes) :
    Settles index w owes 0 w' :=
  of_outstanding hlanes hissues (by rw [hstanding, outstanding_cons, howes])

theorem updateLane (hsettles : Settles index w owes lost w') {f : Lane → Lane}
    (hwaiting : ∀ lane, (f lane).waiting = lane.waiting)
    (hsame : ∀ lane, (f lane).outcomes = lane.outcomes) :
    Settles index w owes lost (w'.updateLane owner f) where
  issues := hsettles.issues
  outcomes := by
    rw [outcomes_updateLane hsame, standing_updateLane w' owner f hwaiting]
    exact hsettles.outcomes

theorem goOn (hsettles : Settles index w owes lost w') (task : Task) :
    Settles index w (owes + task.owes index) lost (w'.goOn task) where
  issues := hsettles.issues
  outcomes := by
    have houtcomes := hsettles.outcomes
    rw [standing_goOn, outstanding_cons]
    change w'.view.outcomes index + _ + _ = _
    simp only
    omega

theorem wake (hsettles : Settles index w owes lost w') (task : Task) :
    Settles index w (owes + task.owes index) lost (w'.wake task) where
  issues := hsettles.issues
  outcomes := by
    have houtcomes := hsettles.outcomes
    rw [standing_wake, outstanding_cons]
    change w'.view.outcomes index + _ + _ = _
    simp only
    omega

theorem wakeCollector (hsettles : Settles index w owes lost w') :
    Settles index w owes lost w'.wakeCollector := by
  unfold World.wakeCollector
  split
  · exact hsettles
  · exact ⟨(hsettles.wake .collect).issues, (hsettles.wake .collect).outcomes⟩

theorem wakeScheduler (hsettles : Settles index w owes lost w') :
    Settles index w owes lost w'.wakeScheduler := by
  unfold World.wakeScheduler
  split
  · exact hsettles
  · exact ⟨(hsettles.wake .serve).issues, (hsettles.wake .serve).outcomes⟩

end Settles

theorem settles_begin (owner : Nat) (dispatch : Dispatch) (execution : Execution) :
    Settles index w ((Task.attempt owner dispatch).owes index) 0
      (w.begin owner dispatch execution) := by
  unfold World.begin
  dsimp only
  split
  · exact .of_cons rfl rfl (standing_goOn (w.report _) _) rfl
  · exact .of_cons rfl rfl (standing_sleepUntil (w.report _) _ _) rfl

theorem settles_consult (owner : Nat) (dispatch : Dispatch) (request : PlacementRequest)
    (begin : Option PlacementReply → Clock → Execution) :
    Settles index w ((Task.attempt owner dispatch).owes index) 0
      (w.consult owner dispatch request begin) := by
  unfold consult
  split
  · rename_i link hask
    obtain ⟨old, hold, hask⟩ := Option.bind_eq_some_iff.mp hask
    have hcallers : link.callers.Perm
        ((⟨owner, dispatch, begin⟩ : Caller) :: w.link.elim [] Link.callers) := by
      rw [hold]
      exact Link.callers_ask? hask
    have hasked : Settles index w ((Task.attempt owner dispatch).owes index) 0
        { w with link := some link } := .of_cons rfl rfl (standing_link hcallers) rfl
    exact hasked.wakeScheduler
  · exact .of_cons rfl rfl (standing_goOn w _) rfl

theorem settles_attempt {lane : Lane} (hlane : w.lanes[owner]? = some lane)
    (dispatch : Dispatch) :
    Settles index w ((Task.attempt owner dispatch).owes index) 0 (w.attempt owner dispatch) := by
  simp only [World.attempt, lane?, hlane]
  split
  · exact settles_begin _ _ _
  · exact settles_consult _ _ _ _

theorem settles_conclude {lane : Lane} (hlane : w.lanes[owner]? = some lane)
    (dispatch : Dispatch) (ending : Ending) :
    Settles index w ((Task.conclude owner dispatch ending).owes index)
      (if (Task.conclude owner dispatch ending).panics index then 1 else 0)
      (w.conclude owner dispatch ending) := by
  cases ending with
  | panics =>
    refine ⟨rfl, ?_⟩
    simp only [conclude, standing_goOn, outstanding_cons, Task.owes, Task.panics, decide_eq_true_eq]
    rfl
  | returns outcome =>
    set counted := w.updateLane owner fun lane =>
      { lane with counters := dispatch.count outcome lane.counters } with hcounted
    have hview : counted.view = w.view.setLane owner
        { lane with counters := dispatch.count outcome lane.counters }.unparked :=
      view_updateLane (fun _ => rfl) hlane
    have hstanding : counted.standing = w.standing :=
      standing_updateLane w owner _ fun _ => rfl
    have houtcomes : counted.view.outcomes index =
        w.view.outcomes index + if owner = index then 1 else 0 := by
      rw [hview, View.outcomes_setLane]
      split
      · rename_i hsame
        subst hsame
        simp only [View.outcomes, view, hlane, Option.map_some, Option.elim_some]
        exact View.outcomes_count dispatch outcome lane.unparked
      · rfl
    refine ⟨rfl, ?_⟩
    have hgoes : outstanding index (w.conclude owner dispatch (.returns outcome)).standing =
        outstanding index w.standing := by
      rw [conclude, standing_goOn, outstanding_cons, ← hcounted, hstanding]
      rfl
    rw [hgoes]
    change counted.view.outcomes index + _ + 0 = _ + _ + if owner = index then 1 else 0
    rw [houtcomes]
    omega

theorem settles_release (owner : Nat) : Settles index w 0 0 (w.release owner) := by
  have hrefl : Settles index w 0 0 w := .of_outstanding rfl rfl rfl
  simp only [World.release]
  cases hlane : w.lane? owner with
  | none => exact hrefl
  | some lane =>
    have hleft : Settles index w 0 0 (w.updateLane owner fun other =>
        { other with inFlight := lane.inFlight - 1 }) :=
      hrefl.updateLane (fun _ => rfl) fun _ => rfl
    cases hparked : lane.waiting with
    | none => simpa only [hparked] using hleft
    | some waiting =>
      obtain ⟨point, s⟩ := waiting
      by_cases hlast : lane.inFlight - 1 = 0
      · -- The driver that waited is ready now, and as much is left to it.
        have hunparked := standing_unpark
          (f := fun other => { other with inFlight := 0, waiting := none }) (fun _ => rfl)
          hlane hparked
        have houtcomes : (w.updateLane owner fun other =>
            { other with inFlight := 0, waiting := none }).view.outcomes index =
              w.view.outcomes index := outcomes_updateLane fun _ => rfl
        simp only [hparked, hlast, if_true]
        refine ⟨rfl, ?_⟩
        rw [standing_wake, hunparked, outstanding_cons, outstanding_cons, ← houtcomes]
        rfl
      · simpa only [hparked, hlast, if_false] using hleft

theorem settles_lose (pair : RecordPair) (next : Task) :
    Settles index w (next.owes index) 0 (w.lose pair next) :=
  .of_cons rfl rfl (standing_goOn (w.report _) _) rfl

theorem settles_storeRecord (owner : Nat) (pair : RecordPair) (next : Task) :
    Settles index w (next.owes index) 0 (w.storeRecord owner pair next) := by
  unfold World.storeRecord
  split
  · exact settles_lose pair next
  · rcases w.records.send_cases ⟨owner, pair, next⟩ with
      ⟨hsend, -⟩ | ⟨hsend, -⟩ | ⟨hsend, -⟩ <;> simp only [hsend]
    · exact settles_lose pair next
    · have hqueued : Settles index w 0 0 { w with
          records := { w.records with queue := w.records.queue ++ [⟨owner, pair, next⟩] } } :=
        .of_outstanding rfl rfl rfl
      have hstored := hqueued.wakeCollector.goOn (.storeJob owner pair next)
      rwa [Nat.zero_add] at hstored
    · exact .of_cons rfl rfl (standing_waitRecord w _) rfl

theorem settles_storeJob (owner : Nat) (pair : RecordPair) (next : Task) :
    Settles index w (next.owes index) 0 (w.storeJob owner pair next) := by
  unfold World.storeJob
  split
  · exact settles_lose pair next
  · rcases w.jobs.send_cases ⟨owner, pair, next⟩ with
      ⟨hsend, -⟩ | ⟨hsend, -⟩ | ⟨hsend, -⟩ <;> simp only [hsend]
    · exact settles_lose pair next
    · have hqueued : Settles index w 0 0 { w with
          jobs := { w.jobs with queue := w.jobs.queue ++ [⟨owner, pair, next⟩] } } :=
        .of_outstanding rfl rfl rfl
      have hstored := hqueued.wakeCollector.goOn next
      rwa [Nat.zero_add] at hstored
    · exact .of_cons rfl rfl (standing_waitJob w _) rfl

theorem settles_collect : Settles index w 0 0 w.collect := by
  unfold World.collect
  rcases w.records.take?_cases with ⟨-, hnone⟩ | ⟨message, queue, -, -, htake⟩ |
    ⟨message, queue, sender, waiting, -, hwaiting, htake⟩
  · simp only [hnone]
    rcases w.jobs.take?_cases with ⟨-, hnone⟩ | ⟨message, queue, -, -, htake⟩ |
      ⟨message, queue, sender, waiting, -, hwaiting, htake⟩
    · simp only [hnone]
      exact .of_outstanding rfl rfl rfl
    · simp only [htake]
      refine .of_outstanding rfl rfl ?_
      rw [standing_goOn, outstanding_cons]
      rfl
    · simp only [htake]
      refine .of_outstanding rfl rfl ?_
      rw [standing_goOn, outstanding_cons, standing_wake, outstanding_cons,
        standing_takeJob hwaiting (queue ++ [sender]), outstanding_cons]
      rfl
  · simp only [htake]
    refine .of_outstanding rfl rfl ?_
    rw [standing_goOn, outstanding_cons]
    rfl
  · simp only [htake]
    refine .of_outstanding rfl rfl ?_
    rw [standing_goOn, outstanding_cons, standing_wake, outstanding_cons,
      standing_takeRecord hwaiting (queue ++ [sender]), outstanding_cons]
    rfl

theorem settles_serve : Settles index w 0 0 w.serve := by
  cases hreceive : w.link.bind (·.receive?) with
  | none =>
    simp only [World.serve, hreceive]
    exact .of_outstanding rfl rfl rfl
  | some received =>
    obtain ⟨answers, next⟩ := received
    obtain ⟨link, hlink, hnext⟩ := Option.bind_eq_some_iff.mp hreceive
    rw [serve_some hlink hnext]
    refine .of_outstanding rfl rfl ?_
    rw [standing_of_ready rfl, outstanding_cons, standing_ready_append { w with link := some next },
      standing_unlink hlink (Link.callers_receive? hnext), outstanding_add, outstanding_add,
      outstanding_placed (f := answeredTask) (g := fun answer => answer.1.unanswered) (fun _ => rfl)
        .ready .held]
    rfl

end World

namespace Sound

variable {w : World} {index : Nat} {task : Task} {rest : List Task}

/-- Whatever has its turn, apart from a driver, settles what was left to it. -/
theorem settles_perform (hsound : Sound w) (hready : w.ready.Perm (task :: rest))
    (hdriver : task.driver? = none) :
    World.Settles index { w with ready := rest } (task.owes index)
      (if task.panics index then 1 else 0) ({ w with ready := rest }.perform task) := by
  have hlanes {owner : Nat} (howner : task.lane? = some owner) :
      ∃ lane, { w with ready := rest }.lanes[owner]? = some lane := by
    have hlane : task.lane?.isSome := by simp [howner]
    exact (hsound.reorder hready).lane (mem_of_ready rfl hlane) howner
  cases task with
  | drive owner point s => exact absurd hdriver (by simp [Task.driver?])
  | attempt owner dispatch =>
    obtain ⟨lane, hlane⟩ := hlanes rfl
    exact World.settles_attempt hlane dispatch
  | answered owner dispatch reply begin => exact World.settles_begin owner dispatch _
  | conclude owner dispatch ending =>
    obtain ⟨lane, hlane⟩ := hlanes rfl
    exact World.settles_conclude hlane dispatch ending
  | storeRecord owner pair next => exact World.settles_storeRecord owner pair next
  | storeJob owner pair next => exact World.settles_storeJob owner pair next
  | release owner => exact World.settles_release owner
  | collect => exact World.settles_collect
  | serve => exact World.settles_serve
  | idle => exact .of_outstanding rfl rfl rfl

/-- No slot is lost in a turn but one whose invocation panics. -/
theorem balanced_turn (hsound : Sound w) (hready : w.ready.Perm (task :: rest)) {lost : Nat}
    (hbalanced : w.view.Balanced index lost) :
    ({ w with ready := rest }.perform task).view.Balanced index
      (lost + if task.panics index then 1 else 0) := by
  cases hdriver : task.driver? with
  | some owner =>
    have hturn := (hsound.turn hready).1
    rw [hdriver] at hturn
    have hcalm : task.panics index = false := by
      cases task with
      | drive => rfl
      | _ => exact absurd hdriver (by simp [Task.driver?])
    rw [hcalm]
    exact hbalanced.drive hturn
  | none =>
    obtain ⟨hissues, houtcomes⟩ : World.Settles index _ _ _ _ :=
      hsound.settles_perform hready hdriver
    have hissued : ({ w with ready := rest }.perform task).view.issuesOf index =
        w.view.issuesOf index := by
      simp only [View.issuesOf, World.view, hissues]
    have hleft : outstanding index w.view.standing =
        outstanding index { w with ready := rest }.standing + task.owes index := by
      rw [← w.view_reorder hready, World.outstanding_of_ready rfl]
    have hbefore : { w with ready := rest }.view.outcomes index = w.view.outcomes index := rfl
    rw [View.Balanced, hleft] at hbalanced
    rw [View.Balanced, hissued, World.outstanding_view]
    omega

/-- Tasks that go on owe what they outstanding before. -/
theorem balanced_shift (hsound : Sound w) {w' : World} (hshifts : w.Shifts w') {lost : Nat}
    (hbalanced : w.view.Balanced index lost) : w'.view.Balanced index lost := by
  obtain ⟨f, clock, hwakes, hview⟩ := hshifts.view hsound.toKept
  rw [hview, View.Balanced]
  simp only [View.shifted, outstanding_map hwakes.task]
  exact hbalanced

/-- In whatever order tasks have their turns, slots are counted, left to a task, or lost in
the turns in which invocations panic. -/
theorem balanced_runs (hsound : Sound w) (hbalanced : w.view.Balanced index 0) {u : World}
    {tasks : List Task} (hruns : w.Runs tasks u) :
    u.view.Balanced index (tasks.countP (·.panics index)) := by
  refine (hsound.runs (P := fun tasks u => u.view.Balanced index (tasks.countP (·.panics index)))
    hbalanced ?_ ?_ hruns).2
  · intro tasks u task rest hsound hready hbalanced
    rw [List.countP_append, List.countP_singleton]
    exact hsound.balanced_turn hready hbalanced
  · intro tasks u u' hsound hshifts hbalanced
    exact hsound.balanced_shift hshifts hbalanced

end Sound

end Replay
end TraceReplay
