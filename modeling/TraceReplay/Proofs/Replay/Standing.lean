import TraceReplay.Replay.World
import Mathlib

/-!
# Standing tasks

A task of a replay that is not over stands in one of many places: among the ready
or the deferred tasks, asleep among the timers, at a mailbox, at the link, or, for
a driver whose invocations are in flight, in its lane.  This file gathers all of
them in one multiset and says what each operation of the world does to it, so that
later files need not look into the places.
-/

namespace TraceReplay.Replay

/-- Where a task stands. -/
inductive Place where
  | ready
  | deferred
  | asleep (due : Nat)
  /-- At a mailbox, at the link or in its lane. -/
  | held
deriving DecidableEq

/-- When a task that stands in a place can go on at the earliest. -/
def Place.time (now : Nat) : Place → Nat
  | .ready => now
  | .deferred => now
  | .asleep due => due
  | .held => now

abbrev Standing := Multiset (Place × Task)

/-- The lane a task belongs to; the services of the world belong to none. -/
def Task.lane? : Task → Option Nat
  | .drive lane _ _ => some lane
  | .attempt lane _ => some lane
  | .answered lane _ _ _ => some lane
  | .conclude lane _ _ => some lane
  | .storeRecord lane _ _ => some lane
  | .storeJob lane _ _ => some lane
  | .release lane => some lane
  | .collect => none
  | .serve => none
  | .idle => none

/-- The driver that the task is, perhaps while it delivers records. -/
def Task.driving? : Task → Option (Nat × Driver.Point × Driver.State)
  | .drive lane point s => some (lane, point, s)
  | .storeRecord _ _ next => next.driving?
  | .storeJob _ _ next => next.driving?
  | .attempt .. => none
  | .answered .. => none
  | .conclude .. => none
  | .release _ => none
  | .collect => none
  | .serve => none
  | .idle => none

/-- The task of a caller that gets no answer. -/
def Caller.unanswered (caller : Caller) : Task :=
  .answered caller.lane caller.dispatch none caller.begin

def Delivery.recordTask (delivery : Delivery) : Task :=
  .storeRecord delivery.lane delivery.pair delivery.next

def Delivery.jobTask (delivery : Delivery) : Task :=
  .storeJob delivery.lane delivery.pair delivery.next

/-- Tasks that all stand in places of one kind. -/
def placed (place : Place) (tasks : List Task) : Standing :=
  (tasks.map (place, ·) : List (Place × Task))

@[simp]
theorem placed_nil (place : Place) : placed place [] = 0 := rfl

@[simp]
theorem placed_cons (place : Place) (task : Task) (tasks : List Task) :
    placed place (task :: tasks) = (place, task) ::ₘ placed place tasks := rfl

@[simp]
theorem placed_append (place : Place) (left right : List Task) :
    placed place (left ++ right) = placed place left + placed place right := by
  simp [placed]

@[simp]
theorem mem_placed {place : Place} {tasks : List Task} {x : Place × Task} :
    x ∈ placed place tasks ↔ x.1 = place ∧ x.2 ∈ tasks := by
  obtain ⟨at_, task⟩ := x
  simp [placed, and_comm, eq_comm]

/-- Sleeping tasks. -/
def sleeping (timers : List (Nat × Task)) : Standing :=
  (timers.map fun timer => (.asleep timer.1, timer.2) : List (Place × Task))

@[simp]
theorem sleeping_nil : sleeping [] = 0 := rfl

@[simp]
theorem sleeping_cons (due : Nat) (task : Task) (timers : List (Nat × Task)) :
    sleeping ((due, task) :: timers) = (.asleep due, task) ::ₘ sleeping timers := rfl

theorem sleeping_append (timers more : List (Nat × Task)) :
    sleeping (timers ++ more) = sleeping timers + sleeping more := by
  simp [sleeping]

@[simp]
theorem mem_sleeping {timers : List (Nat × Task)} {x : Place × Task} :
    x ∈ sleeping timers ↔ ∃ due, x.1 = .asleep due ∧ (due, x.2) ∈ timers := by
  obtain ⟨at_, task⟩ := x
  simp only [sleeping, Multiset.mem_coe, List.mem_map, Prod.mk.injEq, Prod.exists]
  constructor
  · rintro ⟨due, other, hmem, rfl, rfl⟩
    exact ⟨due, rfl, hmem⟩
  · rintro ⟨due, rfl, hmem⟩
    exact ⟨due, task, hmem, rfl, rfl⟩

/-- Drivers that wait in lanes, the first of which has the given place. -/
def parkedFrom : Nat → List Lane → Standing
  | _, [] => 0
  | index, lane :: lanes =>
    placed .held (lane.waiting.toList.map fun (point, s) => .drive index point s)
      + parkedFrom (index + 1) lanes

theorem parkedFrom_modify (f : Lane → Lane) (hwaiting : ∀ lane, (f lane).waiting = lane.waiting)
    (index : Nat) (lanes : List Lane) (first : Nat) :
    parkedFrom first (lanes.modify index f) = parkedFrom first lanes := by
  induction lanes generalizing index first with
  | nil => simp
  | cons lane lanes ih =>
    cases index with
    | zero => simp [parkedFrom, hwaiting]
    | succ index => simp [parkedFrom, ih]

theorem parkedFrom_modify_park {f : Lane → Lane} {point : Driver.Point} {s : Driver.State}
    (hf : ∀ lane, (f lane).waiting = some (point, s)) {index : Nat} {lanes : List Lane}
    {lane : Lane} (hlane : lanes[index]? = some lane) (hfree : lane.waiting = none)
    (first : Nat) :
    parkedFrom first (lanes.modify index f) =
      (.held, .drive (first + index) point s) ::ₘ parkedFrom first lanes := by
  induction lanes generalizing index first with
  | nil => simp at hlane
  | cons other lanes ih =>
    cases index with
    | zero =>
      obtain rfl : other = lane := by simpa using hlane
      simp [parkedFrom, hf, hfree]
    | succ index =>
      have hrest := ih (by simpa using hlane) (first + 1)
      rw [show first + 1 + index = first + (index + 1) by omega] at hrest
      simp [parkedFrom, hrest]

theorem parkedFrom_modify_unpark {f : Lane → Lane} {point : Driver.Point} {s : Driver.State}
    (hf : ∀ lane, (f lane).waiting = none) {index : Nat} {lanes : List Lane}
    {lane : Lane} (hlane : lanes[index]? = some lane) (hparked : lane.waiting = some (point, s))
    (first : Nat) :
    parkedFrom first lanes =
      (.held, .drive (first + index) point s) ::ₘ parkedFrom first (lanes.modify index f) := by
  induction lanes generalizing index first with
  | nil => simp at hlane
  | cons other lanes ih =>
    cases index with
    | zero =>
      obtain rfl : other = lane := by simpa using hlane
      simp [parkedFrom, hf, hparked]
    | succ index =>
      have hrest := ih (by simpa using hlane) (first + 1)
      rw [show first + 1 + index = first + (index + 1) by omega] at hrest
      simp [parkedFrom, hrest]

theorem mem_parkedFrom {first : Nat} {lanes : List Lane} {x : Place × Task} :
    x ∈ parkedFrom first lanes ↔
      ∃ index lane point s, lanes[index]? = some lane ∧ lane.waiting = some (point, s) ∧
        x = (.held, .drive (first + index) point s) := by
  induction lanes generalizing first with
  | nil => simp [parkedFrom]
  | cons other lanes ih =>
    simp only [parkedFrom, Multiset.mem_add, ih]
    constructor
    · rintro (hhere | ⟨index, lane, point, s, hlane, hparked, rfl⟩)
      · obtain ⟨hplace, point, s, hparked, htask⟩ : x.1 = .held ∧ ∃ point s,
            other.waiting = some (point, s) ∧ Task.drive first point s = x.2 := by
          simpa using hhere
        exact ⟨0, other, point, s, by simp, hparked, Prod.ext hplace (by simp [← htask])⟩
      · exact ⟨index + 1, lane, point, s, by simpa using hlane, hparked,
          by rw [show first + 1 + index = first + (index + 1) by omega]⟩
    · rintro ⟨index, lane, point, s, hlane, hparked, rfl⟩
      cases index with
      | zero =>
        obtain rfl : other = lane := by simpa using hlane
        left
        simp [hparked]
      | succ index =>
        right
        exact ⟨index, lane, point, s, by simpa using hlane, hparked,
          by rw [show first + 1 + index = first + (index + 1) by omega]⟩

namespace World

/-- Tasks at the mailboxes, at the link and in the lanes. -/
def heldTasks (w : World) : Standing :=
  placed .held (w.records.waiting.map Delivery.recordTask)
    + placed .held (w.jobs.waiting.map Delivery.jobTask)
    + placed .held ((w.link.elim [] Link.callers).map Caller.unanswered)
    + parkedFrom 0 w.lanes

/-- Every task of the world with its place. -/
def standing (w : World) : Standing :=
  placed .ready w.ready + placed .deferred w.deferred + sleeping w.timers + w.heldTasks

/-! ## What operations do to standing tasks -/

theorem standing_of_ready {w : World} {task : Task} {rest : List Task}
    (hready : w.ready = task :: rest) :
    w.standing = (.ready, task) ::ₘ { w with ready := rest }.standing := by
  simp [standing, heldTasks, hready]

@[simp]
theorem standing_wake (w : World) (task : Task) :
    (w.wake task).standing = (.ready, task) ::ₘ w.standing := by
  simp only [standing, heldTasks, wake, placed_append, placed_cons, placed_nil,
    ← Multiset.singleton_add]
  abel

@[simp]
theorem standing_goOn (w : World) (task : Task) :
    (w.goOn task).standing = (.ready, task) ::ₘ w.standing :=
  standing_of_ready rfl

@[simp]
theorem standing_report (w : World) (notices : List Notice) :
    (w.report notices).standing = w.standing := rfl

theorem sleeping_insertTimer (due : Nat) (task : Task) (timers : List (Nat × Task)) :
    sleeping (insertTimer due task timers) = (.asleep due, task) ::ₘ sleeping timers := by
  induction timers with
  | nil => rfl
  | cons head rest ih =>
    simp only [insertTimer]
    split
    · rfl
    · rw [sleeping_cons, sleeping_cons, ih, Multiset.cons_swap]

@[simp]
theorem standing_sleepUntil (w : World) (due : Nat) (task : Task) :
    (w.sleepUntil due task).standing = (.asleep due, task) ::ₘ w.standing := by
  simp [standing, heldTasks, sleepUntil, sleeping_insertTimer]

theorem standing_updateLane (w : World) (index : Nat) (f : Lane → Lane)
    (hwaiting : ∀ lane, (f lane).waiting = lane.waiting) :
    (w.updateLane index f).standing = w.standing := by
  simp [standing, heldTasks, updateLane, parkedFrom_modify f hwaiting]

/-- A driver waits in its lane. -/
theorem standing_park {w : World} {index : Nat} {lane : Lane}
    (hlane : w.lanes[index]? = some lane) (hfree : lane.waiting = none) (point : Driver.Point)
    (s : Driver.State) :
    (w.updateLane index fun lane => { lane with waiting := some (point, s) }).standing =
      (.held, .drive index point s) ::ₘ w.standing := by
  have hparked := parkedFrom_modify_park
    (f := fun lane => { lane with waiting := some (point, s) }) (fun _ => rfl) hlane hfree 0
  simp only [standing, heldTasks, updateLane, hparked, Nat.zero_add, Multiset.add_cons]

/-- A driver does not wait in its lane any more. -/
theorem standing_unpark {w : World} {index : Nat} {lane : Lane} {point : Driver.Point}
    {s : Driver.State} {f : Lane → Lane} (hf : ∀ lane, (f lane).waiting = none)
    (hlane : w.lanes[index]? = some lane) (hparked : lane.waiting = some (point, s)) :
    w.standing = (.held, .drive index point s) ::ₘ (w.updateLane index f).standing := by
  have hunparked := parkedFrom_modify_unpark hf hlane hparked 0
  simp only [standing, heldTasks, updateLane, hunparked, Nat.zero_add, Multiset.add_cons]

theorem standing_defer (w : World) (task : Task) :
    { w with deferred := w.deferred ++ [task] }.standing = (.deferred, task) ::ₘ w.standing := by
  simp only [standing, heldTasks, placed_append, placed_cons, placed_nil,
    ← Multiset.singleton_add]
  abel

theorem standing_waitRecord (w : World) (delivery : Delivery) :
    { w with
      records := { w.records with waiting := w.records.waiting ++ [delivery] } }.standing =
      (.held, delivery.recordTask) ::ₘ w.standing := by
  simp only [standing, heldTasks, List.map_append, List.map_cons, List.map_nil, placed_append,
    placed_cons, placed_nil, ← Multiset.singleton_add]
  abel

theorem standing_waitJob (w : World) (delivery : Delivery) :
    { w with jobs := { w.jobs with waiting := w.jobs.waiting ++ [delivery] } }.standing =
      (.held, delivery.jobTask) ::ₘ w.standing := by
  simp only [standing, heldTasks, List.map_append, List.map_cons, List.map_nil, placed_append,
    placed_cons, placed_nil, ← Multiset.singleton_add]
  abel

theorem standing_takeRecord {w : World} {sender : Delivery} {waiting : List Delivery}
    (hwaiting : w.records.waiting = sender :: waiting) (queue : List Delivery) :
    w.standing = (.held, sender.recordTask) ::ₘ
      { w with records := { w.records with queue := queue, waiting := waiting } }.standing := by
  simp only [standing, heldTasks, hwaiting, List.map_cons, placed_cons, Multiset.cons_add,
    Multiset.add_cons]

theorem standing_takeJob {w : World} {sender : Delivery} {waiting : List Delivery}
    (hwaiting : w.jobs.waiting = sender :: waiting) (queue : List Delivery) :
    w.standing = (.held, sender.jobTask) ::ₘ
      { w with jobs := { w.jobs with queue := queue, waiting := waiting } }.standing := by
  simp only [standing, heldTasks, hwaiting, List.map_cons, placed_cons, Multiset.cons_add,
    Multiset.add_cons]

/-- A caller that asks waits at the link. -/
theorem standing_link {w : World} {link : Link Caller} {caller : Caller}
    (hcallers : link.callers.Perm (caller :: w.link.elim [] Link.callers)) :
    { w with link := some link }.standing = (.held, caller.unanswered) ::ₘ w.standing := by
  have hplaced : placed .held (link.callers.map Caller.unanswered) =
      (.held, caller.unanswered) ::ₘ
        placed .held ((w.link.elim [] Link.callers).map Caller.unanswered) :=
    Multiset.coe_eq_coe.mpr ((hcallers.map _).map _)
  simp only [standing, heldTasks, Option.elim, hplaced, Multiset.add_cons, Multiset.cons_add]

/-- Callers that get an answer do not wait at the link any more. -/
theorem standing_unlink {w : World} {link next : Link Caller}
    {answers : List (Caller × Option PlacementReply)} (hlink : w.link = some link)
    (hcallers : link.callers.Perm (answers.map (·.1) ++ next.callers)) :
    w.standing = placed .held (answers.map (·.1.unanswered)) +
      { w with link := some next }.standing := by
  have hplaced : placed .held (link.callers.map Caller.unanswered) =
      placed .held (answers.map (·.1.unanswered)) +
        placed .held (next.callers.map Caller.unanswered) := by
    rw [← placed_append]
    refine Multiset.coe_eq_coe.mpr (List.Perm.map _ ?_)
    simpa [Function.comp_def] using hcallers.map Caller.unanswered
  simp only [standing, heldTasks, hlink, Option.elim, hplaced]
  abel

theorem foldl_wake {α : Type} (f : α → Task) (answers : List α) (w : World) :
    answers.foldl (fun w answer => w.wake (f answer)) w =
      { w with ready := w.ready ++ answers.map f } := by
  induction answers generalizing w with
  | nil => simp
  | cons answer answers ih =>
    rw [List.foldl_cons, ih, List.map_cons]
    simp [wake]

theorem standing_ready_append (w : World) (tasks : List Task) :
    { w with ready := w.ready ++ tasks }.standing = placed .ready tasks + w.standing := by
  simp only [standing, heldTasks, placed_append]
  abel

end World

/-- The task of a caller that gets an answer. -/
def answeredTask (answer : Caller × Option PlacementReply) : Task :=
  .answered answer.1.lane answer.1.dispatch answer.2 answer.1.begin

/-- The world in which callers go on with their answers. -/
theorem World.serve_some {w : World} {link next : Link Caller}
    {answers : List (Caller × Option PlacementReply)} (hlink : w.link = some link)
    (hreceive : link.receive? = some (answers, next)) :
    w.serve = { w with
      ready := .serve :: (w.ready ++ answers.map answeredTask), link := some next } := by
  have hwoken := foldl_wake answeredTask answers w
  simp only [answeredTask] at hwoken
  simp only [serve, hlink, Option.bind_some, hreceive, hwoken]
  rfl

end TraceReplay.Replay
