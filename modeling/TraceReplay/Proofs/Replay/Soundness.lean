import TraceReplay.Proofs.Replay.Simulation

/-!
# Sound worlds

A world is sound if it keeps its order, its tasks stand where they may and no lane has
two drivers.  Turns keep it so, and what they do to its view is a row of steps.
-/

namespace TraceReplay.Replay

/-- The first of the timers is due first. -/
theorem Kept.first_due {w : World} (hkept : Kept w) {due : Nat} {task : Task}
    {rest : List (Nat × Task)} (htimers : w.timers = (due, task) :: rest) {timer : Nat × Task}
    (htimer : timer ∈ w.timers) : due ≤ timer.1 := by
  have hsorted := hkept.sorted
  rw [htimers] at hsorted htimer
  rcases List.mem_cons.mp htimer with rfl | hmem
  · exact le_rfl
  · exact (List.pairwise_cons.mp hsorted).1 timer hmem

/-- When no task is ready the collector has taken everything. -/
theorem Kept.drained {w : World} (hkept : Kept w) (hready : w.ready = []) :
    w.records.queue = [] ∧ w.jobs.queue = [] := by
  have hquiet : ¬w.collecting = true := by
    intro htold
    have hmem := hkept.collects htold
    simp [hready] at hmem
  constructor
  · by_contra hqueue
    exact hquiet (hkept.told (.inl hqueue))
  · by_contra hqueue
    exact hquiet (hkept.told (.inr hqueue))

theorem Kept.not_isStore_held {w : World} (hkept : Kept w) (hready : w.ready = [])
    {x : Place × Task} (hheld : x ∈ w.heldTasks) : View.isStore x.2 = false := by
  have hrecords : w.records.waiting = [] := by
    by_contra hwaiting
    exact hkept.recordRoom.queue_ne_nil hwaiting (hkept.drained hready).1
  have hjobs : w.jobs.waiting = [] := by
    by_contra hwaiting
    exact hkept.jobRoom.queue_ne_nil hwaiting (hkept.drained hready).2
  simp only [World.heldTasks, hrecords, hjobs, List.map_nil, placed_nil, zero_add, Multiset.mem_add,
    mem_placed, List.mem_map, mem_parkedFrom] at hheld
  rcases hheld with ⟨-, caller, -, htask⟩ | ⟨_, _, _, _, -, -, rfl⟩
  · rw [← htask]
    rfl
  · rfl

/-- The driver that has its turn when the task has one. -/
def Task.driver? : Task → Option Nat
  | .drive lane _ _ => some lane
  | _ => none

namespace World

/-! ## Turns -/

/-- Whose turn it is, if it is a driver's. -/
def driver? (w : World) : Option Nat := w.ready.head?.bind Task.driver?

/-- Everything the next turn can be. -/
theorem step?_cases {w w' : World} (hstep : w.step? = some w') :
    (∃ task rest, w.ready = task :: rest ∧ w' = { w with ready := rest }.perform task) ∨
    (w.ready = [] ∧ w.deferred ≠ [] ∧ w' = { w with ready := w.deferred, deferred := [] }) ∨
    (∃ due task rest, w.ready = [] ∧ w.deferred = [] ∧ w.timers = (due, task) :: rest ∧
      w' = { w with
        clock := { w.clock with now := max w.clock.now due }
        ready := (w.timers.takeWhile (·.1 = due)).map (·.2)
        timers := w.timers.dropWhile (·.1 = due) }) := by
  unfold step? at hstep
  split at hstep
  · rename_i task rest hready
    exact .inl ⟨task, rest, hready, (Option.some.inj hstep).symm⟩
  rename_i hready
  split at hstep
  · rename_i task deferred hdeferred
    refine .inr (.inl ⟨hready, by simp [hdeferred], ?_⟩)
    rw [← Option.some.inj hstep, hdeferred]
  rename_i hdeferred
  split at hstep
  · rename_i due task rest htimers
    exact .inr (.inr ⟨due, task, rest, hready, hdeferred, htimers, (Option.some.inj hstep).symm⟩)
  · simp at hstep

/-- When nothing is left to do nobody is ready, stands back or sleeps. -/
theorem empty_of_end {w : World} (hend : w.step? = none) :
    w.ready = [] ∧ w.deferred = [] ∧ w.timers = [] := by
  unfold step? at hend
  split at hend
  · simp at hend
  rename_i hready
  split at hend
  · simp at hend
  rename_i hdeferred
  split at hend
  · simp at hend
  rename_i htimers
  exact ⟨hready, hdeferred, htimers⟩

/-- When nothing is left to do, all tasks that are left are held. -/
theorem standing_of_end {w : World} (hend : w.step? = none) : w.standing = w.heldTasks := by
  obtain ⟨hready, hdeferred, htimers⟩ := empty_of_end hend
  simp [standing, hready, hdeferred, htimers]

theorem ready_of_end {w : World} (hend : w.step? = none) : w.ready = [] := (empty_of_end hend).1

/-! ## Passing time -/

theorem ofLanes_map {f : Place × Task → Place × Task} (htask : ∀ x, (f x).2 = x.2)
    (standing : Standing) : ofLanes (standing.map f) = (ofLanes standing).map f := by
  rw [ofLanes, Multiset.filter_map]
  refine congrArg (Multiset.map f) (Multiset.filter_congr fun x _ => ?_)
  simp [htask]

theorem heldTasks_place {w : World} {x : Place × Task} (hmem : x ∈ w.heldTasks) :
    x.1 = .held := by
  simp only [heldTasks, Multiset.mem_add, mem_placed, mem_parkedFrom] at hmem
  rcases hmem with ((⟨hplace, -⟩ | ⟨hplace, -⟩) | ⟨hplace, -⟩) | ⟨_, _, _, _, -, -, rfl⟩
  · exact hplace
  · exact hplace
  · exact hplace
  · rfl

theorem map_heldTasks {f : Place × Task → Place × Task} (hheld : ∀ task, f (.held, task) = (.held, task))
    (w : World) : w.heldTasks.map f = w.heldTasks := by
  conv_rhs => rw [← Multiset.map_id w.heldTasks]
  refine Multiset.map_congr rfl fun x hx => ?_
  obtain ⟨place, task⟩ := x
  obtain rfl : place = .held := heldTasks_place hx
  exact hheld task

theorem map_placed {f : Place × Task → Place × Task} {place place' : Place}
    (hf : ∀ task, f (place, task) = (place', task)) (tasks : List Task) :
    (placed place tasks).map f = placed place' tasks := by
  simp [placed, Function.comp_def, hf]

theorem standing_of_quiet {w : World} (hready : w.ready = []) {x : Place × Task}
    (hmem : x ∈ w.view.standing) : x.1 ≠ .ready := by
  intro hplace
  have hstanding := (mem_ofLanes.mp hmem).1
  simp only [standing, hready, placed_nil, zero_add, Multiset.mem_add, mem_placed,
    mem_sleeping] at hstanding
  rcases hstanding with (⟨hdeferred, -⟩ | ⟨due, hasleep, -⟩) | hheld
  · exact Place.noConfusion (hplace.symm.trans hdeferred)
  · exact Place.noConfusion (hplace.symm.trans hasleep)
  · exact Place.noConfusion (hplace.symm.trans (heldTasks_place hheld))

/-- Tasks that have let others go first go on. -/
theorem step_rouse {w : World} (hready : w.ready = []) :
    View.Step none w.view { w with ready := w.deferred, deferred := [] }.view := by
  have hstep := View.Step.rouse (v := w.view) fun _ => standing_of_quiet hready
  convert hstep using 1
  refine View.ext rfl ?_ rfl rfl rfl rfl rfl rfl rfl
  have hsleeping : (sleeping w.timers).map View.rouse = sleeping w.timers := by
    simp [sleeping, Function.comp_def, View.rouse]
  change ofLanes _ = (ofLanes _).map View.rouse
  rw [← ofLanes_map View.rouse_task]
  have hroused : (placed .deferred w.deferred).map View.rouse = placed .ready w.deferred :=
    map_placed (fun _ => rfl) _
  simp only [standing, hready, placed_nil, zero_add, Multiset.map_add, hroused, hsleeping,
    map_heldTasks (f := View.rouse) (fun _ => rfl), add_zero]
  rfl

/-- The timers that are due are the first ones. -/
theorem map_sleeping {timers : List (Nat × Task)} {time : Nat}
    (hsorted : timers.Pairwise fun a b => a.1 ≤ b.1) (hdue : ∀ timer ∈ timers, time ≤ timer.1) :
    (sleeping timers).map (View.wakeAt time) =
      placed .ready ((timers.takeWhile (·.1 = time)).map (·.2))
        + sleeping (timers.dropWhile (·.1 = time)) := by
  induction timers with
  | nil => rfl
  | cons first rest ih =>
    obtain ⟨due, task⟩ := first
    obtain ⟨hfirst, hrest⟩ := List.pairwise_cons.mp hsorted
    by_cases heq : due = time
    · simp [View.wakeAt, heq, ih hrest fun timer hmem => hdue timer (List.mem_cons_of_mem _ hmem)]
    · have hlater : time < due := lt_of_le_of_ne (hdue (due, task) (by simp)) (Ne.symm heq)
      have hsame : (sleeping ((due, task) :: rest)).map (View.wakeAt time) =
          (sleeping ((due, task) :: rest)).map id := by
        refine Multiset.map_congr rfl fun x hx => ?_
        obtain ⟨other, hplace, hmem⟩ := mem_sleeping.mp hx
        obtain ⟨place, awaited⟩ := x
        obtain rfl : place = .asleep other := hplace
        have hother : other ≠ time := by
          rcases List.mem_cons.mp hmem with hhere | hmem
          · obtain ⟨rfl, -⟩ := Prod.mk.inj hhere
            exact heq
          · have hafter := hfirst _ hmem
            simp only at hafter
            omega
        simp [View.wakeAt, hother]
      rw [hsame, Multiset.map_id]
      simp [heq]

/-- The timers that are left are due later. -/
theorem later_of_mem_dropWhile {timers : List (Nat × Task)} {time : Nat}
    (hsorted : timers.Pairwise fun a b => a.1 ≤ b.1) (hdue : ∀ timer ∈ timers, time ≤ timer.1)
    {timer : Nat × Task} (hmem : timer ∈ timers.dropWhile (·.1 = time)) : time < timer.1 := by
  induction timers with
  | nil => simp at hmem
  | cons first rest ih =>
    obtain ⟨hfirst, hrest⟩ := List.pairwise_cons.mp hsorted
    have hdueRest : ∀ timer ∈ rest, time ≤ timer.1 :=
      fun timer hmem => hdue timer (List.mem_cons_of_mem _ hmem)
    by_cases heq : first.1 = time
    · rw [List.dropWhile_cons_of_pos (by simpa using heq)] at hmem
      exact ih hrest hdueRest hmem
    · rw [List.dropWhile_cons_of_neg (by simpa using heq)] at hmem
      have hlater : time < first.1 := lt_of_le_of_ne (hdue first (by simp)) (Ne.symm heq)
      rcases List.mem_cons.mp hmem with rfl | hmem
      · exact hlater
      · exact hlater.trans_le (hfirst timer hmem)

/-- Time passes to the next timer; nothing is on its way to the collector then. -/
theorem step_tick {w : World} (hkept : Kept w) (horderly : w.view.Orderly)
    (hready : w.ready = []) (hdeferred : w.deferred = []) {due : Nat} {task : Task}
    {rest : List (Nat × Task)} (htimers : w.timers = (due, task) :: rest) :
    View.Step none w.view ({ w with
      clock := { w.clock with now := max w.clock.now due }
      ready := (w.timers.takeWhile (·.1 = due)).map (·.2)
      timers := w.timers.dropWhile (·.1 = due) } : World).view := by
  have hlater : w.clock.now < due := hkept.future (due, task) (by simp [htimers])
  have hdue : ∀ timer ∈ w.timers, due ≤ timer.1 := fun _ => hkept.first_due htimers
  have hplaces {x : Place × Task} (hmem : x ∈ w.view.standing) :
      (∃ time, x.1 = .asleep time ∧ (time, x.2) ∈ w.timers) ∨ x ∈ w.heldTasks := by
    have hstanding := (mem_ofLanes.mp hmem).1
    simpa only [standing, hready, hdeferred, placed_nil, zero_add, Multiset.mem_add,
      mem_sleeping] using hstanding
  have hstep := View.Step.tick (v := w.view)
    (fun _ => standing_of_quiet hready)
    (fun x hx hplace => by
      rcases hplaces hx with ⟨time, hasleep, -⟩ | hheld
      · exact Place.noConfusion (hplace.symm.trans hasleep)
      · exact Place.noConfusion (hplace.symm.trans (heldTasks_place hheld)))
    (fun x hx time hplace => by
      rcases hplaces hx with ⟨other, hasleep, hmem⟩ | hheld
      · obtain rfl : time = other := Place.asleep.inj (hplace.symm.trans hasleep)
        exact hdue _ hmem
      · exact Place.noConfusion (hplace.symm.trans (heldTasks_place hheld)))
    (fun x hx => by
      rcases hplaces hx with ⟨time, hasleep, -⟩ | hheld
      · exact (horderly.allowed x hx).not_isStore hasleep
      · exact hkept.not_isStore_held hready hheld)
    hlater
  convert hstep using 1
  refine View.ext ?_ ?_ rfl rfl rfl rfl rfl rfl rfl
  · simp [view, Nat.max_eq_right hlater.le]
  · change ofLanes _ = (ofLanes _).map (View.wakeAt due)
    rw [← ofLanes_map (View.wakeAt_task due)]
    simp only [standing, hready, hdeferred, placed_nil, zero_add, Multiset.map_add, add_zero,
      map_sleeping hkept.sorted hdue, map_heldTasks (f := View.wakeAt due) (fun _ => rfl)]
    rfl

end World

/-! ## The order is kept -/

namespace Kept

open World

variable {w : World}

theorem pop (hkept : Kept w) {task : Task} {rest : List Task} (hready : w.ready = task :: rest)
    (hne : task ≠ .collect) : Kept { w with ready := rest } :=
  { hkept with
    collects := fun htold => by
      have hmem := hkept.collects htold
      rw [hready] at hmem
      exact (List.mem_cons.mp hmem).resolve_left (Ne.symm hne) }

theorem connect (hkept : Kept w) (link : Option (Link Caller)) : Kept { w with link := link } :=
  { hkept with }

theorem wakeScheduler (hkept : Kept w) : Kept w.wakeScheduler := by
  unfold World.wakeScheduler
  split
  · exact hkept
  · exact { hkept.wake .serve with }

theorem move (hkept : Kept w) (index : Nat) (s : Driver.State) {move : Driver.Move}
    {point : Driver.Point} (hleads : move.Leads point) : Kept (w.move index s move) := by
  cases move with
  | proceed next => exact hkept.goOn _
  | sleep micros next =>
    refine hkept.sleepUntil ?_ _
    have hmicros := hleads.1
    simp only [Clock.wakeTime]
    omega
  | yield next => exact hkept.defer _
  | deliver pair next => exact hkept.goOn _
  | launch dispatch next => exact ((hkept.updateLane index).wake _).goOn _
  | await next =>
    simp only [World.move]
    split
    · split
      · exact hkept.goOn _
      · exact hkept.updateLane index
    · exact hkept
  | finish report => exact hkept.finish _
  | fail error => exact hkept.finish _

theorem drive (hkept : Kept w) (index : Nat) (point : Driver.Point) (s : Driver.State) :
    Kept (w.drive index point s) := by
  unfold World.drive
  split
  · exact hkept
  · exact (((hkept.report _).updateLane index).issue _).move index _
      (Driver.turn_leads _ _ _ _ _)

theorem begin (hkept : Kept w) (index : Nat) (dispatch : Dispatch) (execution : Execution) :
    Kept (w.begin index dispatch execution) := by
  unfold World.begin
  split
  · exact (hkept.report _).goOn _
  · refine (hkept.report _).sleepUntil ?_ _
    simp only [World.report]
    omega

theorem attempt (hkept : Kept w) (index : Nat) (dispatch : Dispatch) :
    Kept (w.attempt index dispatch) := by
  unfold World.attempt
  split
  · exact hkept
  · dsimp only
    split
    · exact hkept.begin _ _ _
    · unfold World.consult
      split
      · exact (hkept.connect _).wakeScheduler
      · exact hkept.goOn _

theorem conclude (hkept : Kept w) (index : Nat) (dispatch : Dispatch) (ending : Ending) :
    Kept (w.conclude index dispatch ending) := by
  cases ending with
  | panics => exact hkept.goOn _
  | returns outcome => exact (hkept.updateLane index).goOn _

theorem release (hkept : Kept w) (index : Nat) : Kept (w.release index) := by
  unfold World.release
  split
  · exact hkept
  · dsimp only
    split
    · split
      · exact (hkept.updateLane index).wake _
      · exact hkept.updateLane index
    · exact hkept.updateLane index

theorem acceptRecord (hkept : Kept w) (delivery : Delivery) :
    Kept { w with
      records := { w.records with queue := w.records.queue ++ [delivery] } }.wakeCollector := by
  unfold World.wakeCollector
  split
  · rename_i hcollecting
    exact { hkept with
      recordRoom := hkept.recordRoom.accept delivery
      told := fun _ => hcollecting }
  · exact { hkept with
      recordRoom := hkept.recordRoom.accept delivery
      told := fun _ => rfl
      collects := fun _ => List.mem_append_right _ (List.mem_singleton.mpr rfl) }

theorem acceptJob (hkept : Kept w) (delivery : Delivery) :
    Kept { w with
      jobs := { w.jobs with queue := w.jobs.queue ++ [delivery] } }.wakeCollector := by
  unfold World.wakeCollector
  split
  · rename_i hcollecting
    exact { hkept with
      jobRoom := hkept.jobRoom.accept delivery
      told := fun _ => hcollecting }
  · exact { hkept with
      jobRoom := hkept.jobRoom.accept delivery
      told := fun _ => rfl
      collects := fun _ => List.mem_append_right _ (List.mem_singleton.mpr rfl) }

theorem maySend_append {lanes : List Lane} {deliveries : List Delivery} {delivery : Delivery}
    (hmay : MaySend lanes deliveries) {lane : Lane} (hlane : lanes[delivery.lane]? = some lane)
    (hsink : lane.sinkOpen = true) : MaySend lanes (deliveries ++ [delivery]) := by
  intro other hother
  rcases List.mem_append.mp hother with hmem | hmem
  · exact hmay other hmem
  · obtain rfl := List.mem_singleton.mp hmem
    exact ⟨lane, hlane, hsink⟩

theorem storeRecord (hkept : Kept w) (index : Nat) (pair : RecordPair) (next : Task) :
    Kept (w.storeRecord index pair next) := by
  unfold World.storeRecord
  cases hlane : w.lane? index with
  | none => exact (hkept.report _).goOn _
  | some lane =>
    cases hsink : lane.sinkOpen with
    | false =>
      simp only [Option.all_some, hsink, Bool.not_false, if_true]
      exact (hkept.report _).goOn _
    | true =>
      simp only [Option.all_some, hsink, Bool.not_true, Bool.false_eq_true, if_false]
      rcases w.records.send_cases ⟨index, pair, next⟩ with
        ⟨hsend, -⟩ | ⟨hsend, -⟩ | ⟨hsend, hfull⟩ <;> rw [hsend]
      · exact (hkept.report _).goOn _
      · exact (hkept.acceptRecord _).goOn _
      · exact { hkept with
          recordRoom := hkept.recordRoom.wait _ hfull
          recordSenders := maySend_append hkept.recordSenders hlane hsink }

theorem storeJob (hkept : Kept w) (index : Nat) (pair : RecordPair) (next : Task) :
    Kept (w.storeJob index pair next) := by
  unfold World.storeJob
  cases hlane : w.lane? index with
  | none => exact (hkept.report _).goOn _
  | some lane =>
    cases hsink : lane.sinkOpen with
    | false =>
      simp only [Option.all_some, hsink, Bool.not_false, if_true]
      exact (hkept.report _).goOn _
    | true =>
      simp only [Option.all_some, hsink, Bool.not_true, Bool.false_eq_true, if_false]
      rcases w.jobs.send_cases ⟨index, pair, next⟩ with
        ⟨hsend, -⟩ | ⟨hsend, -⟩ | ⟨hsend, hfull⟩ <;> rw [hsend]
      · exact (hkept.report _).goOn _
      · exact (hkept.acceptJob _).goOn _
      · exact { hkept with
          jobRoom := hkept.jobRoom.wait _ hfull
          jobSenders := maySend_append hkept.jobSenders hlane hsink }

/-- The collector looks again as long as it finds something. -/
theorem collect (hkept : Kept w) (rest : List Task) :
    Kept ({ w with ready := rest } : World).collect := by
  have hopen := Collector.not_finished_of_open hkept.hears
  unfold World.collect
  rcases w.records.take?_cases with ⟨hempty, hnone⟩ | ⟨message, queue, hqueue, hwaiting, htake⟩ |
    ⟨message, queue, sender, waiting, hqueue, hwaiting, htake⟩
  · simp only [hnone]
    rcases w.jobs.take?_cases with ⟨hnothing, hnone⟩ |
      ⟨message, queue, hqueue, hwaiting, htake⟩ |
      ⟨message, queue, sender, waiting, hqueue, hwaiting, htake⟩
    · simp only [hnone]
      exact { hkept with
        told := by simp [hempty, hnothing]
        collects := fun h => Bool.noConfusion h }
    · simp only [htake, Collector.accept_job hopen]
      exact { hkept with
        jobRoom := hkept.jobRoom.take queue hwaiting
        told := fun _ => hkept.told (.inr (by simp [hqueue]))
        collects := fun _ => List.mem_cons_self }
    · simp only [htake, Collector.accept_job hopen]
      exact { hkept with
        jobRoom := hkept.jobRoom.makeRoom hqueue hwaiting
        told := fun _ => hkept.told (.inr (by simp [hqueue]))
        collects := fun _ => List.mem_cons_self
        jobSenders := fun delivery hmem =>
          hkept.jobSenders delivery (by rw [hwaiting]; exact List.mem_cons_of_mem _ hmem) }
  · simp only [htake, Collector.accept_record hopen]
    exact { hkept with
      recordRoom := hkept.recordRoom.take queue hwaiting
      told := fun _ => hkept.told (.inl (by simp [hqueue]))
      collects := fun _ => List.mem_cons_self }
  · simp only [htake, Collector.accept_record hopen]
    exact { hkept with
      recordRoom := hkept.recordRoom.makeRoom hqueue hwaiting
      told := fun _ => hkept.told (.inl (by simp [hqueue]))
      collects := fun _ => List.mem_cons_self
      recordSenders := fun delivery hmem =>
        hkept.recordSenders delivery (by rw [hwaiting]; exact List.mem_cons_of_mem _ hmem) }

theorem serve (hkept : Kept w) : Kept w.serve := by
  cases hreceive : w.link.bind (·.receive?) with
  | none =>
    simp only [World.serve, hreceive]
    exact { hkept with }
  | some received =>
    obtain ⟨answers, next⟩ := received
    obtain ⟨link, hlink, hnext⟩ := Option.bind_eq_some_iff.mp hreceive
    rw [World.serve_some hlink hnext]
    exact { hkept with
      collects := fun htold =>
        List.mem_cons_of_mem _ (List.mem_append_left _ (hkept.collects htold)) }

end Kept
/-! ## Sound worlds -/

structure Sound (w : World) : Prop extends Kept w where
  orderly : w.view.Orderly
  single : ∀ index, w.view.drivers index ≤ 1

namespace Sound

variable {w : World}

theorem lane (hsound : Sound w) {place : Place} {task : Task}
    (hstanding : (place, task) ∈ w.view.standing) {index : Nat} (hindex : task.lane? = some index) :
    ∃ lane, w.lanes[index]? = some lane := by
  have howned := hsound.orderly.owned _ hstanding index hindex
  simpa [World.view, Option.isSome_iff_exists] using howned

/-- While the driver of a lane has its turn no driver waits in the lane. -/
theorem free (hsound : Sound w) {index : Nat} {point : Driver.Point} {s : Driver.State}
    {rest : List Task} (hready : w.ready = .drive index point s :: rest) {lane : Lane}
    (hlane : w.lanes[index]? = some lane) : lane.waiting = none := by
  by_contra hwaiting
  obtain ⟨⟨parked, other⟩, hparked⟩ := Option.ne_none_iff_exists'.mp hwaiting
  have hmem : (.held, .drive index parked other) ∈ ({ w with ready := rest } : World).view.standing := by
    refine mem_ofLanes.mpr ⟨?_, rfl⟩
    simp only [World.standing, World.heldTasks, Multiset.mem_add]
    exact .inr (.inr (mem_parkedFrom.mpr ⟨index, lane, parked, other, hlane, hparked, by simp⟩))
  have hpos : 0 < ({ w with ready := rest } : World).view.standing.countP
      (fun x => x.2.driving?.map (·.1) = some index) := Multiset.countP_pos.mpr ⟨_, hmem, rfl⟩
  have hsingle := hsound.single index
  rw [World.view_of_ready hready rfl] at hsingle
  simp only [View.drivers, View.add, Multiset.countP_cons, Task.driving?, Option.map_some,
    if_true] at hsingle
  omega

theorem next_lane (hsound : Sound w) {place : Place} {index : Nat} {pair : RecordPair} {next : Task}
    (hstanding : (place, .storeRecord index pair next) ∈ w.view.standing ∨
      (place, .storeJob index pair next) ∈ w.view.standing) : next.lane?.isSome := by
  have hnext : View.AfterStore index next := by
    rcases hstanding with hmem | hmem
    · exact (hsound.orderly.allowed _ hmem).2
    · exact (hsound.orderly.allowed _ hmem).2
  simp [hnext.lane?]

theorem mem_of_ready {task : Task} {rest : List Task} (hready : w.ready = task :: rest)
    (hlane : task.lane?.isSome) : (.ready, task) ∈ w.view.standing := by
  rw [World.view_of_ready hready hlane]
  exact Multiset.mem_cons_self _ _

/-- The turn of a task. -/
theorem perform (hsound : Sound w) {task : Task} {rest : List Task}
    (hready : w.ready = task :: rest) :
    View.Turn task.driver? w.view ({ w with ready := rest }.perform task).view ∧
      Kept ({ w with ready := rest }.perform task) := by
  have hkept := hsound.toKept
  cases task with
  | drive index point s =>
    obtain ⟨lane, hlane⟩ := hsound.lane (mem_of_ready hready rfl) rfl
    refine ⟨?_, (hkept.pop hready (by simp)).drive index point s⟩
    have hturn := World.view_drive (w := { w with ready := rest }) hlane
      (hsound.free hready hlane) point s
    rw [World.perform, hturn, World.view_of_ready hready rfl]
    exact View.Step.drive (v := View.add _ _ _) rfl (by simp [World.view, View.add, hlane])
  | attempt index dispatch =>
    obtain ⟨lane, hlane⟩ := hsound.lane (mem_of_ready hready rfl) rfl
    refine ⟨.single ?_, (hkept.pop hready (by simp)).attempt index dispatch⟩
    rw [World.view_of_ready hready rfl]
    exact World.step_attempt hlane
  | answered index dispatch reply begin =>
    obtain ⟨lane, hlane⟩ := hsound.lane (mem_of_ready hready rfl) rfl
    refine ⟨.single ?_, (hkept.pop hready (by simp)).begin _ _ _⟩
    rw [World.view_of_ready hready rfl, World.perform, World.view_begin]
    have hview : ({ w with ready := rest } : World).view.lane index = some lane.unparked := by
      simp [World.view, hlane]
    exact .proceed rfl hview .answered
  | conclude index dispatch ending =>
    obtain ⟨lane, hlane⟩ := hsound.lane (mem_of_ready hready rfl) rfl
    refine ⟨.single ?_, (hkept.pop hready (by simp)).conclude _ _ _⟩
    rw [World.view_of_ready hready rfl]
    exact World.step_conclude hlane
  | storeRecord index pair next =>
    obtain ⟨lane, hlane⟩ := hsound.lane (mem_of_ready hready rfl) rfl
    refine ⟨.single ?_, (hkept.pop hready (by simp)).storeRecord _ _ _⟩
    have hnext := hsound.next_lane (.inl (mem_of_ready hready rfl))
    rw [World.view_of_ready hready rfl]
    exact World.step_storeRecord hlane hnext
  | storeJob index pair next =>
    obtain ⟨lane, hlane⟩ := hsound.lane (mem_of_ready hready rfl) rfl
    refine ⟨.single ?_, (hkept.pop hready (by simp)).storeJob _ _ _⟩
    have hnext := hsound.next_lane (.inr (mem_of_ready hready rfl))
    rw [World.view_of_ready hready rfl]
    exact World.step_storeJob hlane hnext
  | release index =>
    obtain ⟨lane, hlane⟩ := hsound.lane (mem_of_ready hready rfl) rfl
    refine ⟨.single ?_, (hkept.pop hready (by simp)).release _⟩
    rw [World.view_of_ready hready rfl]
    exact World.step_release hlane
  | collect =>
    refine ⟨?_, hkept.collect rest⟩
    rw [World.view_of_service hready rfl]
    refine World.steps_collect hkept.hears hkept.recordSenders hkept.jobSenders
      fun delivery hmem => ?_
    have hheld : (.held, delivery.jobTask) ∈ w.view.standing := by
      refine mem_ofLanes.mpr ⟨?_, rfl⟩
      simp only [World.standing, World.heldTasks, Multiset.mem_add]
      exact .inr (.inl (.inl (.inr (mem_placed.mpr ⟨rfl, List.mem_map_of_mem hmem⟩))))
    exact hsound.next_lane (.inr hheld)
  | serve =>
    refine ⟨?_, (hkept.pop hready (by simp)).serve⟩
    rw [World.view_of_service hready rfl]
    exact World.steps_serve _
  | idle =>
    refine ⟨?_, hkept.pop hready (by simp)⟩
    rw [World.view_of_service hready rfl]
    exact .refl

/-- A turn that keeps the order of a sound world leaves it sound. -/
theorem of_turn (hsound : Sound w) {w' : World} {who : Option Nat}
    (hturn : View.Turn who w.view w'.view) (hkept : Kept w') : Sound w' := by
  have hdrivers := hturn.keeps
    (P := fun v => ∀ index, v.drivers index = w.view.drivers index)
    (fun _ hstep hsame index => (View.drivers_step hstep index).trans (hsame index))
    hsound.orderly fun _ => rfl
  exact ⟨hkept, hdrivers.1, fun index => (hdrivers.2 index).le.trans (hsound.single index)⟩

/-- What one turn does to the view; it leaves a sound world. -/
theorem step (hsound : Sound w) {w' : World} (hstep : w.step? = some w') :
    View.Turn w.driver? w.view w'.view ∧ Sound w' := by
  suffices hturn : View.Turn w.driver? w.view w'.view ∧ Kept w' from
    ⟨hturn.1, hsound.of_turn hturn.1 hturn.2⟩
  have hkept := hsound.toKept
  rcases World.step?_cases hstep with ⟨task, rest, hready, rfl⟩ | ⟨hready, -, rfl⟩ |
    ⟨due, task, rest, hready, hdeferred, htimers, rfl⟩
  · have hdriver : w.driver? = task.driver? := by rw [World.driver?, hready]; rfl
    rw [hdriver]
    exact hsound.perform hready
  · have hdriver : w.driver? = none := by rw [World.driver?, hready]; rfl
    rw [hdriver]
    refine ⟨.single (World.step_rouse hready), { hkept with collects := fun htold => ?_ }⟩
    have hmem := hkept.collects htold
    simp [hready] at hmem
  · have hdriver : w.driver? = none := by rw [World.driver?, hready]; rfl
    rw [hdriver]
    refine ⟨.single (World.step_tick hkept hsound.orderly hready hdeferred htimers), ?_⟩
    exact { hkept with
      collects := fun htold => by
        have hmem := hkept.collects htold
        simp [hready] at hmem
      sorted := hkept.sorted.sublist (List.dropWhile_sublist _)
      future := by
        intro timer htimer
        have hlater : w.clock.now < due := hkept.future (due, task) (by simp [htimers])
        simp only [Nat.max_eq_right hlater.le]
        exact World.later_of_mem_dropWhile hkept.sorted (fun _ => hkept.first_due htimers) htimer }

end Sound

/-! ## Whole replays -/

namespace World

/-- One world comes to be the other by turns. -/
def Passes : World → World → Prop := Relation.ReflTransGen fun w w' => w.step? = some w'

/-- Whatever holds at the start and is kept by every turn holds at the end. -/
theorem run_passes (enough : World → Bool) (fuel : Nat) (w : World) :
    w.Passes (w.run enough fuel) := by
  induction fuel generalizing w with
  | zero => exact .refl
  | succ fuel ih =>
    unfold run
    split
    · exact .refl
    · split
      · rename_i next hstep
        exact .head hstep (ih next)
      · exact .refl

/-- Turns are taken one way only: of two worlds on the way one comes first. -/
theorem Passes.total {w u u' : World} (hpasses : w.Passes u) (hpasses' : w.Passes u') :
    u.Passes u' ∨ u'.Passes u :=
  Relation.ReflTransGen.total_of_right_unique
    (fun _ _ _ hstep hstep' => Option.some.inj (hstep.symm.trans hstep')) hpasses hpasses'

/-- A world in which nothing is left to do comes last. -/
theorem Passes.to_last {w u last : World} (hpasses : w.Passes u) (hlast : w.Passes last)
    (hdone : last.step? = none) : u.Passes last := by
  rcases hpasses.total hlast with hbefore | hafter
  · exact hbefore
  · rcases hafter.cases_head with rfl | ⟨next, hstep, -⟩
    · exact .refl
    · exact absurd hstep (by simp [hdone])

/-- Turns come to one end only. -/
theorem Passes.eq_last {w u last : World} (hpasses : w.Passes u) (hlast : w.Passes last)
    (hend : u.step? = none) (hdone : last.step? = none) : u = last := by
  rcases (hpasses.to_last hlast hdone).cases_head with rfl | ⟨next, hstep, -⟩
  · rfl
  · exact absurd hstep (by simp [hend])

end World

/-- What holds of a sound world and is kept by the turns of sound worlds holds on. -/
theorem Sound.passes {w w' : World} (hsound : Sound w) {P : World → Prop} (hP : P w)
    (hkeeps : ∀ {u u'}, w.Passes u → Sound u → u.step? = some u' → P u → P u')
    (hpasses : w.Passes w') : Sound w' ∧ P w' := by
  induction hpasses with
  | refl => exact ⟨hsound, hP⟩
  | tail hbefore hstep ih =>
    exact ⟨(ih.1.step hstep).2, hkeeps hbefore ih.1 hstep ih.2⟩

/-- What holds of the view of a sound world and is kept by steps holds on. -/
theorem Sound.view_passes {w w' : World} (hsound : Sound w) {P : View → Prop}
    (hkeeps : ∀ {v v' : View} {who}, v.Orderly → View.Step who v v' → P v → P v')
    (hP : P w.view) (hpasses : w.Passes w') : P w'.view :=
  (hsound.passes (P := fun u => P u.view) hP (fun _ hsound hstep hP =>
    ((hsound.step hstep).1.keeps hkeeps hsound.orderly hP).2) hpasses).2

end TraceReplay.Replay
