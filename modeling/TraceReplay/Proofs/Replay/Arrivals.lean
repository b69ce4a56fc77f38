import TraceReplay.Proofs.Replay.Conservation

/-!
# The order in which records arrive

What is sent to the collector is never put before what it has already, whether it has been
taken in yet or waits in a mailbox.  So the records that one sender sends after one another
arrive in that order, among those of all others.
-/

namespace TraceReplay.Replay

/-! ## What has arrived stays in its place -/

namespace World

/-- Records that the collector has or will find in its mailbox, the oldest first. -/
def arrivals (w : World) : List ExecutionRecord :=
  w.collector.records.reverse ++ w.records.queue.map (·.pair.record)

def jobArrivals (w : World) : List JobRecord :=
  w.collector.jobs.reverse ++ w.jobs.queue.map (·.pair.job)

theorem coe_arrivals (w : World) : (w.arrivals : Multiset ExecutionRecord) = w.view.records := by
  simp [arrivals, view, ← Multiset.coe_add]

theorem coe_jobArrivals (w : World) : (w.jobArrivals : Multiset JobRecord) = w.view.jobs := by
  simp [jobArrivals, view, ← Multiset.coe_add]

/-- What had arrived is still there, and before all else. -/
structure Retains (w w' : World) : Prop where
  records : w.arrivals <+: w'.arrivals
  jobs : w.jobArrivals <+: w'.jobArrivals

variable {w w' : World}

namespace Retains

theorem of_same (hcollector : w'.collector = w.collector) (hrecords : w'.records = w.records)
    (hjobs : w'.jobs = w.jobs) : w.Retains w' where
  records := by rw [arrivals, arrivals, hcollector, hrecords]
  jobs := by rw [jobArrivals, jobArrivals, hcollector, hjobs]

theorem trans {w'' : World} (hfirst : w.Retains w') (hsecond : w'.Retains w'') :
    w.Retains w'' where
  records := hfirst.records.trans hsecond.records
  jobs := hfirst.jobs.trans hsecond.jobs

theorem move (w : World) (index : Nat) (s : Driver.State) (move : Driver.Move) :
    w.Retains (w.move index s move) := by
  cases move with
  | await next =>
    simp only [World.move]
    split
    · split <;> exact .of_same rfl rfl rfl
    · exact .of_same rfl rfl rfl
  | _ => exact .of_same rfl rfl rfl

theorem drive (w : World) (index : Nat) (point : Driver.Point) (s : Driver.State) :
    w.Retains (w.drive index point s) := by
  unfold World.drive
  dsimp only
  split
  · exact .of_same rfl rfl rfl
  · apply trans _ (.move _ index _ _)
    exact .of_same rfl rfl rfl

theorem begin (w : World) (index : Nat) (dispatch : Dispatch) (execution : Execution) :
    w.Retains (w.begin index dispatch execution) := by
  unfold World.begin
  dsimp only
  split <;> exact .of_same rfl rfl rfl

theorem wakeCollector (w : World) : w.Retains w.wakeCollector := by
  unfold World.wakeCollector
  split <;> exact .of_same rfl rfl rfl

theorem attempt (w : World) (index : Nat) (dispatch : Dispatch) :
    w.Retains (w.attempt index dispatch) := by
  unfold World.attempt
  split
  · exact .of_same rfl rfl rfl
  dsimp only
  split
  · exact .begin w index dispatch _
  unfold World.consult
  split
  · unfold World.wakeScheduler
    split <;> exact .of_same rfl rfl rfl
  · exact .of_same rfl rfl rfl

theorem release (w : World) (index : Nat) : w.Retains (w.release index) := by
  unfold World.release
  split
  · exact .of_same rfl rfl rfl
  dsimp only
  split
  · split <;> exact .of_same rfl rfl rfl
  · exact .of_same rfl rfl rfl

theorem serve (w : World) : w.Retains w.serve := by
  cases hreceive : w.link.bind (·.receive?) with
  | none =>
    simp only [World.serve, hreceive]
    exact .of_same rfl rfl rfl
  | some received =>
    obtain ⟨answers, next⟩ := received
    obtain ⟨link, hlink, hnext⟩ := Option.bind_eq_some_iff.mp hreceive
    rw [serve_some hlink hnext]
    exact .of_same rfl rfl rfl

/-- A record goes to the end of its mailbox, if it goes there. -/
theorem storeRecord (w : World) (index : Nat) (pair : RecordPair) (next : Task) :
    w.Retains (w.storeRecord index pair next) := by
  unfold World.storeRecord
  split
  · exact .of_same rfl rfl rfl
  rcases w.records.send_cases ⟨index, pair, next⟩ with ⟨hsend, -⟩ | ⟨hsend, -⟩ | ⟨hsend, -⟩ <;>
    rw [hsend]
  · exact .of_same rfl rfl rfl
  · have hsent : w.Retains { w with
        records := { w.records with queue := w.records.queue ++ [⟨index, pair, next⟩] } } :=
      ⟨by simp [arrivals], List.prefix_refl _⟩
    apply (hsent.trans (.wakeCollector _)).trans
    exact .of_same rfl rfl rfl
  · exact ⟨List.prefix_refl _, List.prefix_refl _⟩

theorem storeJob (w : World) (index : Nat) (pair : RecordPair) (next : Task) :
    w.Retains (w.storeJob index pair next) := by
  unfold World.storeJob
  split
  · exact .of_same rfl rfl rfl
  rcases w.jobs.send_cases ⟨index, pair, next⟩ with ⟨hsend, -⟩ | ⟨hsend, -⟩ | ⟨hsend, -⟩ <;>
    rw [hsend]
  · exact .of_same rfl rfl rfl
  · have hsent : w.Retains { w with
        jobs := { w.jobs with queue := w.jobs.queue ++ [⟨index, pair, next⟩] } } :=
      ⟨List.prefix_refl _, by simp [jobArrivals]⟩
    apply (hsent.trans (.wakeCollector _)).trans
    exact .of_same rfl rfl rfl
  · exact ⟨List.prefix_refl _, List.prefix_refl _⟩

/-- The collector takes in what came first, and whoever waited for room comes last. -/
theorem collect (hears : w.collector.announcementOpen = true) : w.Retains w.collect := by
  have hopen := Collector.not_finished_of_open hears
  unfold World.collect
  rcases w.records.take?_cases with ⟨-, hnone⟩ | ⟨message, queue, hqueue, -, htake⟩ |
    ⟨message, queue, sender, waiting, hqueue, -, htake⟩
  · simp only [hnone]
    rcases w.jobs.take?_cases with ⟨-, hnone⟩ | ⟨message, queue, hqueue, -, htake⟩ |
      ⟨message, queue, sender, waiting, hqueue, -, htake⟩
    · simp only [hnone]
      exact .of_same rfl rfl rfl
    · simp only [htake, Collector.accept_job hopen]
      exact ⟨List.prefix_refl _, by simp [jobArrivals, hqueue, goOn]⟩
    · simp only [htake, Collector.accept_job hopen]
      exact ⟨List.prefix_refl _, by simp [jobArrivals, hqueue, goOn, wake]⟩
  · simp only [htake, Collector.accept_record hopen]
    exact ⟨by simp [arrivals, hqueue, goOn], List.prefix_refl _⟩
  · simp only [htake, Collector.accept_record hopen]
    exact ⟨by simp [arrivals, hqueue, goOn, wake], List.prefix_refl _⟩

theorem perform (hears : w.collector.announcementOpen = true) (task : Task) :
    w.Retains (w.perform task) := by
  cases task with
  | drive index point s => exact .drive w index point s
  | attempt index dispatch => exact .attempt w index dispatch
  | answered index dispatch reply begin => exact .begin w index dispatch _
  | conclude index dispatch ending => cases ending <;> exact .of_same rfl rfl rfl
  | storeRecord index pair next => exact .storeRecord w index pair next
  | storeJob index pair next => exact .storeJob w index pair next
  | release index => exact .release w index
  | collect => exact .collect hears
  | serve => exact .serve w
  | idle => exact .of_same rfl rfl rfl

end Retains

/-- A turn only adds to what has arrived. -/
theorem retains_step (hears : w.collector.announcementOpen = true) (hstep : w.step? = some w') :
    w.Retains w' := by
  rcases step?_cases hstep with ⟨task, rest, -, rfl⟩ | ⟨-, -, rfl⟩ | ⟨due, task, rest, -, -, -, rfl⟩
  · have hpopped : w.Retains { w with ready := rest } := .of_same rfl rfl rfl
    have hperformed := Retains.perform (w := { w with ready := rest }) hears task
    exact hpopped.trans hperformed
  · exact .of_same rfl rfl rfl
  · exact .of_same rfl rfl rfl

end World

/-! ## What a lane has yet to send -/

/-- Records and job records. -/
abbrev Stock := Multiset ExecutionRecord × Multiset JobRecord

/-- What the task has yet to send, if it belongs to the lane. -/
def Task.unsent (index : Nat) : Task → Stock
  | .storeRecord lane pair _ => if lane = index then ({pair.record}, {pair.job}) else 0
  | .storeJob lane pair _ => if lane = index then (0, {pair.job}) else 0
  | _ => 0

/-- What the tasks of a lane have yet to send. -/
def unsent (index : Nat) (standing : Standing) : Stock :=
  (standing.map fun x => x.2.unsent index).sum

@[simp]
theorem unsent_cons (index : Nat) (x : Place × Task) (standing : Standing) :
    unsent index (x ::ₘ standing) = x.2.unsent index + unsent index standing := by
  simp [unsent]

theorem unsent_map (index : Nat) {f : Place × Task → Place × Task} (htask : ∀ x, (f x).2 = x.2)
    (standing : Standing) : unsent index (standing.map f) = unsent index standing := by
  simp [unsent, htask]

theorem Task.unsent_eq_zero {index : Nat} {task : Task} (hother : task.lane? ≠ some index) :
    task.unsent index = 0 := by
  cases task with
  | storeRecord | storeJob => exact if_neg fun heq => hother (congrArg some heq)
  | _ => rfl

theorem unsent_eq_zero {index : Nat} {standing : Standing}
    (hothers : ∀ x ∈ standing, x.2.lane? ≠ some index) : unsent index standing = 0 := by
  apply Multiset.sum_eq_zero
  intro stock hstock
  obtain ⟨x, hx, rfl⟩ := Multiset.mem_map.mp hstock
  exact Task.unsent_eq_zero (hothers x hx)

/-- Only tasks of the lane have something to send there. -/
theorem unsent_ofLane (index : Nat) (standing : Standing) :
    unsent index (ofLane index standing) = unsent index standing := by
  induction standing using Multiset.induction with
  | empty => rfl
  | cons x standing ih =>
    by_cases hlane : x.2.lane? = some index
    · have hfirst : ofLane index (x ::ₘ standing) = x ::ₘ ofLane index standing :=
        Multiset.filter_cons_of_pos standing hlane
      rw [hfirst, unsent_cons, unsent_cons, ih]
    · have hrest : ofLane index (x ::ₘ standing) = ofLane index standing :=
        Multiset.filter_cons_of_neg standing hlane
      rw [hrest, unsent_cons, Task.unsent_eq_zero hlane, zero_add, ih]

/-- No task has more to send than one record and one job record. -/
theorem card_unsent_le (index : Nat) (standing : Standing) :
    Multiset.card (unsent index standing).1 ≤ Multiset.card standing ∧
      Multiset.card (unsent index standing).2 ≤ Multiset.card standing := by
  induction standing using Multiset.induction with
  | empty => exact ⟨le_rfl, le_rfl⟩
  | cons x standing ih =>
    obtain ⟨hrecords, hjobs⟩ := ih
    have hone : Multiset.card (x.2.unsent index).1 ≤ 1 ∧
        Multiset.card (x.2.unsent index).2 ≤ 1 := by
      cases x.2 with
      | storeRecord lane | storeJob lane => by_cases heq : lane = index <;> simp [Task.unsent, heq]
      | _ => simp [Task.unsent]
    simp only [unsent_cons, Prod.fst_add, Prod.snd_add, Multiset.card_add, Multiset.card_cons]
    omega

namespace View

/-- What has arrived. -/
def stock (v : View) : Stock := (v.records, v.jobs)

/-- The lane has sent some of what it had to send, to where it arrives, and issued nothing. -/
structure Sends (index : Nat) (v v' : View) : Prop where
  arrives : v.stock + unsent index v.standing ≤ v'.stock + unsent index v'.standing
  less : unsent index v'.standing ≤ unsent index v.standing
  issues : v'.issuesOf index = v.issuesOf index

variable {v v' v'' : View} {index : Nat}

@[refl]
theorem Sends.refl (index : Nat) (v : View) : Sends index v v := ⟨le_rfl, le_rfl, rfl⟩

theorem Sends.trans (hfirst : Sends index v v') (hsecond : Sends index v' v'') :
    Sends index v v'' where
  arrives := hfirst.arrives.trans hsecond.arrives
  less := hsecond.less.trans hfirst.less
  issues := hsecond.issues.trans hfirst.issues

/-- No task of the lane is an invocation. -/
def Driven (index : Nat) (v : View) : Prop :=
  ∀ x ∈ ofLane index v.standing, x.2.driving? ≠ none

theorem Driven.owner_ne {lane : Nat} (hdriven : v.Driven index) {x : Place × Task}
    {rest : Standing} (hstanding : v.standing = x ::ₘ rest) (hlane : x.2.lane? = some lane)
    (hdriving : x.2.driving? = none) : lane ≠ index := by
  rintro rfl
  exact hdriven x (mem_ofLane.mpr ⟨by simp [hstanding], hlane⟩) hdriving

/-- A task takes the place of another that has sent what it had to send less. -/
theorem Sends.replace (more : Stock) {x y : Place × Task} {rest : Standing}
    (hstanding : v.standing = x ::ₘ rest) (hstanding' : v'.standing = y ::ₘ rest)
    (hstock : v'.stock = more + v.stock)
    (hunsent : x.2.unsent index ≤ more + y.2.unsent index)
    (hless : y.2.unsent index ≤ x.2.unsent index) (hissues : v'.issues = v.issues) :
    Sends index v v' where
  arrives := by
    rw [hstanding, hstanding', unsent_cons, unsent_cons, hstock]
    calc v.stock + (x.2.unsent index + unsent index rest)
        ≤ v.stock + (more + y.2.unsent index + unsent index rest) := by gcongr
      _ = more + v.stock + (y.2.unsent index + unsent index rest) := by abel
  less := by
    rw [hstanding, hstanding', unsent_cons, unsent_cons]
    gcongr
  issues := by rw [issuesOf, issuesOf, hissues]

/-- A step that is not the turn of a driver sends what it takes from the driver of a lane. -/
theorem Step.sends (hstep : Step none v v') (horderly : v.Orderly) (hdriven : v.Driven index)
    {own : Finset Nat} (hlossless : v.Lossless own) (hown : index ∈ own) : Sends index v v' := by
  have hsame {x y : Place × Task} {rest : Standing} (hstanding : v.standing = x ::ₘ rest)
      (hstanding' : v'.standing = y ::ₘ rest) (hstock : v'.stock = v.stock)
      (hunsent : y.2.unsent index = x.2.unsent index) (hissues : v'.issues = v.issues) :
      Sends index v v' :=
    .replace 0 hstanding hstanding' (hstock.trans (zero_add _).symm)
      (by rw [zero_add, hunsent]) hunsent.le hissues
  have hmap {f : Place × Task → Place × Task} (htask : ∀ x, (f x).2 = x.2)
      (hstanding : v'.standing = v.standing.map f) (hstock : v'.stock = v.stock)
      (hissues : v'.issues = v.issues) : Sends index v v' := by
    have hunsent := unsent_map index htask v.standing
    rw [← hstanding] at hunsent
    exact ⟨by rw [hunsent, hstock], hunsent.le, by rw [issuesOf, issuesOf, hissues]⟩
  have hafter {lane : Nat} {next : Task} (hnext : AfterStore lane next) :
      next.unsent index = 0 := by
    rcases hnext with rfl | ⟨s, rfl⟩ <;> rfl
  cases hstep with
  | proceed hstanding _ hproceeds =>
    refine hsame hstanding rfl rfl ?_ rfl
    cases hproceeds <;> rfl
  | answer hstanding => exact hsame hstanding rfl rfl rfl rfl
  | panic hstanding => exact hsame hstanding rfl rfl rfl rfl
  | publish hstanding =>
    have hne := hdriven.owner_ne hstanding rfl rfl
    exact hsame hstanding rfl rfl (Task.unsent_eq_zero (by simpa [Task.lane?] using hne)) rfl
  | @storeRecord _ place owner lane pair next rest hstanding =>
    refine .replace ({pair.record}, 0) hstanding rfl (by simp [stock]) ?_ ?_ rfl
    · by_cases heq : owner = index <;> simp [Task.unsent, heq]
    · by_cases heq : owner = index <;> simp [Task.unsent, heq]
  | @storeJob _ place owner lane pair next rest hstanding =>
    have hnext := hafter (horderly.first hstanding).2
    refine .replace (0, {pair.job}) hstanding rfl (by simp [stock]) ?_ ?_ rfl
    · by_cases heq : owner = index <;> simp [Task.unsent, heq]
    · simp [hnext]
  | queue hstanding => exact hsame hstanding rfl rfl rfl rfl
  | @loseRecord _ owner lane pair next rest hstanding hlane hclosed =>
    have hne : owner ≠ index := by
      rintro rfl
      rcases hclosed with hsink | hclosed
      · exact absurd (hlossless.sinks owner hown lane hlane) (by simp [hsink])
      · exact absurd hlossless.recordsOpen (by simp [hclosed])
    have hnone : (Task.storeRecord owner pair next).unsent index = 0 := if_neg hne
    exact hsame hstanding rfl rfl ((hafter (horderly.first hstanding).2).trans hnone.symm) rfl
  | @loseJob _ owner lane pair next rest hstanding hlane hclosed =>
    have hne : owner ≠ index := by
      rintro rfl
      rcases hclosed with hsink | hclosed
      · exact absurd (hlossless.sinks owner hown lane hlane) (by simp [hsink])
      · exact absurd hlossless.jobsOpen (by simp [hclosed])
    have hnone : (Task.storeJob owner pair next).unsent index = 0 := if_neg hne
    exact hsame hstanding rfl rfl ((hafter (horderly.first hstanding).2).trans hnone.symm) rfl
  | @release _ owner lane rest hstanding =>
    refine ⟨?_, ?_, rfl⟩ <;> simp [hstanding, Task.unsent, setLane, stock]
  | @resume _ owner lane point s rest hstanding =>
    refine ⟨?_, ?_, rfl⟩ <;> simp [hstanding, Task.unsent, setLane, stock, add]
  | rouse => exact hmap rouse_task rfl rfl rfl
  | tick => exact hmap (wakeAt_task _) rfl rfl rfl

/-- The turn of another driver sends nothing of the lane. -/
theorem Step.sends_other {other : Nat} (hstep : Step (some other) v v') (hne : other ≠ index) :
    Sends index v v' := by
  cases hstep with
  | @drive _ _ point s lane rest hstanding hlane =>
    have hnone (task : Task) (htask : task.lane? = some other) : task.unsent index = 0 :=
      Task.unsent_eq_zero fun hown => hne (Option.some.inj (htask.symm.trans hown))
    set turn := Driver.turn lane.plan v.clock lane.counters point s
    have hstock : (View.drive { v with standing := rest } other lane turn).stock = v.stock := by
      simp only [View.drive]
      cases turn.move <;> rfl
    have hunsent : unsent index (View.drive { v with standing := rest } other lane turn).standing =
        unsent index v.standing := by
      rw [hstanding, unsent_cons, hnone _ rfl, zero_add]
      simp only [View.drive]
      cases turn.move <;> simp [View.move, add, setLane, Task.unsent, hne]
    have hissues : (View.drive { v with standing := rest } other lane turn).issuesOf index =
        v.issuesOf index := by
      have hothers := issuesOf_append_other { v with standing := rest } hne turn.issue
      rw [show v.issuesOf index = ({ v with standing := rest } : View).issuesOf index from rfl,
        ← hothers]
      simp only [View.drive]
      cases turn.move <;> rfl
    exact ⟨by rw [hstock, hunsent], hunsent.le, hissues⟩

end View

/-! ## Lists that are filed -/

/-- Of all there is to send the first part has arrived, in its order and perhaps among other
things, and the rest is pending. -/
def Filed {α : Type} (all : List α) (pending : Multiset α) (arrived : List α) : Prop :=
  ∃ own left, own ++ left = all ∧ (left : Multiset α) = pending ∧ own.Sublist arrived

namespace Filed

variable {α : Type} {all arrived after : List α} {pending pending' : Multiset α}

theorem nil (arrived : List α) : Filed [] 0 arrived := ⟨[], [], rfl, rfl, List.nil_sublist _⟩

/-- One thing is pending at most, and arrives if it is pending no more. -/
theorem advance (hfiled : Filed all pending arrived) (hone : Multiset.card pending ≤ 1)
    (hafter : arrived <+: after) (hless : pending' ≤ pending)
    (harrives : (arrived : Multiset α) + pending ≤ after + pending') :
    Filed all pending' after := by
  obtain ⟨own, left, rfl, rfl, hown⟩ := hfiled
  obtain ⟨more, rfl⟩ := hafter
  rw [← Multiset.coe_add, add_assoc, add_le_add_iff_left] at harrives
  rw [Multiset.coe_card] at hone
  match left with
  | [] =>
    obtain rfl : pending' = 0 := Multiset.le_zero.mp hless
    exact ⟨own, [], rfl, rfl, hown.trans (List.sublist_append_left _ _)⟩
  | [x] =>
    rw [Multiset.coe_singleton] at hless harrives
    rcases Multiset.le_singleton.mp hless with rfl | rfl
    · -- It is not pending any more, so it is among what has arrived since.
      have hx : x ∈ more := by simpa using harrives
      refine ⟨own ++ [x], [], by simp, rfl, hown.append ?_⟩
      exact List.singleton_sublist.mpr hx
    · exact ⟨own, [x], rfl, rfl, hown.trans (List.sublist_append_left _ _)⟩
  | _ :: _ :: _ => exact absurd hone (by simp)

/-- More is to be sent once nothing is pending. -/
theorem append (hfiled : Filed all 0 arrived) (hafter : arrived <+: after) (more : List α) :
    Filed (all ++ more) more after := by
  obtain ⟨own, left, rfl, hleft, hown⟩ := hfiled
  obtain rfl : left = [] := (Multiset.coe_eq_zero left).mp hleft
  exact ⟨own, more, by simp, rfl, hown.trans hafter.sublist⟩

theorem sublist (hfiled : Filed all 0 arrived) : all.Sublist arrived := by
  obtain ⟨own, left, rfl, hleft, hown⟩ := hfiled
  obtain rfl : left = [] := (Multiset.coe_eq_zero left).mp hleft
  rwa [List.append_nil]

end Filed
end TraceReplay.Replay
