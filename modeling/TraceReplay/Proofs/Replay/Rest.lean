import TraceReplay.Proofs.Replay.Ending

/-!
# Time that passes

A turn takes nobody out of his sleep before his time has come, and it tells the collector no
total.  What is issued and which drivers have ended is noted at once and never struck out.  So
whoever lets time pass in a world without drivers gets to the moment he has set himself, and
then nobody is ready any more, the collector has taken everything and nothing was issued.
-/

namespace TraceReplay.Replay

/-- Entries of one kind have been put in front of a list. -/
def Prepends {α : Type} (P : α → Prop) (before after : List α) : Prop :=
  ∃ more, after = more ++ before ∧ ∀ x ∈ more, P x

namespace Prepends

variable {α : Type} {P Q : α → Prop} {before between after : List α}

@[refl]
theorem refl (P : α → Prop) (xs : List α) : Prepends P xs xs := ⟨[], rfl, by simp⟩

theorem cons {x : α} (hx : P x) (xs : List α) : Prepends P xs (x :: xs) :=
  ⟨[x], rfl, by simpa using hx⟩

theorem trans (hfirst : Prepends P before between) (hsecond : Prepends P between after) :
    Prepends P before after := by
  obtain ⟨first, rfl, hP⟩ := hfirst
  obtain ⟨second, rfl, hP'⟩ := hsecond
  refine ⟨second ++ first, by simp, fun x hx => ?_⟩
  exact (List.mem_append.mp hx).elim (hP' x) (hP x)

theorem mono (hprepends : Prepends P before after) (himp : ∀ x, P x → Q x) :
    Prepends Q before after := by
  obtain ⟨more, hafter, hP⟩ := hprepends
  exact ⟨more, hafter, fun x hx => himp x (hP x hx)⟩

theorem subset (hprepends : Prepends P before after) : before ⊆ after := by
  obtain ⟨more, rfl, -⟩ := hprepends
  exact List.subset_append_right more before

/-- What is new is of the kind. -/
theorem mem (hprepends : Prepends P before after) {x : α} (hx : x ∈ after) : x ∈ before ∨ P x := by
  obtain ⟨more, rfl, hP⟩ := hprepends
  exact (List.mem_append.mp hx).symm.imp_right (hP x)

end Prepends

namespace World

/-- The turn of a task has taken no time, woken nobody and announced nothing; what it has issued
and which drivers it has ended is noted with the time. -/
structure Leaves (w w' : World) : Prop where
  clock : w'.clock = w.clock
  timers : ∀ timer ∈ w.timers, timer ∈ w'.timers
  expected : w'.collector.expected = w.collector.expected
  issues : Prepends (·.2.time = w.clock.now) w.issues w'.issues
  finished : Prepends (·.time = w.clock.now) w.finished w'.finished

variable {w w' : World}

namespace Leaves

theorem of_same (hclock : w'.clock = w.clock) (htimers : w'.timers = w.timers)
    (hcollector : w'.collector = w.collector) (hissues : w'.issues = w.issues)
    (hfinished : w'.finished = w.finished) : w.Leaves w' where
  clock := hclock
  timers _ hmem := htimers ▸ hmem
  expected := congrArg Collector.expected hcollector
  issues := hissues ▸ .refl _ _
  finished := hfinished ▸ .refl _ _

theorem trans {w'' : World} (hfirst : w.Leaves w') (hsecond : w'.Leaves w'') : w.Leaves w'' where
  clock := hsecond.clock.trans hfirst.clock
  timers timer hmem := hsecond.timers timer (hfirst.timers timer hmem)
  expected := hsecond.expected.trans hfirst.expected
  issues := hfirst.issues.trans (hfirst.clock ▸ hsecond.issues)
  finished := hfirst.finished.trans (hfirst.clock ▸ hsecond.finished)

theorem sleepUntil (w : World) (due : Nat) (task : Task) : w.Leaves (w.sleepUntil due task) where
  clock := rfl
  timers _ hmem := Kept.mem_insertTimer.mpr (.inr hmem)
  expected := rfl
  issues := .refl _ _
  finished := .refl _ _

/-- A driver has ended. -/
theorem finish (w : World) (index : Nat) (result : Except ReplayError Driver.Report) :
    w.Leaves { w with finished := ⟨index, w.clock.now, result⟩ :: w.finished } where
  clock := rfl
  timers _ hmem := hmem
  expected := rfl
  issues := .refl _ _
  finished := .cons (by rfl) _

/-- A driver has issued what its turn has. -/
theorem issue (w : World) (index : Nat) {turn : Driver.Turn}
    (htime : ∀ issue, turn.issue = some issue → issue.time = w.clock.now) (lanes : List Lane)
    (notices : List Notice) : w.Leaves { w with
      lanes := lanes, notices := notices
      issues := turn.issue.toList.map (index, ·) ++ w.issues } where
  clock := rfl
  timers _ hmem := hmem
  expected := rfl
  issues := by
    refine ⟨_, rfl, fun entry hentry => ?_⟩
    obtain ⟨issue, hissue, rfl⟩ := List.mem_map.mp hentry
    exact htime issue (Option.mem_toList.mp hissue)
  finished := .refl _ _

theorem move (w : World) (index : Nat) (s : Driver.State) (move : Driver.Move) :
    w.Leaves (w.move index s move) := by
  cases move with
  | sleep micros next => exact .sleepUntil w _ _
  | await next =>
    simp only [World.move]
    split
    · split <;> exact .of_same rfl rfl rfl rfl rfl
    · exact .of_same rfl rfl rfl rfl rfl
  | finish report => exact .finish w index (.ok report)
  | fail error => exact .finish w index (.error error)
  | _ => exact .of_same rfl rfl rfl rfl rfl

theorem begin (w : World) (index : Nat) (dispatch : Dispatch) (execution : Execution) :
    w.Leaves (w.begin index dispatch execution) := by
  unfold World.begin
  dsimp only
  split
  · exact .of_same rfl rfl rfl rfl rfl
  · refine trans ?_ (.sleepUntil _ _ _)
    exact .of_same rfl rfl rfl rfl rfl

theorem wakeCollector (w : World) : w.Leaves w.wakeCollector := by
  unfold World.wakeCollector
  split <;> exact .of_same rfl rfl rfl rfl rfl

theorem wakeScheduler (w : World) : w.Leaves w.wakeScheduler := by
  unfold World.wakeScheduler
  split <;> exact .of_same rfl rfl rfl rfl rfl

theorem attempt (w : World) (index : Nat) (dispatch : Dispatch) :
    w.Leaves (w.attempt index dispatch) := by
  unfold World.attempt
  split
  · exact .of_same rfl rfl rfl rfl rfl
  dsimp only
  split
  · exact .begin w index dispatch _
  unfold World.consult
  split
  · refine trans ?_ (.wakeScheduler _)
    exact .of_same rfl rfl rfl rfl rfl
  · exact .of_same rfl rfl rfl rfl rfl

theorem release (w : World) (index : Nat) : w.Leaves (w.release index) := by
  unfold World.release
  split
  · exact .of_same rfl rfl rfl rfl rfl
  dsimp only
  split
  · split <;> exact .of_same rfl rfl rfl rfl rfl
  · exact .of_same rfl rfl rfl rfl rfl

theorem storeRecord (w : World) (index : Nat) (pair : RecordPair) (next : Task) :
    w.Leaves (w.storeRecord index pair next) := by
  unfold World.storeRecord
  split
  · exact .of_same rfl rfl rfl rfl rfl
  split
  · rename_i box _
    have hwoken : w.Leaves { w with records := box }.wakeCollector := by
      refine trans ?_ (.wakeCollector _)
      exact .of_same rfl rfl rfl rfl rfl
    exact hwoken.trans (.of_same rfl rfl rfl rfl rfl)
  · exact .of_same rfl rfl rfl rfl rfl
  · exact .of_same rfl rfl rfl rfl rfl

theorem storeJob (w : World) (index : Nat) (pair : RecordPair) (next : Task) :
    w.Leaves (w.storeJob index pair next) := by
  unfold World.storeJob
  split
  · exact .of_same rfl rfl rfl rfl rfl
  split
  · rename_i box _
    have hwoken : w.Leaves { w with jobs := box }.wakeCollector := by
      refine trans ?_ (.wakeCollector _)
      exact .of_same rfl rfl rfl rfl rfl
    exact hwoken.trans (.of_same rfl rfl rfl rfl rfl)
  · exact .of_same rfl rfl rfl rfl rfl
  · exact .of_same rfl rfl rfl rfl rfl

/-- Records that are taken in leave the total as it was. -/
theorem expected_accept (c : Collector) (pair : RecordPair) :
    (c.accept (.record pair.record)).expected = c.expected ∧
      (c.accept (.job pair.job)).expected = c.expected := by
  unfold Collector.accept
  constructor <;> split <;> rfl

theorem collect (w : World) : w.Leaves w.collect := by
  unfold World.collect
  split
  · rename_i delivery roomFor box _
    have hexpected := (expected_accept w.collector delivery.pair).1
    cases roomFor <;> exact ⟨rfl, fun _ hmem => hmem, hexpected, .refl _ _, .refl _ _⟩
  split
  · rename_i delivery roomFor box _
    have hexpected := (expected_accept w.collector delivery.pair).2
    cases roomFor <;> exact ⟨rfl, fun _ hmem => hmem, hexpected, .refl _ _, .refl _ _⟩
  · exact .of_same rfl rfl rfl rfl rfl

theorem serve (w : World) : w.Leaves w.serve := by
  cases hreceive : w.link.bind (·.receive?) with
  | none =>
    simp only [World.serve, hreceive]
    exact .of_same rfl rfl rfl rfl rfl
  | some received =>
    obtain ⟨answers, next⟩ := received
    obtain ⟨link, hlink, hnext⟩ := Option.bind_eq_some_iff.mp hreceive
    rw [serve_some hlink hnext]
    exact .of_same rfl rfl rfl rfl rfl

theorem drive (w : World) (index : Nat) (point : Driver.Point) (s : Driver.State) :
    w.Leaves (w.drive index point s) := by
  unfold World.drive
  dsimp only
  split
  · exact .of_same rfl rfl rfl rfl rfl
  · rename_i lane _
    refine trans ?_ (.move _ index _ _)
    exact .issue w index (Driver.turn_issue_time lane.plan w.clock lane.counters point s) _ _

theorem perform (w : World) (task : Task) : w.Leaves (w.perform task) := by
  cases task with
  | drive index point s => exact .drive w index point s
  | attempt index dispatch => exact .attempt w index dispatch
  | answered index dispatch reply begin => exact .begin w index dispatch _
  | conclude index dispatch ending => cases ending <;> exact .of_same rfl rfl rfl rfl rfl
  | storeRecord index pair next => exact .storeRecord w index pair next
  | storeJob index pair next => exact .storeJob w index pair next
  | release index => exact .release w index
  | collect => exact .collect w
  | serve => exact .serve w
  | idle => exact .of_same rfl rfl rfl rfl rfl

end Leaves

/-! ## Turns -/

/-- Whoever sleeps does so until his time has come. -/
theorem timers_step (hstep : w.step? = some w') {timer : Nat × Task}
    (htimer : timer ∈ w.timers) : timer ∈ w'.timers ∨ timer.1 ≤ w'.clock.now := by
  rcases step?_cases hstep with ⟨task, rest, -, rfl⟩ | ⟨-, -, rfl⟩ | ⟨due, task, rest, -, -, -, rfl⟩
  · left
    exact (Leaves.perform _ task).timers timer htimer
  · left
    exact htimer
  · rw [← List.takeWhile_append_dropWhile (p := (·.1 = due)) (l := w.timers)] at htimer
    rcases List.mem_append.mp htimer with hawake | hasleep
    · right
      have hdue : timer.1 = due := by simpa using List.mem_takeWhile_imp hawake
      rw [hdue]
      exact Nat.le_max_right _ _
    · left
      exact hasleep

theorem clock_step (hstep : w.step? = some w') : w.clock.now ≤ w'.clock.now := by
  rcases step?_cases hstep with ⟨task, rest, -, rfl⟩ | ⟨-, -, rfl⟩ | ⟨due, task, rest, -, -, -, rfl⟩
  · rw [(Leaves.perform _ task).clock]
  · exact le_rfl
  · exact Nat.le_max_left _ _

theorem expected_step (hstep : w.step? = some w') :
    w'.collector.expected = w.collector.expected := by
  rcases step?_cases hstep with ⟨task, rest, -, rfl⟩ | ⟨-, -, rfl⟩ | ⟨due, task, rest, -, -, -, rfl⟩
  · exact (Leaves.perform _ task).expected
  · rfl
  · rfl

theorem issues_step (hstep : w.step? = some w') :
    Prepends (·.2.time = w.clock.now) w.issues w'.issues := by
  rcases step?_cases hstep with ⟨task, rest, -, rfl⟩ | ⟨-, -, rfl⟩ | ⟨due, task, rest, -, -, -, rfl⟩
  · exact (Leaves.perform _ task).issues
  · rfl
  · rfl

theorem finished_step (hstep : w.step? = some w') :
    Prepends (·.time = w.clock.now) w.finished w'.finished := by
  rcases step?_cases hstep with ⟨task, rest, -, rfl⟩ | ⟨-, -, rfl⟩ | ⟨due, task, rest, -, -, -, rfl⟩
  · exact (Leaves.perform _ task).finished
  · rfl
  · rfl

/-- No driver ends while nobody is ready. -/
theorem finished_step_quiet (hstep : w.step? = some w') (hquiet : w.isQuiet = true) :
    w'.finished = w.finished := by
  rcases step?_cases hstep with ⟨task, rest, hready, -⟩ | ⟨-, -, rfl⟩ | ⟨due, task, rest, -, -, -, rfl⟩
  · simp [isQuiet, hready] at hquiet
  · rfl
  · rfl

/-- Time passes between turns only when nobody is ready. -/
theorem clock_step_eq (hstep : w.step? = some w') (hbusy : w.isQuiet = false) :
    w'.clock = w.clock := by
  rcases step?_cases hstep with ⟨task, rest, -, rfl⟩ | ⟨hready, -⟩ | ⟨due, task, rest, hready, -⟩
  · exact (Leaves.perform _ task).clock
  · simp [isQuiet, hready] at hbusy
  · simp [isQuiet, hready] at hbusy

theorem Passes.expected (hpasses : w.Passes w') :
    w'.collector.expected = w.collector.expected := by
  induction hpasses with
  | refl => rfl
  | tail _ hstep ih => exact (expected_step hstep).trans ih

theorem Passes.clock (hpasses : w.Passes w') : w.clock.now ≤ w'.clock.now := by
  induction hpasses with
  | refl => exact le_rfl
  | tail _ hstep ih => exact ih.trans (clock_step hstep)

theorem Passes.timers (hpasses : w.Passes w') {timer : Nat × Task} (htimer : timer ∈ w.timers) :
    timer ∈ w'.timers ∨ timer.1 ≤ w'.clock.now := by
  induction hpasses with
  | refl => exact .inl htimer
  | tail _ hstep ih =>
    rcases ih with hasleep | hawake
    · exact timers_step hstep hasleep
    · exact .inr (hawake.trans (clock_step hstep))

/-- What is issued later on is issued at a later time. -/
theorem Passes.issues (hpasses : w.Passes w') :
    Prepends (fun entry => w.clock.now ≤ entry.2.time ∧ entry.2.time ≤ w'.clock.now) w.issues
      w'.issues := by
  induction hpasses with
  | refl => rfl
  | @tail u u' hbefore hstep ih =>
    have hlater := clock_step hstep
    apply (ih.mono fun entry htime => ⟨htime.1, htime.2.trans hlater⟩).trans
    apply (issues_step hstep).mono
    intro entry htime
    rw [htime]
    exact ⟨Passes.clock hbefore, hlater⟩

/-- Drivers that end later on end at a later time. -/
theorem Passes.finished (hpasses : w.Passes w') :
    Prepends (fun finish => w.clock.now ≤ finish.time) w.finished w'.finished := by
  induction hpasses with
  | refl => rfl
  | @tail u u' hbefore hstep ih =>
    apply ih.trans
    apply (finished_step hstep).mono
    intro finish htime
    rw [htime]
    exact Passes.clock hbefore

theorem Rests.expected (hrests : w.Rests w') :
    w'.collector.expected = w.collector.expected := by
  rcases hrests with rfl | ⟨time, enough, fuel, -, rfl⟩
  · rfl
  · exact (run_passes enough fuel (w.sleepUntil time .idle)).expected

end World

/-! ## Worlds without drivers -/

/-- Where nobody is driven no step makes a driver or issues anything. -/
theorem View.idle_step {v v' : View} (hidle : ∀ x ∈ v.standing, x.2.driving? = none)
    (hstep : View.Step none v v') :
    (∀ x ∈ v'.standing, x.2.driving? = none) ∧ v'.issues = v.issues := by
  have hsame : v'.issues = v.issues ∧ v'.finished = v.finished := by
    cases hstep <;> exact ⟨rfl, rfl⟩
  refine ⟨fun x hx => ?_, hsame.1⟩
  by_contra hdriving
  obtain ⟨⟨index, point, s⟩, hsome⟩ := Option.ne_none_iff_exists'.mp hdriving
  have hdrivers := View.drivers_step hstep index
  have hnone : v.standing.countP (fun x => x.2.driving?.map (·.1) = some index) = 0 :=
    Multiset.countP_eq_zero.mpr fun y hy => by simp [hidle y hy]
  have hone : 0 < v'.standing.countP (fun x => x.2.driving?.map (·.1) = some index) :=
    Multiset.countP_pos.mpr ⟨x, hx, by simp [hsome]⟩
  rw [View.drivers, View.drivers, hsame.2] at hdrivers
  omega

namespace Driverless

variable {w w' : World}

theorem driver?_eq_none (hdriverless : Driverless w) : w.driver? = none := by
  cases hready : w.ready with
  | nil => simp [World.driver?, hready]
  | cons task rest =>
    cases task with
    | drive index point s =>
      exact absurd (hdriverless.idle _ (Sound.mem_of_ready hready rfl)) (by simp [Task.driving?])
    | _ => simp [World.driver?, hready, Task.driver?]

theorem step (hdriverless : Driverless w) (hstep : w.step? = some w') :
    Driverless w' ∧ w'.issues = w.issues := by
  obtain ⟨hturn, hsound⟩ := hdriverless.toSound.step hstep
  rw [hdriverless.driver?_eq_none] at hturn
  obtain ⟨-, hidle, hissues⟩ := hturn.keeps
    (P := fun v => (∀ x ∈ v.standing, x.2.driving? = none) ∧ v.issues = w.issues)
    (fun _ hstep hkept => by
      obtain ⟨hidle, hissues⟩ := View.idle_step hkept.1 hstep
      exact ⟨hidle, hissues.trans hkept.2⟩)
    hdriverless.orderly ⟨hdriverless.idle, rfl⟩
  exact ⟨{ hsound with idle := hidle }, hissues⟩

/-- Where nobody is driven nothing is issued. -/
theorem passes (hdriverless : Driverless w) (hpasses : w.Passes w') :
    Driverless w' ∧ w'.issues = w.issues := by
  induction hpasses with
  | refl => exact ⟨hdriverless, rfl⟩
  | tail _ hstep ih =>
    obtain ⟨hkept, hissues⟩ := ih
    obtain ⟨hnext, hsame⟩ := hkept.step hstep
    exact ⟨hnext, hsame.trans hissues⟩

end Driverless

/-! ## Moments -/

variable {w w' : World}

theorem Driverless.sleepUntil_idle (hdriverless : Driverless w) {time : Nat}
    (hlater : w.clock.now < time) : Driverless (w.sleepUntil time .idle) where
  toSound := hdriverless.toSound.sleepUntil_idle hlater
  idle := by
    rw [World.view_sleepUntil_idle]
    exact hdriverless.idle

/-- Where nobody is driven time passes until the moment that is waited for, and what was to be
done by then is done. -/
theorem Driverless.waits (hdriverless : Driverless w) {time : Nat} (hlater : w.clock.now < time) :
    let last := (w.sleepUntil time .idle).run (fun u => time ≤ u.clock.now)
      (w.sleepUntil time .idle).turns
    last.ready = [] ∧ time ≤ last.clock.now := by
  intro last
  have hpasses : (w.sleepUntil time .idle).Passes last := World.run_passes _ _ _
  have hasleep : (time, Task.idle) ∈ (w.sleepUntil time .idle).timers :=
    Kept.mem_insertTimer.mpr (.inl rfl)
  rcases (hdriverless.sleepUntil_idle hlater).run_stops fun u => time ≤ u.clock.now with
    ⟨hquiet, henough⟩ | hend
  · exact ⟨List.isEmpty_iff.mp hquiet, of_decide_eq_true henough⟩
  · obtain ⟨hready, -, htimers⟩ := World.empty_of_end hend
    refine ⟨hready, (hpasses.timers hasleep).resolve_left ?_⟩
    rw [htimers]
    exact List.not_mem_nil

/-- Where nobody is driven nothing is issued, however long it takes. -/
theorem Driverless.rests (hdriverless : Driverless w) (hrests : w.Rests w') :
    Driverless w' ∧ w'.issues = w.issues := by
  rcases hrests with rfl | ⟨time, enough, fuel, hlater, rfl⟩
  · exact ⟨hdriverless, rfl⟩
  · exact (hdriverless.sleepUntil_idle hlater).passes (World.run_passes _ _ _)

end TraceReplay.Replay
