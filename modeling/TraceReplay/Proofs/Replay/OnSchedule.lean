import TraceReplay.Proofs.Driver.Course
import TraceReplay.Proofs.Replay.Tally

/-!
# Lanes on schedule

In a replay with other lanes, invocations and a collector, a manned lane still issues
its slots by the schedule of its driver: nothing the others do takes time away from it.
-/

namespace TraceReplay.Replay

namespace Track

/-- What a driver that has moved does next it does at the time it has asked for. -/
theorem mem_move {t : Track} {index : Nat} {s : Driver.State} {move : Driver.Move}
    {x : Place × Task} (hx : x ∈ (t.move index s move).standing) :
    x ∈ t.standing ∨ x.2.driving? = none ∨ ∃ point, x.2.driving? = some (index, point, s) ∧
      ∀ holds, move.Arrives t.clock holds → holds (x.1.time t.clock.now) point := by
  have hadd {y : Place × Task} {point : Driver.Point} (hmem : x = y ∨ x ∈ t.standing)
      (hy : y.2.driving? = some (index, point, s))
      (hholds : ∀ holds, move.Arrives t.clock holds → holds (y.1.time t.clock.now) point) :
      x ∈ t.standing ∨ x.2.driving? = none ∨ ∃ point, x.2.driving? = some (index, point, s) ∧
        ∀ holds, move.Arrives t.clock holds → holds (x.1.time t.clock.now) point := by
    rcases hmem with rfl | hmem
    · exact .inr (.inr ⟨point, hy, hholds⟩)
    · exact .inl hmem
  cases move with
  | proceed next => exact hadd (Multiset.mem_cons.mp hx) rfl fun _ hholds => hholds
  | sleep micros next => exact hadd (Multiset.mem_cons.mp hx) rfl fun _ hholds => hholds
  | yield next => exact hadd (Multiset.mem_cons.mp hx) rfl fun _ hholds => hholds
  | deliver pair next => exact hadd (Multiset.mem_cons.mp hx) rfl fun _ hholds => hholds
  | launch dispatch next =>
    rcases Multiset.mem_cons.mp hx with rfl | hmem
    · exact .inr (.inr ⟨next, rfl, fun _ hholds => hholds⟩)
    · rcases Multiset.mem_cons.mp hmem with rfl | hmem
      · exact .inr (.inl rfl)
      · exact .inl hmem
  | await next => exact hadd (Multiset.mem_cons.mp hx) rfl fun _ hholds => hholds _
  | finish report => exact .inl hx
  | fail error => exact .inl hx

theorem mem_move_finished {t : Track} {index : Nat} {s : Driver.State} {move : Driver.Move}
    {finish : Finish} (hfinish : finish ∈ (t.move index s move).finished) :
    finish ∈ t.finished ∨ (∃ r, move = .finish r ∧ finish = ⟨index, t.clock.now, .ok r⟩) ∨
      ∃ error, move = .fail error ∧ finish = ⟨index, t.clock.now, .error error⟩ := by
  cases move with
  | finish r =>
    rcases List.mem_cons.mp hfinish with rfl | hmem
    · exact .inr (.inl ⟨r, rfl, rfl⟩)
    · exact .inl hmem
  | fail error =>
    rcases List.mem_cons.mp hfinish with rfl | hmem
    · exact .inr (.inr ⟨error, rfl, rfl⟩)
    · exact .inl hmem
  | _ => exact .inl hfinish

/-- What the lane has issued. -/
def entries (t : Track) : List Driver.Entry := t.issues.map Driver.Issue.entry

/-- The lane keeps to its schedule, also when its driver sleeps or has ended. -/
structure OnSchedule (schedule : Driver.Schedule) (stops : Nat → Prop) (t : Track) : Prop where
  plan : t.lane.plan = schedule.plan
  driver : ∀ x ∈ t.standing, ∀ lane point s, x.2.driving? = some (lane, point, s) →
    schedule.Keeps stops (x.1.time t.clock.now) point s t.entries
  ended : ∀ finish ∈ t.finished, ∃ r, finish.result = .ok r ∧
    schedule.Over stops r.terminatedEarly t.entries

/-- The driver's next turn finds that the replay has to stop. -/
def Halts (index : Nat) (t : Track) (step : Nat) : Prop :=
  ∃ rest point s, t.standing = (.ready, .drive index point s) ::ₘ rest ∧
    Driver.Judges t.lane.plan point s ∧ s.step = step ∧
    ∃ notices, Driver.checkStep t.lane.plan t.lane.counters s = .stopped notices

/-- No more slots of a step are issued than were requested. -/
theorem issuedIn_le {schedule : Driver.Schedule} {stops : Nat → Prop} {t : Track} {time : Nat}
    {point : Driver.Point} {s : Driver.State}
    (hkeeps : schedule.Keeps stops time point s t.entries) (step : Nat) :
    t.issuedIn step ≤ schedule.requested step := by
  refine le_trans (le_of_eq ?_) (Driver.Schedule.keeps_countP_le hkeeps step)
  rw [issuedIn, entries, List.countP_map]
  rfl

namespace OnSchedule

variable {schedule : Driver.Schedule} {stops : Nat → Prop} {index : Nat} {t : Track}

/-- The driver goes on with what it asks for. -/
theorem move {s : Driver.State} {move : Driver.Move} (hplan : t.lane.plan = schedule.plan)
    (hrest : ∀ y ∈ t.standing, y.2.driving? = none) (hfinished : t.finished = [])
    (harrives : move.Arrives t.clock fun time next => schedule.Keeps stops time next s t.entries)
    (hgoesOn : ∀ error, move ≠ .fail error)
    (hreport : ∀ r, move = .finish r → schedule.Over stops r.terminatedEarly t.entries) :
    OnSchedule schedule stops (t.move index s move) := by
  refine ⟨(move_plan t index s move).trans hplan, fun x hx lane point state hdriving => ?_,
    fun finish hmem => ?_⟩
  · rw [move_clock, entries, move_issues]
    rcases mem_move hx with hmem | hnone | ⟨next, hnext, hholds⟩
    · exact absurd (hrest x hmem) (by simp [hdriving])
    · exact absurd hnone (by simp [hdriving])
    · rw [hnext] at hdriving
      simp only [Option.some.injEq, Prod.mk.injEq] at hdriving
      obtain ⟨-, rfl, rfl⟩ := hdriving
      exact hholds (fun time next => schedule.Keeps stops time next s t.entries) harrives
  · rw [entries, move_issues]
    rcases mem_move_finished hmem with hold | ⟨r, hmove, rfl⟩ | ⟨error, hmove, -⟩
    · exact absurd hold (by simp [hfinished])
    · exact ⟨r, rfl, hreport r hmove⟩
    · exact absurd hmove (hgoesOn error)

/-- The turn of a driver that does not fail. -/
theorem drive_goesOn (honschedule : t.OnSchedule schedule stops) (hmanned : t.Manned index)
    (hhalts : ∀ step, t.Halts index step → stops step) {point : Driver.Point}
    {s : Driver.State} {rest : Standing}
    (hstanding : t.standing = (.ready, .drive index point s) ::ₘ rest)
    (hgoesOn : ∀ error,
      (Driver.turn t.lane.plan t.clock t.lane.counters point s).move ≠ .fail error) :
    OnSchedule schedule stops ({ t with standing := rest }.drive index
      (Driver.turn t.lane.plan t.clock t.lane.counters point s)) := by
  obtain ⟨hrest, hfinished⟩ := hmanned.alone hstanding (by simp [Task.driving?])
  have hkeeps : schedule.Keeps stops t.clock.now point s t.entries :=
    honschedule.driver (.ready, .drive index point s) (by simp [hstanding]) index point s rfl
  have harrives := Driver.Schedule.keeps_turn t.lane.counters hkeeps
    fun hjudges hstopped => hhalts s.step
      ⟨rest, point, s, hstanding, honschedule.plan ▸ hjudges, rfl, honschedule.plan ▸ hstopped⟩
  rw [← honschedule.plan] at harrives
  have hentries (issue : Option Driver.Issue) :
      (t.issues ++ issue.toList).map Driver.Issue.entry =
        t.entries ++ issue.toList.map Driver.Issue.entry := List.map_append
  refine move honschedule.plan hrest hfinished ?_ hgoesOn fun r hfinish => ?_
  · simp only [entries, hentries]
    exact harrives
  · obtain ⟨rfl, rfl⟩ := Driver.turn_finish hfinish
    simp only [entries, Driver.turn, Option.toList_none, List.append_nil]
    exact hkeeps

/-- The turn of a driver whose policy has a verdict on every slot. -/
theorem drive (honschedule : t.OnSchedule schedule stops) (hmanned : t.Manned index)
    (htallied : t.Tallied) (hpolicy : schedule.plan.Decides)
    (hhalts : ∀ step, t.Halts index step → stops step) {point : Driver.Point}
    {s : Driver.State} {rest : Standing}
    (hstanding : t.standing = (.ready, .drive index point s) ::ₘ rest) :
    OnSchedule schedule stops ({ t with standing := rest }.drive index
      (Driver.turn t.lane.plan t.clock t.lane.counters point s)) := by
  have hkeeps : schedule.Keeps stops t.clock.now point s t.entries :=
    honschedule.driver (.ready, .drive index point s) (by simp [hstanding]) index point s rfl
  have hfailed (step : Nat) : t.lane.counters.failedAt step ≤ schedule.requested step :=
    (Nat.le_of_add_right_le (htallied step)).trans (issuedIn_le hkeeps step)
  have hgoesOn := Driver.Schedule.keeps_goesOn hkeeps hpolicy hfailed
  rw [← honschedule.plan] at hgoesOn
  exact honschedule.drive_goesOn hmanned hhalts hstanding hgoesOn

/-- Nothing else that happens in a replay makes a lane miss its schedule. -/
theorem onward (honschedule : t.OnSchedule schedule stops) {t' : Track} (honward : t.Onward t') :
    t'.OnSchedule schedule stops := by
  have hentries : t'.entries = t.entries := by rw [entries, honward.issues, entries]
  refine ⟨honward.plan.trans honschedule.plan, fun x hx lane point s hdriving => ?_, ?_⟩
  · obtain ⟨y, hy, hsame, htime⟩ := honward.driver x hx lane point s hdriving
    have hkeeps := honschedule.driver y hy lane point s hsame
    rw [hentries]
    rcases htime with htime | rfl
    · rwa [htime] at hkeeps
    · exact hkeeps
  · rw [honward.finished, hentries]
    exact honschedule.ended

end OnSchedule
/-! ## Stopped replays -/

/-- The lane was stopped when it had issued some slots. -/
structure Stopped (issues : List Driver.Issue) (t : Track) : Prop where
  driver : ∀ x ∈ t.standing, ∀ lane point s, x.2.driving? = some (lane, point, s) →
    point = .drained ∧ s.stoppedEarly = true
  ended : ∀ finish ∈ t.finished, ∃ r, finish.result = .ok r ∧ r.terminatedEarly = true
  issues : t.issues = issues

section Stopped

variable {schedule : Driver.Schedule} {stops : Nat → Prop} {index last : Nat} {t t' : Track}

/-- A driver that is stopped has issued all slots of its steps so far. -/
theorem Halts.entries (hhalts : t.Halts index last) (honschedule : t.OnSchedule schedule stops) :
    t.entries = schedule.entries (last - schedule.firstStep + 1) := by
  obtain ⟨rest, point, s, hstanding, hjudges, rfl, -⟩ := hhalts
  have hkeeps : schedule.Keeps stops t.clock.now point s t.entries :=
    honschedule.driver (.ready, .drive index point s) (by simp [hstanding]) index point s rfl
  exact (Driver.Schedule.completes_of_judges hkeeps (honschedule.plan ▸ hjudges)).entries

/-- After a check that stops it a driver only waits for its invocations. -/
theorem Halts.stopped (hhalts : t.Halts index last) (hmanned : t.Manned index)
    (hstep : Step index true t t') : t'.Stopped t.issues := by
  obtain ⟨others, point, s, hstanding, hjudges, -, notices, hstopped⟩ := hhalts
  cases hstep with
  | drive hstanding' =>
    obtain ⟨rfl, rfl⟩ := Prod.mk.inj (hmanned.same hstanding hstanding')
    obtain ⟨hrest, hfinished⟩ := hmanned.alone hstanding' (by simp [Task.driving?])
    rw [Driver.turn_of_stopped hjudges hstopped]
    refine ⟨fun x hx lane point s hdriving => ?_, ?_, List.append_nil _⟩
    · rcases Multiset.mem_cons.mp hx with rfl | hmem
      · simp only [Task.driving?, Option.some.injEq, Prod.mk.injEq] at hdriving
        obtain ⟨-, rfl, rfl⟩ := hdriving
        exact ⟨rfl, rfl⟩
      · exact absurd (hrest x hmem) (by simp [hdriving])
    · intro finish hmem
      exact absurd hmem (by simp [drive, move, add, hfinished])

/-- A lane that was stopped issues nothing more. -/
theorem Stopped.step {issues : List Driver.Issue} (hstopped : t.Stopped issues)
    (horderly : t.Orderly index) {own : Bool} (hstep : Step index own t t') :
    t'.Stopped issues := by
  cases own with
  | true =>
    cases hstep with
    | @drive _ point s rest hstanding =>
      obtain ⟨rfl, hearly⟩ := hstopped.driver (.ready, .drive index point s)
        (by simp [hstanding]) index point s rfl
      refine ⟨fun x hx => hstopped.driver x ?_, fun finish hmem => ?_, ?_⟩
      · rw [hstanding]
        exact Multiset.mem_cons_of_mem hx
      · rcases List.mem_cons.mp hmem with rfl | hmem
        · exact ⟨_, rfl, hearly⟩
        · exact hstopped.ended finish hmem
      · exact (List.append_nil _).trans hstopped.issues
  | false =>
    have honward := hstep.onward horderly
    refine ⟨fun x hx lane point s hdriving => ?_, ?_, honward.issues.trans hstopped.issues⟩
    · obtain ⟨y, hy, hsame, -⟩ := honward.driver x hx lane point s hdriving
      exact hstopped.driver y hy lane point s hsame
    · rw [honward.finished]
      exact hstopped.ended

end Stopped
end Track
end TraceReplay.Replay
