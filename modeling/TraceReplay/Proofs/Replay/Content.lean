import TraceReplay.Proofs.Driver.Content
import TraceReplay.Proofs.Replay.Lanes

/-!
# What lanes issue

What the slots of a lane are issued as is settled when its driver is started, and as long
as the driver does not fail so are their times.  Neither depends on what other lanes do, on
the invoker or on what invocations come to.
-/

namespace TraceReplay.Replay

namespace Track

/-- What the lane issues is settled by its plan and by what its driver was given. -/
structure Settled (plan : Driver.Plan) (given : Specification) (t : Track) : Prop where
  planned : t.lane.plan = plan
  driver : ∀ x ∈ t.standing, ∀ lane point s, x.2.driving? = some (lane, point, s) →
    plan.HasRest given s point
  issues : ∀ place issue, t.issues[place]? = some issue →
    issue = plan.issueAt given issue.entry (place + 1)

/-- The driver has ended with an error. -/
def Failed (t : Track) : Prop := ∃ finish ∈ t.finished, ∃ error, finish.result = .error error

section Steps

variable {plan : Driver.Plan} {given : Specification} {index : Nat} {t t' : Track}

/-- The turn of the driver. -/
theorem Settled.drive (hsettled : t.Settled plan given) (hmanned : t.Manned index)
    {point : Driver.Point} {s : Driver.State} {rest : Standing}
    (hstanding : t.standing = (.ready, .drive index point s) ::ₘ rest) :
    Settled plan given ({ t with standing := rest }.drive index
      (Driver.turn t.lane.plan t.clock t.lane.counters point s)) := by
  obtain ⟨hrest, -⟩ := hmanned.alone hstanding (by simp [Task.driving?])
  have hmem : (.ready, .drive index point s) ∈ t.standing := by simp [hstanding]
  have hgiven : plan.HasRest given s point := hsettled.driver _ hmem index point s rfl
  have hcounted : s.issued = t.issues.length := hmanned.counted _ hmem index point s rfl
  have harrives := Driver.Plan.hasRest_turn t.clock t.lane.counters hgiven
  rw [hsettled.planned]
  refine ⟨(move_plan _ _ _ _).trans hsettled.planned, fun x hx lane next state hdriving => ?_,
    fun place issue hissue => ?_⟩
  · rcases mem_move hx with hold | hnone | ⟨goal, hgoal, hholds⟩
    · exact absurd (hrest x hold) (by simp [hdriving])
    · exact absurd hnone (by simp [hdriving])
    · rw [hgoal] at hdriving
      simp only [Option.some.injEq, Prod.mk.injEq] at hdriving
      obtain ⟨-, rfl, rfl⟩ := hdriving
      exact hholds (fun _ next => plan.HasRest given _ next) harrives
  · simp only [Track.drive, move_issues] at hissue
    by_cases hold : place < t.issues.length
    · rw [List.getElem?_append_left hold] at hissue
      exact hsettled.issues place issue hissue
    · rw [List.getElem?_append_right (by omega)] at hissue
      obtain ⟨hplace, hnew⟩ : place = t.issues.length ∧
          (Driver.turn plan t.clock t.lane.counters point s).issue = some issue := by
        cases hturn : (Driver.turn plan t.clock t.lane.counters point s).issue with
        | none => simp [hturn] at hissue
        | some other =>
          simp only [hturn, Option.toList_some, List.getElem?_singleton] at hissue
          split at hissue
          · exact ⟨by omega, hissue⟩
          · exact absurd hissue (by simp)
      rw [hplace, ← hcounted]
      exact hgiven.issue_turn hnew

theorem Settled.step (hsettled : t.Settled plan given) (hmanned : t.Manned index)
    (horderly : t.Orderly index) {own : Bool} (hstep : Step index own t t') :
    t'.Settled plan given := by
  cases own with
  | true =>
    cases hstep with
    | drive hstanding => exact hsettled.drive hmanned hstanding
  | false =>
    have honward := hstep.onward horderly
    refine ⟨honward.plan.trans hsettled.planned, fun x hx lane point s hdriving => ?_, ?_⟩
    · obtain ⟨y, hy, hsame, -⟩ := honward.driver x hx lane point s hdriving
      exact hsettled.driver y hy lane point s hsame
    · rw [honward.issues]
      exact hsettled.issues

/-- The issues of a lane can be read off its entries. -/
theorem Settled.issues_eq {schedule : Driver.Schedule} (hsettled : t.Settled schedule.plan given)
    {count : Nat} (hentries : t.entries = schedule.entries count) :
    t.issues = schedule.issues given count := by
  apply List.ext_getElem?
  intro place
  rw [Driver.Schedule.issues, List.getElem?_mapIdx, ← hentries, entries, List.getElem?_map]
  cases hissue : t.issues[place]? with
  | none => rfl
  | some issue => exact congrArg some (hsettled.issues place issue hissue)

/-- A driver that has ended has no more turns. -/
theorem mem_finished_step (hmanned : t.Manned index) (horderly : t.Orderly index) {own : Bool}
    (hstep : Step index own t t') {finish : Finish} (hmem : finish ∈ t.finished) :
    finish ∈ t'.finished := by
  cases own with
  | true =>
    cases hstep with
    | drive hstanding =>
      have hfinished := (hmanned.alone hstanding (by simp [Task.driving?])).2
      exact absurd hmem (by simp [hfinished])
  | false => rwa [(hstep.onward horderly).finished]

theorem Failed.step (hfailed : t.Failed) (hmanned : t.Manned index) (horderly : t.Orderly index)
    {own : Bool} (hstep : Step index own t t') : t'.Failed := by
  obtain ⟨finish, hmem, herror⟩ := hfailed
  exact ⟨finish, mem_finished_step hmanned horderly hstep hmem, herror⟩

/-- Steps of a second are not judged. -/
theorem Halts.minute {step : Nat} (hhalts : t.Halts index step) :
    t.lane.plan.configuration.granularity = .minute := by
  obtain ⟨-, -, s, -, -, -, notices, hstopped⟩ := hhalts
  cases hgranularity : t.lane.plan.configuration.granularity with
  | minute => rfl
  | second =>
    rw [Driver.checkStep_second hgranularity] at hstopped
    exact absurd hstopped (by simp)

/-- The lane issues what it was started to issue, on schedule unless its driver fails.
Only a replay in steps of a minute may be stopped. -/
structure Follows (schedule : Driver.Schedule) (given : Specification) (index : Nat) (t : Track) :
    Prop where
  manned : t.Manned index
  settled : t.Settled schedule.plan given
  onSchedule : t.Failed ∨
    t.OnSchedule schedule fun _ => schedule.plan.configuration.granularity = .minute

/-- Whatever happens to a lane, it follows its schedule until its driver fails. -/
theorem Follows.step {schedule : Driver.Schedule} (hfollows : t.Follows schedule given index)
    (horderly : t.Orderly index) {own : Bool} (hstep : Step index own t t') :
    t'.Follows schedule given index where
  manned := hfollows.manned.step horderly hstep
  settled := hfollows.settled.step hfollows.manned horderly hstep
  onSchedule := by
    have hmanned := hfollows.manned
    rcases hfollows.onSchedule with hfailed | honschedule
    · exact .inl (hfailed.step hmanned horderly hstep)
    cases own with
    | false => exact .inr (honschedule.onward (hstep.onward horderly))
    | true =>
      cases hstep with
      | @drive _ point s rest hstanding =>
        by_cases hfails : ∃ error,
            (Driver.turn t.lane.plan t.clock t.lane.counters point s).move = .fail error
        · obtain ⟨error, hmove⟩ := hfails
          left
          rw [Track.drive, hmove]
          exact ⟨_, List.mem_cons_self, error, rfl⟩
        · right
          refine honschedule.drive_goesOn hmanned (fun _ hhalts => ?_) hstanding
            (not_exists.mp hfails)
          rw [← honschedule.plan]
          exact hhalts.minute

/-- What a lane has issued whose driver has ended well. -/
theorem Follows.issues {schedule : Driver.Schedule} (hfollows : t.Follows schedule given index)
    {finish : Finish} (hmem : finish ∈ t.finished) {r : Driver.Report}
    (hresult : finish.result = .ok r) :
    ∃ count, t.issues = schedule.issues given count ∧
      (schedule.plan.configuration.granularity = .second → count = schedule.steps) := by
  have hone (other : Finish) (hother : other ∈ t.finished) : other = finish := by
    have hle : t.finished.length ≤ 1 := hfollows.manned.one ▸ Nat.le_add_left _ _
    obtain ⟨only, hfinished⟩ := List.length_eq_one_iff.mp
      (hle.antisymm (List.length_pos_of_mem hmem))
    rw [hfinished, List.mem_singleton] at hmem hother
    rw [hmem, hother]
  have honschedule := hfollows.onSchedule.resolve_left fun ⟨other, hother, error, herror⟩ => by
    rw [hone other hother, hresult] at herror
    exact absurd herror (by simp)
  obtain ⟨r', hresult', hover⟩ := honschedule.ended finish hmem
  cases hearly : r'.terminatedEarly with
  | false =>
    rw [hearly] at hover
    exact ⟨schedule.steps, hfollows.settled.issues_eq hover, fun _ => rfl⟩
  | true =>
    rw [hearly] at hover
    obtain ⟨step, hminute, -, hentries⟩ := hover
    refine ⟨_, hfollows.settled.issues_eq hentries, fun hsecond => ?_⟩
    rw [hminute] at hsecond
    exact absurd hsecond (by simp)

end Steps
end Track

theorem Start.track_follows (start : Start) (clock : Clock) (index : Nat)
    (hfits : start.specification.Fits start.plan.function) :
    (start.track clock index).Follows (start.schedule clock) start.specification index where
  manned := start.track_manned clock index
  settled := by
    refine ⟨rfl, fun x hx lane point s hdriving => ?_, by simp [track]⟩
    obtain rfl := Multiset.mem_singleton.mp hx
    simp only [driver, Task.driving?, Option.some.injEq, Prod.mk.injEq] at hdriving
    obtain ⟨-, rfl, rfl⟩ := hdriving
    exact Driver.Plan.hasRest_begin start.plan start.specification clock
  onSchedule := .inr (start.track_onSchedule clock index hfits _)

/-- A driver that was started follows its schedule. -/
theorem Founded.follows {w w' : World} (hfounded : Founded w) {starts : List Start}
    (hpasses : (w.startAll starts).Passes w') {place : Nat} {start : Start}
    (hstart : starts[place]? = some start)
    (hfits : start.specification.Fits start.plan.function) :
    w'.HasTrack (w.lanes.length + place)
      (·.Follows (start.schedule w.clock) start.specification (w.lanes.length + place)) := by
  obtain ⟨hfounded', -, hnew⟩ := hfounded.startAll starts
  obtain ⟨hlane, htrack⟩ := hnew place start hstart
  apply hfounded'.toSound.hasTrack hpasses
  · refine ⟨_, hlane, ?_⟩
    rw [htrack]
    exact start.track_follows _ _ hfits
  · intro t t' own horderly hfollows hstep
    exact hfollows.step horderly hstep

end TraceReplay.Replay
