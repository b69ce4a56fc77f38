import TraceReplay.Proofs.Driver.Invariant
import TraceReplay.Proofs.Replay.Content

/-!
# Invariants that are upheld

What every turn of a driver keeps holds of the driver wherever it stands in a replay: ready,
asleep, in a mailbox or waiting for its invocations.  Of its lane it holds even when the
driver has ended, well or with an error, or has been given up.
-/

namespace TraceReplay.Replay

namespace Track

variable {plan : Driver.Plan} {invariant : Driver.Invariant plan} {index : Nat} {t t' : Track}

/-- The driver of the lane has the invariant, with what the lane has issued. -/
structure Upholds (invariant : Driver.Invariant plan) (t : Track) : Prop where
  planned : t.lane.plan = plan
  driver : ∀ x ∈ t.standing, ∀ lane point s, x.2.driving? = some (lane, point, s) →
    invariant.holds point s t.issues
  /-- Where the driver was last, if it stands nowhere any more. -/
  last : ∃ point s, invariant.holds point s t.issues
  ended : ∀ finish ∈ t.finished, ∀ r, finish.result = .ok r → ∃ counters s,
    r = Driver.report plan counters s ∧ invariant.holds .drained s t.issues

namespace Upholds

/-- The turn of the driver. -/
theorem drive (hupholds : t.Upholds invariant) (hmanned : t.Manned index)
    {point : Driver.Point} {s : Driver.State} {rest : Standing}
    (hstanding : t.standing = (.ready, .drive index point s) ::ₘ rest) :
    Upholds invariant ({ t with standing := rest }.drive index
      (Driver.turn t.lane.plan t.clock t.lane.counters point s)) := by
  obtain ⟨hrest, hfinished⟩ := hmanned.alone hstanding (by simp [Task.driving?])
  have hholds : invariant.holds point s t.issues :=
    hupholds.driver (.ready, .drive index point s) (by simp [hstanding]) index point s rfl
  have harrives := invariant.turn t.clock t.lane.counters hholds
  have hended := Driver.turn_issue_of_ended plan t.clock t.lane.counters point s
  rw [hupholds.planned]
  refine ⟨(move_plan _ _ _ _).trans hupholds.planned, fun x hx lane next state hdriving => ?_,
    ?_, fun finish hmem r hresult => ?_⟩
  · simp only [Track.drive, move_issues]
    rcases mem_move hx with hold | hnone | ⟨goal, hgoal, hgoes⟩
    · exact absurd (hrest x hold) (by simp [hdriving])
    · exact absurd hnone (by simp [hdriving])
    · rw [hgoal] at hdriving
      simp only [Option.some.injEq, Prod.mk.injEq] at hdriving
      obtain ⟨-, rfl, rfl⟩ := hdriving
      exact hgoes (fun _ next => invariant.holds next _ _) harrives
  · simp only [Track.drive, move_issues]
    cases hmove : (Driver.turn plan t.clock t.lane.counters point s).move with
    | finish r =>
      rw [hended (.inl ⟨r, hmove⟩), Option.toList_none, List.append_nil]
      exact ⟨point, s, hholds⟩
    | fail error =>
      rw [hended (.inr ⟨error, hmove⟩), Option.toList_none, List.append_nil]
      exact ⟨point, s, hholds⟩
    | await next =>
      rw [hmove] at harrives
      exact ⟨next, _, harrives 0⟩
    | _ =>
      rw [hmove] at harrives
      exact ⟨_, _, harrives⟩
  · simp only [Track.drive, move_issues]
    rcases mem_move_finished hmem with hold | ⟨report, hmove, rfl⟩ | ⟨error, -, rfl⟩
    · exact absurd hold (by simp [hfinished])
    · obtain rfl := Except.ok.inj hresult
      obtain ⟨rfl, hreport⟩ := Driver.turn_finish hmove
      rw [hended (.inl ⟨_, hmove⟩), Option.toList_none, List.append_nil]
      exact ⟨_, s, hreport, hholds⟩
    · exact absurd hresult (by simp)

theorem step (hupholds : t.Upholds invariant) (hmanned : t.Manned index)
    (horderly : t.Orderly index) {own : Bool} (hstep : Step index own t t') :
    t'.Upholds invariant := by
  cases own with
  | true =>
    cases hstep with
    | drive hstanding => exact hupholds.drive hmanned hstanding
  | false =>
    have honward := hstep.onward horderly
    refine ⟨honward.plan.trans hupholds.planned, fun x hx lane point s hdriving => ?_, ?_, ?_⟩
    · obtain ⟨y, hy, hsame, -⟩ := honward.driver x hx lane point s hdriving
      rw [honward.issues]
      exact hupholds.driver y hy lane point s hsame
    · rw [honward.issues]
      exact hupholds.last
    · rw [honward.finished, honward.issues]
      exact hupholds.ended

end Upholds

end Track

/-- A driver that is about to start has an invariant that it begins with. -/
theorem Start.track_upholds (start : Start) (clock : Clock) (index : Nat)
    {invariant : Driver.Invariant start.plan}
    (hbegin : invariant.holds .head (Driver.begin start.plan start.specification clock) []) :
    (start.track clock index).Upholds invariant where
  planned := rfl
  driver x hx lane point s hdriving := by
    obtain rfl := Multiset.mem_singleton.mp hx
    simp only [driver, Task.driving?, Option.some.injEq, Prod.mk.injEq] at hdriving
    obtain ⟨-, rfl, rfl⟩ := hdriving
    exact hbegin
  last := ⟨_, _, hbegin⟩
  ended finish hmem := absurd hmem (by simp [track])

theorem Start.track_settled (start : Start) (clock : Clock) (index : Nat) :
    (start.track clock index).Settled start.plan start.specification where
  planned := rfl
  driver x hx lane point s hdriving := by
    obtain rfl := Multiset.mem_singleton.mp hx
    simp only [driver, Task.driving?, Option.some.injEq, Prod.mk.injEq] at hdriving
    obtain ⟨-, rfl, rfl⟩ := hdriving
    exact Driver.Plan.hasRest_begin _ _ _
  issues place issue hissue := absurd hissue (by simp [track])

/-- A lane with its driver and what it was given to issue. -/
structure Track.Serves (plan : Driver.Plan) (given : Specification) (index : Nat) (t : Track) :
    Prop where
  manned : t.Manned index
  settled : t.Settled plan given

theorem Track.Serves.step {plan : Driver.Plan} {given : Specification} {index : Nat}
    {t t' : Track} (hserves : t.Serves plan given index) (horderly : t.Orderly index)
    {own : Bool} (hstep : Track.Step index own t t') : t'.Serves plan given index where
  manned := hserves.manned.step horderly hstep
  settled := hserves.settled.step hserves.manned horderly hstep

/-- What holds of the one driver of a lane is upheld from then on. -/
theorem Track.Serves.upholds {plan : Driver.Plan} {given : Specification} {index : Nat}
    {t : Track} (hserves : t.Serves plan given index) {invariant : Driver.Invariant plan}
    {x : Place × Task} (hx : x ∈ t.standing) {point : Driver.Point} {s : Driver.State}
    (hdriving : x.2.driving? = some (index, point, s))
    (hholds : invariant.holds point s t.issues) : t.Upholds invariant := by
  obtain ⟨rest, hstanding⟩ := Multiset.exists_cons_of_mem hx
  obtain ⟨hrest, hfinished⟩ := hserves.manned.alone hstanding (by simp [hdriving])
  refine ⟨hserves.settled.planned, fun y hy lane next other hother => ?_, ⟨point, s, hholds⟩,
    by simp [hfinished]⟩
  rw [hstanding] at hy
  rcases Multiset.mem_cons.mp hy with rfl | hy
  · simp only [hdriving, Option.some.injEq, Prod.mk.injEq] at hother
    obtain ⟨-, rfl, rfl⟩ := hother
    exact hholds
  · exact absurd (hrest y hy) (by simp [hother])

/-- What a lane issues has the IDs that are composed for its slots. -/
theorem Track.Settled.invocationId {plan : Driver.Plan} {given : Specification} {t : Track}
    (hsettled : t.Settled plan given) {issue : Driver.Issue} (hmem : issue ∈ t.issues) :
    issue.invocationId = TraceReplay.invocationId plan.function.name
      plan.configuration.granularity issue.step issue.slot := by
  obtain ⟨place, hplace⟩ := List.getElem?_of_mem hmem
  exact congrArg Driver.Issue.invocationId (hsettled.issues place issue hplace)

section Worlds

variable {w u u' : World} {starts : List Start} {place : Nat} {start : Start}

/-- What holds of a lane that serves its driver is upheld from then on. -/
theorem Sound.upholds (hsound : Sound u) {index : Nat} {plan : Driver.Plan}
    {given : Specification} {invariant : Driver.Invariant plan}
    (htrack : u.HasTrack index fun t => t.Serves plan given index ∧ t.Upholds invariant)
    (hpasses : u.Passes u') :
    u'.HasTrack index fun t => t.Serves plan given index ∧ t.Upholds invariant :=
  hsound.hasTrack hpasses htrack fun horderly hholds hstep =>
    ⟨hholds.1.step horderly hstep, hholds.2.step hholds.1.manned horderly hstep⟩

/-- What a driver begins with is upheld throughout the replay. -/
theorem Founded.upholds (hfounded : Founded w) (hstart : starts[place]? = some start)
    (hpasses : (w.startAll starts).Passes u) {invariant : Driver.Invariant start.plan}
    (hbegin : invariant.holds .head
      (Driver.begin start.plan start.specification w.clock) []) :
    u.HasTrack (w.lanes.length + place) fun t =>
      t.Serves start.plan start.specification (w.lanes.length + place) ∧ t.Upholds invariant := by
  obtain ⟨hlane, htrack⟩ := (hfounded.startAll starts).2.2 place start hstart
  refine (hfounded.startAll starts).1.toSound.upholds ⟨_, hlane, ?_⟩ hpasses
  rw [htrack]
  exact ⟨⟨start.track_manned _ _, start.track_settled _ _⟩, start.track_upholds _ _ hbegin⟩

end Worlds
end TraceReplay.Replay
