import TraceReplay.Proofs.Driver.Failure
import TraceReplay.Proofs.Replay.Refinement
import TraceReplay.Proofs.Replay.Rest

/-!
# Drivers that fail

A driver that has failed had a reason to, and nothing else than its end is noted with the time.
Time passes only when nobody is ready; so a replay that is enough as soon as a driver has failed
ends at the time of the first failure, and until then it is the replay that would have gone on.
-/

namespace TraceReplay.Replay

/-- The driver has ended with an error. -/
def Finish.Failed (finish : Finish) : Prop := ∃ error, finish.result = .error error

/-- Some driver has failed. -/
def World.HasFailed (w : World) : Prop := ∃ finish ∈ w.finished, finish.Failed

/-! ## Reasons -/

namespace Track

/-- The driver still lacks what it lacked when it was given its specification, and if it has
failed, it had a reason. -/
structure Fallible (plan : Driver.Plan) (given : Specification) (t : Track) : Prop where
  planned : t.lane.plan = plan
  lacks : ∀ x ∈ t.standing, ∀ lane point s, x.2.driving? = some (lane, point, s) →
    ∀ step slot, s.specification.Lacks step slot ↔ given.Lacks step slot
  fails : ∀ finish ∈ t.finished, ∀ error, finish.result = .error error →
    plan.FailsWith given error

theorem Fallible.step {plan : Driver.Plan} {given : Specification} {index : Nat} {t t' : Track}
    {own : Bool} (hfallible : t.Fallible plan given) (horderly : t.Orderly index)
    (hstep : Step index own t t') : t'.Fallible plan given := by
  have hplan := (hstep.plan horderly).trans hfallible.planned
  cases own with
  | true =>
    cases hstep with
    | @drive _ point s rest hstanding =>
      have hlacks := hfallible.lacks (.ready, .drive index point s) (by simp [hstanding])
        index point s rfl
      refine ⟨hplan, fun x hx lane next s' hdriving => ?_, fun finish hmem error herror => ?_⟩
      · rcases mem_move hx with hmem | hnone | ⟨next', hnext, -⟩
        · apply hfallible.lacks x ?_ lane next s' hdriving
          rw [hstanding]
          exact Multiset.mem_cons_of_mem hmem
        · exact absurd hnone (by simp [hdriving])
        · rw [hnext] at hdriving
          simp only [Option.some.injEq, Prod.mk.injEq] at hdriving
          obtain ⟨-, rfl, rfl⟩ := hdriving
          exact fun step slot => (Driver.turn_lacks _ _ _ _ _ step slot).trans (hlacks step slot)
      · rcases mem_move_finished hmem with hold | ⟨_, -, rfl⟩ | ⟨cause, hmove, rfl⟩
        · exact hfallible.fails finish hold error herror
        · exact absurd herror (by simp)
        · obtain rfl := Except.error.inj herror
          exact hfallible.planned ▸ (Driver.turn_fail hmove).congr hlacks
  | false =>
    have honward := hstep.onward horderly
    refine ⟨hplan, fun x hx lane point s hdriving => ?_, ?_⟩
    · obtain ⟨y, hy, hsame, -⟩ := honward.driver x hx lane point s hdriving
      exact hfallible.lacks y hy lane point s hsame
    · rw [honward.finished]
      exact hfallible.fails

end Track

theorem Start.track_fallible (start : Start) (clock : Clock) (index : Nat) :
    (start.track clock index).Fallible start.plan start.specification := by
  refine ⟨rfl, fun x hx lane point s hdriving step slot => ?_, by simp [Start.track]⟩
  obtain rfl := Multiset.mem_singleton.mp hx
  simp only [driver, Task.driving?, Option.some.injEq, Prod.mk.injEq] at hdriving
  obtain ⟨-, -, rfl⟩ := hdriving
  unfold Driver.begin
  split <;> rfl

section Replays

variable {w u : World} {starts : List Start}

/-- Each driver that has failed was started, and has a reason. -/
theorem Unmanned.failsWith (hunmanned : Unmanned w) (hfresh : w.finished = [])
    (hpasses : (w.startAll starts).Passes u) {finish : Finish} (hfinish : finish ∈ u.finished)
    {error : ReplayError} (herror : finish.result = .error error) :
    ∃ place start, starts[place]? = some start ∧ finish.lane = w.lanes.length + place ∧
      start.plan.FailsWith start.specification error := by
  obtain ⟨place, start, hstart, hplace⟩ := hunmanned.exists_start hfresh hpasses hfinish
  refine ⟨place, start, hstart, hplace, ?_⟩
  obtain ⟨hfounded, -, hnew⟩ := hunmanned.startAll starts
  obtain ⟨hbegun, htrack⟩ := hnew place start hstart
  obtain ⟨lane, -, hfallible⟩ := hfounded.toSound.hasTrack hpasses
    ⟨_, hbegun, htrack ▸ start.track_fallible _ _⟩
    fun horderly hfallible hstep => hfallible.step horderly hstep
  exact hfallible.fails finish (List.mem_filter.mpr ⟨hfinish, by simp [hplace]⟩) error herror

end Replays

/-! ## The time of a failure -/

namespace World

variable {w w' : World}

/-- Whatever driver has failed has done so now. -/
def FailsNow (w : World) : Prop := ∀ finish ∈ w.finished, finish.Failed → finish.time = w.clock.now

/-- Time does not pass in a turn that somebody is ready for. -/
theorem FailsNow.step (hfails : w.FailsNow) (hstep : w.step? = some w')
    (hgoes : w.isQuiet = true → ¬w.HasFailed) : w'.FailsNow := by
  intro finish hfinish hfailed
  cases hquiet : w.isQuiet with
  | false =>
    rw [clock_step_eq hstep hquiet]
    exact ((finished_step hstep).mem hfinish).elim (hfails finish · hfailed) id
  | true =>
    rw [finished_step_quiet hstep hquiet] at hfinish
    exact absurd ⟨finish, hfinish, hfailed⟩ (hgoes hquiet)

/-- A run that is enough when a driver has failed stops at the time of the failure. -/
theorem FailsNow.run {enough : World → Bool} (henough : ∀ u, u.HasFailed → enough u = true)
    (hfails : w.FailsNow) (fuel : Nat) : (w.run enough fuel).FailsNow := by
  induction fuel generalizing w with
  | zero => exact hfails
  | succ fuel ih =>
    unfold World.run
    split
    · exact hfails
    · rename_i hgoes
      split
      · rename_i next hstep
        refine ih (hfails.step hstep fun hquiet hfailed => hgoes ?_)
        rw [hquiet, henough w hfailed]
        rfl
      · exact hfails

/-- Nothing is noted when drivers are started. -/
theorem startAll_notes (w : World) (starts : List Start) :
    (w.startAll starts).finished = w.finished ∧ (w.startAll starts).issues = w.issues := by
  induction starts generalizing w with
  | nil => exact ⟨rfl, rfl⟩
  | cons start starts ih => exact ih (w.begun start)

end World

/-- A replay has come to its first failure: some driver fails now, and none has failed before. -/
structure FirstFailure (w last : World) : Prop where
  failed : last.HasFailed
  now : last.FailsNow
  before : last.finished ⊆ w.runToEnd.finished
  first : ∀ finish ∈ w.runToEnd.finished, finish.Failed → last.clock.now ≤ finish.time

/-- A replay in which a driver would fail, and which goes on until one has failed or all have
ended, comes to the first failure. -/
theorem Unmanned.firstFailure {w : World} {starts : List Start} {enough : World → Bool}
    (hunmanned : Unmanned w) (hfresh : w.finished = [])
    (henough : ∀ u, enough u = true ↔ u.HasFailed ∨ u.finished.length = starts.length)
    (hfails : (w.startAll starts).runToEnd.HasFailed) :
    FirstFailure (w.startAll starts) ((w.startAll starts).run enough (w.startAll starts).turns) := by
  have hend := hunmanned.runToEnd_ends starts
  have hall : (w.startAll starts).Passes (w.startAll starts).runToEnd := World.runToEnd_passes _
  have hstops := hunmanned.run_stops starts enough
  have hpasses := World.run_passes enough (w.startAll starts).turns (w.startAll starts)
  have hnow : ((w.startAll starts).run enough (w.startAll starts).turns).FailsNow := by
    apply World.FailsNow.run fun u hfailed => (henough u).mpr (.inl hfailed)
    simp [World.FailsNow, (World.startAll_notes w starts).1, hfresh]
  generalize (w.startAll starts).run enough (w.startAll starts).turns = last at hstops hpasses hnow ⊢
  have hrest : Prepends (fun finish => last.clock.now ≤ finish.time) last.finished
      (w.startAll starts).runToEnd.finished := (hpasses.to_last hall hend).finished
  refine ⟨?_, hnow, hrest.subset, fun finish hfinish hfailed => ?_⟩
  · rcases hstops with ⟨-, hout⟩ | hstop
    · rcases (henough last).mp hout with hfailed | hended
      · exact hfailed
      · -- All drivers have ended, so none of them is left to fail later.
        obtain ⟨hnodup, hsubset⟩ := hunmanned.nodup_ended hfresh hall
        have hlength : (w.startAll starts).runToEnd.finished.length ≤ starts.length := by
          simpa using (hnodup.subperm hsubset).length_le
        obtain ⟨finish, hfinish, hfailed⟩ := hfails
        obtain ⟨more, hsame, -⟩ := hrest
        obtain rfl : more = [] := by
          apply List.eq_nil_of_length_eq_zero
          rw [hsame, List.length_append] at hlength
          omega
        rw [hsame] at hfinish
        exact ⟨finish, hfinish, hfailed⟩
    · rw [hpasses.eq_last hall hstop hend]
      exact hfails
  · rcases hrest.mem hfinish with hbefore | hlater
    · exact (hnow finish hbefore hfailed).ge
    · exact hlater

end TraceReplay.Replay
