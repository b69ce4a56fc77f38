import TraceReplay.Proofs.Replay.Prompt
import TraceReplay.Proofs.Replay.Refinement

/-!
# Early stops

A replay stops early exactly when it should.  At the check of a step with slots all that
has failed by then is counted; at the check of an empty step, at least what has failed
before.  As more failures never make a replay healthier, the checks decide as if they
knew the failures themselves.
-/

namespace TraceReplay.Replay

/-! ## Failures of issued slots -/

theorem Start.track_accounted (start : Start) (clock : Clock) (index : Nat) :
    (start.track clock index).Accounted start.lane clock.epoch 0 where
  plan := rfl
  context := rfl
  clock := rfl
  steps := List.length_replicate
  unasked x hx := by
    obtain rfl := Multiset.mem_singleton.mp hx
    simp [driver]
  counts step _ := start.lane_failedAt step
  past := by simp
  ledger := rfl

theorem Start.track_prompt (start : Start) (clock : Clock) (index : Nat) :
    (start.track clock index).Prompt index where
  settled s hcheck := by
    have heq := Multiset.mem_singleton.mp hcheck
    exact absurd heq (by simp [driver])
  awaits point s hheld := by
    have heq := Multiset.mem_singleton.mp hheld
    exact absurd heq (by simp)

/-! ## Checks -/

/-- Sleeping tasks wake in the future. -/
theorem Kept.asleep {w : World} (hkept : Kept w) {x : Place × Task} (hx : x ∈ w.view.standing)
    {due : Nat} (hasleep : x.1 = .asleep due) : w.clock.now < due := by
  have hstanding := (mem_ofLanes.mp hx).1
  simp only [World.standing, Multiset.mem_add, mem_placed, mem_sleeping, hasleep, reduceCtorEq,
    false_and, false_or, Place.asleep.injEq] at hstanding
  rcases hstanding with ⟨time, rfl, htimer⟩ | hheld
  · exact hkept.future _ htimer
  · exact absurd (World.heldTasks_place hheld) (by simp [hasleep])

namespace World

/-- Slots of a step that a lane has issued. -/
def issuedIn (w : World) (index step : Nat) : Nat :=
  (w.view.issuesOf index).countP (·.step = step)

end World

section Replays

variable {w u : World} {starts : List Start} {place : Nat} {start : Start}

/-- The failures of a lane whose invoker asks nobody are accounted for whenever one looks. -/
theorem Founded.accounted (hfounded : Founded w) (hpasses : (w.startAll starts).Passes u)
    (hstart : starts[place]? = some start) (hwaits : start.context.invoker.Waits) :
    u.HasTrack (w.lanes.length + place) fun t =>
      t.Manned (w.lanes.length + place) ∧
        (∃ counted, t.Accounted start.lane w.clock.epoch counted) ∧
          t.Prompt (w.lanes.length + place) := by
  obtain ⟨hfounded', -, hnew⟩ := hfounded.startAll starts
  obtain ⟨hlane, htrack⟩ := hnew place start hstart
  apply hfounded'.toSound.hasTrack hpasses
  · refine ⟨_, hlane, ?_⟩
    rw [htrack]
    exact ⟨start.track_manned _ _, ⟨0, start.track_accounted _ _⟩, start.track_prompt _ _⟩
  · rintro t t' own horderly ⟨hmanned, ⟨counted, haccounted⟩, hprompt⟩ hstep
    exact ⟨hmanned.step horderly hstep, haccounted.step hwaits horderly hstep,
      hprompt.step hmanned haccounted horderly hstep⟩

/-- A driver whose invoker asks nobody comes to its end. -/
theorem Unmanned.finishes (hunmanned : Unmanned w) (hstart : starts[place]? = some start)
    (hwaits : start.context.invoker.Waits) :
    ∃ finish ∈ (w.startAll starts).runToEnd.finished, finish.lane = w.lanes.length + place := by
  have hend := hunmanned.runToEnd_ends starts
  have hpasses := World.runToEnd_passes (w.startAll starts)
  have hsound := hunmanned.toFounded.sound hpasses
  obtain ⟨lane, -, hmanned, ⟨counted, haccounted⟩, hprompt⟩ :=
    hunmanned.toFounded.accounted hpasses hstart hwaits
  have hfinished := hprompt.finished hmanned haccounted (hsound.orderly.track _ lane)
    fun x hx => hsound.held_of_end hend (mem_ofLane.mp hx).1
  obtain ⟨finish, hmem⟩ := List.exists_mem_of_ne_nil _ hfinished
  obtain ⟨hmem, hlane⟩ := List.mem_filter.mp hmem
  exact ⟨finish, hmem, of_decide_eq_true hlane⟩

end Replays

/-! ## An empty minute -/

end TraceReplay.Replay
