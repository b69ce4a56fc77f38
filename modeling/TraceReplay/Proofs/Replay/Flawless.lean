import TraceReplay.Proofs.Replay.Perfect

/-!
# Replays without failures

While nothing of a lane fails its checks depend on the schedule alone, so what the lane issues
does, too: two replays of one schedule without failures issue the same slots at the same times,
whatever else goes on beside them.
-/

namespace TraceReplay.Replay

section Replays

variable {w u : World} {starts : List Start} {place : Nat} {start : Start}

/-- Without failures a driver passes no step after which its schedule halts. -/
theorem Founded.passed_of_flawless (hfounded : Founded w)
    (hpasses : (w.startAll starts).Passes u) (hstart : starts[place]? = some start)
    (hfits : start.specification.Fits start.plan.function) (hpolicy : start.plan.Decides)
    (hflawless : ∀ u, (w.startAll starts).Passes u →
      u.HasTrack (w.lanes.length + place) Track.Flawless) :
    u.HasTrack (w.lanes.length + place) (·.Passed (start.schedule w.clock)
      fun step => ¬(start.schedule w.clock).HaltsAfter step) := by
  apply hfounded.passed hpasses hstart hfits hpolicy
  intro u hbefore point s rest own hready hown hjudges notices hchecked hhalts
  obtain ⟨hplan, -, hslot, hfailed⟩ := hfounded.judged hbefore hstart hfits hpolicy
    (hflawless u hbefore) hready hown hjudges
  obtain ⟨_, hstopped⟩ := (Driver.Schedule.stopped_iff_haltsAfter hslot hfailed).mpr hhalts
  rw [hplan] at hchecked
  exact Driver.StepEnd.noConfusion (hchecked.symm.trans hstopped)

/-- A driver that comes to the end of its trace without being stopped has passed all steps. -/
theorem Unmanned.passed_all (hunmanned : Unmanned w) (hstart : starts[place]? = some start)
    (hfits : start.specification.Fits start.plan.function) (hpolicy : start.plan.Decides)
    {good : Nat → Prop}
    (hpassed : (w.startAll starts).runToEnd.HasTrack (w.lanes.length + place)
      (·.Passed (start.schedule w.clock) good))
    (hgoesOn : ∀ step, ¬(w.startAll starts).WillStopAt (w.lanes.length + place) step) :
    ∀ step, (start.schedule w.clock).firstStep ≤ step →
      step < start.plan.configuration.traceDuration → good step := by
  intro step hfirst hlast
  have hpasses := World.runToEnd_passes (w.startAll starts)
  have hsound := hunmanned.toFounded.sound hpasses
  obtain ⟨lane, -, ⟨hmanned, -, honschedule⟩, hpassed⟩ :=
    (hunmanned.toFounded.onSchedule hpasses hstart hfits hpolicy).and hpassed
  rcases hsound.done_of_end (hunmanned.runToEnd_ends starts) hmanned with
    ⟨x, hx, owner, s, hdriving⟩ | ⟨finish, hfinish⟩
  · have hover := honschedule.driver x hx owner .drained s hdriving
    have hdriver := hpassed.driver x hx owner .drained s hdriving
    have hend := hdriver.all rfl (hover.goesOn hgoesOn)
    exact hdriver.before step hfirst (hlast.trans_le hend)
  · obtain ⟨r, hresult, hover⟩ := honschedule.ended finish hfinish
    exact hpassed.ended finish hfinish r hresult (hover.goesOn hgoesOn) step hfirst hlast

/-- A replay without failures issues its schedule up to the first step after which that halts. -/
theorem Unmanned.runs (hunmanned : Unmanned w) (hstart : starts[place]? = some start)
    (hfits : start.specification.Fits start.plan.function) (hpolicy : start.plan.Decides)
    (hflawless : ∀ u, (w.startAll starts).Passes u →
      u.HasTrack (w.lanes.length + place) Track.Flawless) :
    (start.schedule w.clock).Runs
      ((w.startAll starts).runToEnd.entriesOf (w.lanes.length + place)) := by
  have hfounded := hunmanned.toFounded
  have hpassed {u : World} (hbefore : (w.startAll starts).Passes u) :=
    hfounded.passed_of_flawless hbefore hstart hfits hpolicy hflawless
  by_cases hwill : ∃ step, (w.startAll starts).WillStopAt (w.lanes.length + place) step
  · left
    obtain ⟨step, hstops⟩ := hwill
    obtain ⟨_, -, issues, hstopped, hentries⟩ := hunmanned.stopped hstart hfits hpolicy hstops
    obtain ⟨u, hbefore, point, s, rest, own, hready, hown, hjudges, rfl, hnotices⟩ := hstops
    obtain ⟨hplan, hrange, hslot, hfailed⟩ := hfounded.judged hbefore hstart hfits hpolicy
      (hflawless u hbefore) hready hown hjudges
    rw [hplan] at hnotices
    refine ⟨s.step, hrange, (Driver.Schedule.stopped_iff_haltsAfter hslot hfailed).mp hnotices,
      ?_, ?_⟩
    · -- The driver is at this step, so it has passed those before.
      obtain ⟨hview, hstanding⟩ := World.track_ready hready hown
      obtain ⟨lane, hlane, hdriver⟩ := hpassed hbefore
      obtain rfl : own.unparked = lane := Option.some.inj (hview.symm.trans hlane)
      have hmem := hstanding ▸ Multiset.mem_cons_self _ _
      exact (hdriver.driver _ hmem _ point s rfl).before
    · rw [← hentries]
      exact congrArg (List.map Driver.Issue.entry) hstopped.issues
  · right
    have hgoesOn (step : Nat) :
        ¬(w.startAll starts).WillStopAt (w.lanes.length + place) step :=
      fun hstops => hwill ⟨step, hstops⟩
    exact ⟨hunmanned.passed_all hstart hfits hpolicy (hpassed (World.runToEnd_passes _)) hgoesOn,
      hunmanned.entriesOf_of_goesOn hstart hfits hpolicy hgoesOn⟩

end Replays
end TraceReplay.Replay
