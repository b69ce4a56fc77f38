import TraceReplay.Proofs.Replay.Conservation
import TraceReplay.Proofs.Replay.Rest

/-!
# Replays that have ended

A replay has ended well when each of its drivers has reported.  What is reported is final:
however long the world goes on, a driver that has ended stays so, and its lane has issued
and counted what the report says.
-/

namespace TraceReplay.Replay

/-- Some drivers were started in a world, and have ended well in `last`; `rested` is the world
some time later. -/
structure Ended (w : World) (starts : List Start) (last rested : World) : Prop where
  unmanned : Unmanned w
  fresh : w.finished = []
  passes : (w.startAll starts).Passes last
  ended : last.finished.length = starts.length
  well : ∀ finish ∈ last.finished, ∃ r, finish.result = .ok r
  rests : ∃ notices, (last.report notices).Rests rested

/-- What a driver has reported is so later on, and nothing stands in its lane. -/
structure Reported (rested : World) (index : Nat) (r : Driver.Report) : Prop where
  issued : r.issued = (rested.view.issuesOf index).length
  outcomes : r.successful + r.failed = (rested.view.lane index).elim 0 Lane.outcomes
  gone : ∀ x ∈ rested.view.standing, x.2.lane? ≠ some index

namespace Ended

variable {w last rested : World} {starts : List Start} {place : Nat} {start : Start}
  {finish : Finish}

theorem lanes_ended (hended : Ended w starts last rested) :
    (last.finished.map (·.lane)).Perm (List.range' w.lanes.length starts.length) :=
  hended.unmanned.lanes_ended hended.fresh hended.passes hended.ended

theorem exists_finish (hended : Ended w starts last rested) (hstart : starts[place]? = some start) :
    ∃ finish ∈ last.finished, finish.lane = w.lanes.length + place := by
  have hplace := (List.getElem?_eq_some_iff.mp hstart).1
  have hmem : w.lanes.length + place ∈ last.finished.map (·.lane) := by
    rw [hended.lanes_ended.mem_iff, List.mem_range'_1]
    omega
  exact List.mem_map.mp hmem

/-- Each driver that has ended was started. -/
theorem exists_start (hended : Ended w starts last rested) (hfinish : finish ∈ last.finished) :
    ∃ place start, starts[place]? = some start ∧ finish.lane = w.lanes.length + place :=
  hended.unmanned.exists_start hended.fresh hended.passes hfinish

theorem sound (hended : Ended w starts last rested) : Sound rested := by
  obtain ⟨notices, hrests⟩ := hended.rests
  have hlast := hended.unmanned.toFounded.sound hended.passes
  exact (hlast.report notices).rests hrests

/-- What steps of a view keep from the start of the drivers on holds in the end. -/
theorem view (hended : Ended w starts last rested) {P : View → Prop}
    (hkeeps : ∀ {v v' : View} {who}, v.Orderly → View.Step who v v' → P v → P v')
    (hbegin : P (w.startAll starts).view) : P rested.view := by
  obtain ⟨notices, hrests⟩ := hended.rests
  have hbegun := (hended.unmanned.startAll starts).1.toSound
  have hlast := hended.unmanned.toFounded.sound hended.passes
  have hview : P last.view := hbegun.view_passes hkeeps hbegin hended.passes
  exact (hlast.report notices).view_rests hrests hkeeps hview

/-- What steps of a track keep from the start of its driver on, the track has when the
drivers have ended and as long as time passes. -/
theorem hasTrack (hended : Ended w starts last rested) (hstart : starts[place]? = some start)
    (hfinish : finish ∈ last.finished) (hfinishLane : finish.lane = w.lanes.length + place)
    {P : Track → Prop} (hbegin : P (start.track w.clock (w.lanes.length + place)))
    (hkeeps : ∀ {t t' : Track} {own}, t.Orderly (w.lanes.length + place) → P t →
      Track.Step (w.lanes.length + place) own t t' → P t') :
    rested.HasTrack (w.lanes.length + place) fun t => P t ∧ finish ∈ t.finished := by
  obtain ⟨hfounded, -, hnew⟩ := hended.unmanned.startAll starts
  obtain ⟨hlane, htrack⟩ := hnew place start hstart
  obtain ⟨notices, hrests⟩ := hended.rests
  have hsound := hended.unmanned.toFounded.sound hended.passes
  -- The lane is manned all the time, so what has ended stays ended.
  have hkeepsBoth {t t' : Track} {own : Bool} (horderly : t.Orderly (w.lanes.length + place))
      (hboth : P t ∧ t.Manned (w.lanes.length + place))
      (hstep : Track.Step (w.lanes.length + place) own t t') :
      P t' ∧ t'.Manned (w.lanes.length + place) :=
    ⟨hkeeps horderly hboth.1 hstep, hboth.2.step horderly hstep⟩
  have hlast : (last.report notices).HasTrack (w.lanes.length + place) fun t =>
      (P t ∧ t.Manned (w.lanes.length + place)) ∧ finish ∈ t.finished := by
    obtain ⟨lane, hlane, hboth⟩ := hfounded.toSound.hasTrack hended.passes
      (P := fun t => P t ∧ t.Manned (w.lanes.length + place))
      ⟨_, hlane, by rw [htrack]; exact ⟨hbegin, start.track_manned _ _⟩⟩ hkeepsBoth
    exact ⟨lane, hlane, hboth, List.mem_filter.mpr ⟨hfinish, by simp [hfinishLane]⟩⟩
  have hrested := (hsound.report notices).hasTrack_rests hrests hlast
    fun horderly hboth hstep => ⟨hkeepsBoth horderly hboth.1 hstep,
      Track.mem_finished_step hboth.1.2 horderly hstep hboth.2⟩
  exact hrested.mono fun t hboth => ⟨hboth.1.1, hboth.2⟩

/-- What a driver has reported is final. -/
theorem reported (hended : Ended w starts last rested) (hfinish : finish ∈ last.finished) :
    ∃ r, finish.result = .ok r ∧ Reported rested finish.lane r := by
  obtain ⟨place, start, hstart, hplace⟩ := hended.exists_start hfinish
  obtain ⟨r, hresult⟩ := hended.well finish hfinish
  obtain ⟨lane, hview, hmanned, hmem⟩ := hended.hasTrack hstart hfinish hplace
    (P := fun t => t.Manned (w.lanes.length + place)) (start.track_manned _ _)
    fun horderly hmanned hstep => hmanned.step horderly hstep
  obtain ⟨-, hsuccessful, hfailed, hissued⟩ := hmanned.ended finish hmem r hresult
  refine ⟨r, hresult, ?_, ?_, fun x hx hlane => ?_⟩
  · rw [hplace]
    exact hissued
  · rw [hplace, hview, hsuccessful, hfailed]
    rfl
  · have hstanding : x ∈ (rested.view.track (w.lanes.length + place) lane).standing :=
      mem_ofLane.mpr ⟨hx, hplace ▸ hlane⟩
    rw [hmanned.standing_eq_zero hmem hresult] at hstanding
    exact Multiset.notMem_zero x hstanding

/-- What is counted for each lane is counted for each driver that ended. -/
theorem sum_lanes (hended : Ended w starts last rested) (f : Nat → Nat) :
    (last.finished.map fun finish => (f finish.lane : Int)).sum =
      ((∑ index ∈ w.newLanes starts, f index : Nat) : Int) := by
  have hlanes := hended.lanes_ended.map fun index => (f index : Int)
  rw [List.map_map] at hlanes
  rw [World.newLanes, List.sum_toFinset _ (List.nodup_range' 1 Nat.one_pos), Nat.cast_list_sum,
    List.map_map]
  exact hlanes.sum_eq

/-- The drivers of all lanes are gone. -/
theorem gone (hended : Ended w starts last rested) {index : Nat}
    (hindex : index ∈ w.newLanes starts) {x : Place × Task} (hx : x ∈ rested.view.standing) :
    x.2.lane? ≠ some index := by
  rw [World.newLanes, List.mem_toFinset, ← hended.lanes_ended.mem_iff] at hindex
  obtain ⟨finish, hfinish, rfl⟩ := List.mem_map.mp hindex
  obtain ⟨r, -, hreported⟩ := hended.reported hfinish
  exact hreported.gone x hx

end Ended
end TraceReplay.Replay
