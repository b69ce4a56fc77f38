import TraceReplay.Proofs.Replay.Content
import TraceReplay.Proofs.Replay.Termination

/-!
# The end of a replay

A replay has as many drivers as were started, each in its lane.  Once that many have ended,
every lane's has, and whatever time passes then changes nothing of what the lanes have
issued.
-/

namespace TraceReplay.Replay

/-! ## Drivers -/

/-- Every driver that is started has a lane of its own. -/
theorem World.drivers_startAll (w : World) (starts : List Start) (index : Nat) :
    (w.startAll starts).view.drivers index = w.view.drivers index +
      if w.lanes.length ≤ index ∧ index < w.lanes.length + starts.length then 1 else 0 := by
  induction starts generalizing w with
  | nil =>
    rw [if_neg (by simp only [List.length_nil]; omega)]
    rfl
  | cons start starts ih =>
    have hrest := ih (w.begun start)
    rw [World.drivers_begun, World.begun_lanes, List.length_append, List.length_singleton] at hrest
    refine hrest.trans ?_
    rw [List.length_cons, Nat.add_assoc]
    congr 1
    split_ifs <;> omega

/-- In a replay no driver is made or lost. -/
theorem Sound.drivers_passes {w w' : World} (hsound : Sound w) (hpasses : w.Passes w')
    (index : Nat) : w'.view.drivers index = w.view.drivers index :=
  hsound.view_passes (P := fun v => v.drivers index = w.view.drivers index)
    (fun _ hstep hsame => (View.drivers_step hstep index).trans hsame) rfl hpasses

section Replays

variable {w w' : World} {starts : List Start}

/-- Where nobody was driven there are the drivers that were started and no others. -/
theorem Unmanned.drivers_eq (hunmanned : Unmanned w) (hfresh : w.finished = [])
    (hpasses : (w.startAll starts).Passes w') (index : Nat) : w'.view.drivers index =
      if w.lanes.length ≤ index ∧ index < w.lanes.length + starts.length then 1 else 0 := by
  have hidle : w.view.standing.countP (fun x => x.2.driving?.map (·.1) = some index) = 0 :=
    Multiset.countP_eq_zero.mpr fun x hx => by simp [hunmanned.idle x hx]
  have hnone : w.view.drivers index = 0 := by
    rw [View.drivers, hidle, Nat.zero_add]
    exact congrArg (List.countP _) hfresh
  rw [(hunmanned.startAll starts).1.toSound.drivers_passes hpasses, World.drivers_startAll, hnone,
    Nat.zero_add]

/-- No driver ends twice, and none that was not started. -/
theorem Unmanned.nodup_ended (hunmanned : Unmanned w) (hfresh : w.finished = [])
    (hpasses : (w.startAll starts).Passes w') : (w'.finished.map (·.lane)).Nodup ∧
      w'.finished.map (·.lane) ⊆ List.range' w.lanes.length starts.length := by
  have hcount (index : Nat) : (w'.finished.map (·.lane)).count index ≤
      if w.lanes.length ≤ index ∧ index < w.lanes.length + starts.length then 1 else 0 := by
    rw [← hunmanned.drivers_eq hfresh hpasses, List.count, List.countP_map]
    exact Nat.le_add_left _ _
  constructor
  · apply List.nodup_iff_count_le_one.mpr
    intro index
    exact (hcount index).trans (by split <;> omega)
  · intro index hmem
    have hpos := (List.count_pos_iff.mpr hmem).trans_le (hcount index)
    rw [List.mem_range'_1]
    by_contra houtside
    rw [if_neg houtside] at hpos
    exact lt_irrefl 0 hpos

/-- Each driver that has ended was started. -/
theorem Unmanned.exists_start (hunmanned : Unmanned w) (hfresh : w.finished = [])
    (hpasses : (w.startAll starts).Passes w') {finish : Finish} (hfinish : finish ∈ w'.finished) :
    ∃ place start, starts[place]? = some start ∧ finish.lane = w.lanes.length + place := by
  have hlane := (hunmanned.nodup_ended hfresh hpasses).2 (List.mem_map_of_mem hfinish)
  rw [List.mem_range'_1] at hlane
  obtain ⟨place, hplace⟩ := Nat.exists_eq_add_of_le hlane.1
  exact ⟨place, starts[place], List.getElem?_eq_getElem (by omega), hplace⟩

/-- Once as many drivers have ended as were started, each of them has, and only once. -/
theorem Unmanned.lanes_ended (hunmanned : Unmanned w) (hfresh : w.finished = [])
    (hpasses : (w.startAll starts).Passes w') (hended : w'.finished.length = starts.length) :
    (w'.finished.map (·.lane)).Perm (List.range' w.lanes.length starts.length) := by
  obtain ⟨hnodup, hsubset⟩ := hunmanned.nodup_ended hfresh hpasses
  exact (hnodup.subperm hsubset).perm_of_length_le (by simp [hended])

/-- If each driver has ended, as many have ended as were started. -/
theorem Unmanned.length_ended (hunmanned : Unmanned w) (hfresh : w.finished = [])
    (hpasses : (w.startAll starts).Passes w')
    (hended : ∀ place < starts.length, ∃ finish ∈ w'.finished,
      finish.lane = w.lanes.length + place) : w'.finished.length = starts.length := by
  obtain ⟨hnodup, hsubset⟩ := hunmanned.nodup_ended hfresh hpasses
  have hall : List.range' w.lanes.length starts.length ⊆ w'.finished.map (·.lane) := by
    intro index hindex
    obtain ⟨hle, hlt⟩ := List.mem_range'_1.mp hindex
    obtain ⟨finish, hmem, hlane⟩ := hended (index - w.lanes.length) (by omega)
    exact List.mem_map.mpr ⟨finish, hmem, by omega⟩
  have hperm := (hnodup.subperm hsubset).antisymm ((List.nodup_range' 1 Nat.one_pos).subperm hall)
  simpa using hperm.length_eq

/-- Once as many drivers have ended as were started, nobody is driven any more. -/
theorem Unmanned.driverless_of_ended (hunmanned : Unmanned w) (hfresh : w.finished = [])
    (hpasses : (w.startAll starts).Passes w') (hended : w'.finished.length = starts.length) :
    Driverless w' := by
  refine ⟨hunmanned.toFounded.sound hpasses, fun x hx => ?_⟩
  by_contra hdriving
  obtain ⟨⟨index, point, s⟩, hsome⟩ := Option.ne_none_iff_exists'.mp hdriving
  have hstanding : 0 < w'.view.standing.countP
      (fun x => x.2.driving?.map (·.1) = some index) :=
    Multiset.countP_pos.mpr ⟨x, hx, by simp [hsome]⟩
  have hdrivers := hunmanned.drivers_eq hfresh hpasses index
  rw [View.drivers] at hdrivers
  split at hdrivers
  · -- The one driver of the lane has ended.
    rename_i hnew
    have hmem : index ∈ w'.finished.map (·.lane) :=
      (hunmanned.lanes_ended hfresh hpasses hended).symm.subset (List.mem_range'_1.mpr hnew)
    obtain ⟨finish, hfinish, rfl⟩ := List.mem_map.mp hmem
    have hfinished : 0 < w'.view.finished.countP (fun other => other.lane = finish.lane) :=
      List.countP_pos_iff.mpr ⟨finish, hfinish, by simp⟩
    omega
  · omega

end Replays

/-! ## Rest -/

/-- The world some time later, if any time has passed at all. -/
def World.Rests (w w' : World) : Prop :=
  w' = w ∨ ∃ time enough fuel, w.clock.now < time ∧
    w' = (w.sleepUntil time .idle).run enough fuel

theorem World.view_sleepUntil_idle (w : World) (time : Nat) :
    (w.sleepUntil time .idle).view = w.view := by
  refine View.ext rfl ?_ rfl rfl rfl rfl rfl rfl rfl
  change ofLanes (World.standing (w.sleepUntil time .idle)) = _
  rw [World.standing_sleepUntil, ofLanes_cons_service rfl]
  rfl

theorem Sound.sleepUntil_idle {w : World} (hsound : Sound w) {time : Nat}
    (hlater : w.clock.now < time) : Sound (w.sleepUntil time .idle) :=
  { hsound.toKept.sleepUntil hlater .idle with
    orderly := by
      rw [World.view_sleepUntil_idle]
      exact hsound.orderly
    single := by
      rw [World.view_sleepUntil_idle]
      exact hsound.single }

/-- What all steps of a track keep is kept while time passes. -/
theorem Sound.hasTrack_rests {w w' : World} (hsound : Sound w) (hrests : w.Rests w') {index : Nat}
    {P : Track → Prop} (htrack : w.HasTrack index P)
    (hkeeps : ∀ {t t' : Track} {own}, t.Orderly index → P t → Track.Step index own t t' → P t') :
    w'.HasTrack index P := by
  rcases hrests with rfl | ⟨time, enough, fuel, hlater, rfl⟩
  · exact htrack
  · apply (hsound.sleepUntil_idle hlater).hasTrack (World.run_passes _ _ _) ?_ hkeeps
    rw [World.HasTrack, World.view_sleepUntil_idle]
    exact htrack

theorem Sound.rests {w w' : World} (hsound : Sound w) (hrests : w.Rests w') : Sound w' := by
  rcases hrests with rfl | ⟨time, enough, fuel, hlater, rfl⟩
  · exact hsound
  · exact ((hsound.sleepUntil_idle hlater).passes (P := fun _ => True) trivial
      (fun _ _ _ _ => trivial) (World.run_passes _ _ _)).1

/-- What steps of a view keep is kept while time passes. -/
theorem Sound.view_rests {w w' : World} (hsound : Sound w) (hrests : w.Rests w') {P : View → Prop}
    (hkeeps : ∀ {v v' : View} {who}, v.Orderly → View.Step who v v' → P v → P v')
    (hP : P w.view) : P w'.view := by
  rcases hrests with rfl | ⟨time, enough, fuel, hlater, rfl⟩
  · exact hP
  · refine (hsound.sleepUntil_idle hlater).view_passes hkeeps ?_ (World.run_passes _ _ _)
    rw [World.view_sleepUntil_idle]
    exact hP

theorem Sound.report {w : World} (hsound : Sound w) (notices : List Notice) :
    Sound (w.report notices) :=
  { hsound.toKept.report notices with
    orderly := hsound.orderly
    single := hsound.single }

theorem Driverless.report {w : World} (hdriverless : Driverless w) (notices : List Notice) :
    Driverless (w.report notices) :=
  { hdriverless.toSound.report notices with idle := hdriverless.idle }

theorem Unmanned.report {w : World} (hunmanned : Unmanned w) (notices : List Notice) :
    Unmanned (w.report notices) :=
  { hunmanned.toSound.report notices with
    vacant := hunmanned.vacant
    idle := hunmanned.idle }

end TraceReplay.Replay
