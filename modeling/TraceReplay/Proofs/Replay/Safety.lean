import TraceReplay.Proofs.Driver.Loop
import TraceReplay.Proofs.Replay.Refinement

/-!
# Drivers do not fail

Whatever happens in a replay, a driver with a valid specification finds every gap and
every slot that it looks up, none of its checks compares more than the whole, and it
enters its loop no more often than its trace has slots and empty steps.
-/

namespace TraceReplay.Replay

/-! ## Lookups and checks -/

/-- If the driver of the lane is next, it finds what it looks up. -/
def World.SafeAt (w : World) (index : Nat) : Prop :=
  ∀ point s rest own, w.ready = .drive index point s :: rest → w.lanes[index]? = some own →
    Driver.Safe own.plan own.counters point s

/-- A driver on schedule finds what it looks up. -/
theorem World.HasTrack.safeAt {w : World} {index : Nat} {schedule : Driver.Schedule}
    {stops : Nat → Prop}
    (htrack : w.HasTrack index fun t => t.Manned index ∧ t.Tallied ∧ t.OnSchedule schedule stops) :
    w.SafeAt index := by
  intro point s rest own hready hown
  obtain ⟨hview, hstanding⟩ := World.track_ready hready hown
  obtain ⟨lane, hlane, -, htallied, honschedule⟩ := htrack
  obtain rfl : own.unparked = lane := Option.some.inj (hview.symm.trans hlane)
  have hkeeps : schedule.Keeps stops w.clock.now point s (w.view.track index own.unparked).entries :=
    honschedule.driver (.ready, .drive index point s) (by simp [hstanding]) index point s rfl
  have hfailed (step : Nat) : own.counters.failedAt step ≤ schedule.requested step :=
    (Nat.le_of_add_right_le (htallied step)).trans (Track.issuedIn_le hkeeps step)
  have hplan : own.plan = schedule.plan := honschedule.plan
  rw [hplan]
  exact Driver.Schedule.keeps_safe hkeeps hfailed

/-! ## Iterations -/

/-- The next turn enters the loop of the lane's driver. -/
def World.enters (w : World) (index : Nat) : Bool :=
  match w.ready with
  | .drive lane point s :: _ =>
    lane = index && (w.lanes[index]?).any fun own => Driver.enters own.plan point s
  | _ => false

/-- How often the loop of the lane's driver is entered in the next turns. -/
def World.iterations (index : Nat) : Nat → World → Nat
  | 0, _ => 0
  | turns + 1, w => (w.enters index).toNat + w.step?.elim 0 (iterations index turns)

/-- The loop of the driver can be entered so often, wherever the driver is. -/
structure Track.Loops (plan : Driver.Plan) (often : Nat) (t : Track) : Prop where
  own : t.lane.plan = plan
  left : ∀ x ∈ t.standing, ∀ lane point s, x.2.driving? = some (lane, point, s) →
    Driver.InStep plan point s ∧ plan.iterationsLeft point s ≤ often

namespace Track.Loops

variable {plan : Driver.Plan} {often index : Nat} {t t' : Track} {point : Driver.Point}
  {s : Driver.State} {rest : Standing}

/-- The turn of the driver takes an iteration if it enters the loop. -/
theorem drive (hloops : t.Loops plan often) (hmanned : t.Manned index)
    (hstanding : t.standing = (.ready, .drive index point s) ::ₘ rest) :
    (Driver.enters plan point s).toNat ≤ often ∧
      Track.Loops plan (often - (Driver.enters plan point s).toNat)
        ({ t with standing := rest }.drive index
          (Driver.turn t.lane.plan t.clock t.lane.counters point s)) := by
  obtain ⟨hin, hleft⟩ := hloops.left (.ready, .drive index point s) (by simp [hstanding]) index
    point s rfl
  obtain ⟨hrest, -⟩ := hmanned.alone hstanding (by simp [Task.driving?])
  rw [hloops.own]
  refine ⟨(Driver.enters_le_iterationsLeft hin).trans hleft, ?_, fun x hx lane next s' hdriving => ?_⟩
  · exact (Track.move_plan _ _ _ _).trans hloops.own
  · rcases mem_move hx with hmem | hnone | ⟨at', hat, hholds⟩
    · exact absurd (hrest x hmem) (by simp [hdriving])
    · exact absurd hnone (by simp [hdriving])
    · rw [hat] at hdriving
      simp only [Option.some.injEq, Prod.mk.injEq] at hdriving
      obtain ⟨-, rfl, rfl⟩ := hdriving
      refine ⟨hholds _ (Driver.turn_effort t.clock t.lane.counters hin).2, ?_⟩
      have hturn := hholds _ (Driver.turn_iterations t.clock t.lane.counters hin)
      exact Nat.le_sub_of_add_le (hturn.trans hleft)

/-- Nothing else enters the loop. -/
theorem onward (hloops : t.Loops plan often) (honward : t.Onward t') : t'.Loops plan often where
  own := honward.plan.trans hloops.own
  left x hx lane point s hdriving := by
    obtain ⟨y, hy, hsame, -⟩ := honward.driver x hx lane point s hdriving
    exact hloops.left y hy lane point s hsame

end Track.Loops

section Loops

variable {w w' : World} {index often : Nat} {plan : Driver.Plan}

/-- Whether the next turn enters the loop is seen at the driver. -/
theorem World.enters_eq {point : Driver.Point} {s : Driver.State} {rest : List Task} {own : Lane}
    (hready : w.ready = .drive index point s :: rest) (hown : w.lanes[index]? = some own) :
    w.enters index = Driver.enters own.plan point s := by
  simp [World.enters, hready, hown]

theorem World.enters_of_other (hdriver : w.driver? ≠ some index) : w.enters index = false := by
  unfold World.enters
  split
  · rename_i lane point s rest hready
    have hother : lane ≠ index := by
      simpa [World.driver?, hready, Task.driver?] using hdriver
    simp [hother]
  · rfl

theorem World.HasTrack.enters_le
    (htrack : w.HasTrack index fun t => t.Manned index ∧ t.Loops plan often) :
    (w.enters index).toNat ≤ often := by
  by_cases hdriver : w.driver? = some index
  · obtain ⟨lane, hlane, hmanned, hloops⟩ := htrack
    obtain ⟨point, s, rest, own, hready, hown, rfl, hstanding⟩ := World.next_driver hdriver hlane
    obtain rfl : own.plan = plan := hloops.own
    rw [World.enters_eq hready hown]
    exact (hloops.drive hmanned hstanding).1
  · rw [World.enters_of_other hdriver]
    exact Nat.zero_le _

/-- Every turn leaves the iterations that it does not take. -/
theorem Sound.loops_step (hsound : Sound w) (hstep : w.step? = some w')
    (htrack : w.HasTrack index fun t => t.Manned index ∧ t.Loops plan often) :
    w'.HasTrack index fun t => t.Manned index ∧ t.Loops plan (often - (w.enters index).toNat) := by
  by_cases hdriver : w.driver? = some index
  · obtain ⟨lane, hlane, hmanned, hloops⟩ := htrack
    obtain ⟨point, s, rest, own, hready, hown, rfl, hstanding⟩ := World.next_driver hdriver hlane
    obtain ⟨lane', hlane', hdrive⟩ := hsound.track_drive hstep hdriver hlane
    have hmanned' := hmanned.step (hsound.orderly.track index own.unparked) hdrive
    refine ⟨lane', hlane', hmanned', ?_⟩
    obtain rfl : own.plan = plan := hloops.own
    rw [World.enters_eq hready hown]
    generalize w'.view.track index lane' = t' at hdrive
    cases hdrive with
    | drive hstanding' =>
      obtain ⟨rfl, rfl⟩ := Prod.mk.inj (hmanned.same hstanding hstanding')
      exact (hloops.drive hmanned hstanding').2
  · rw [World.enters_of_other hdriver]
    apply hsound.hasTrack_step hstep htrack
    · intro hother
      exact absurd hother hdriver
    · rintro t t' horderly ⟨hmanned, hloops⟩ hpass
      exact ⟨hmanned.step horderly hpass, hloops.onward (hpass.onward horderly)⟩

/-- The loop of a driver is not entered more often than it can be. -/
theorem Sound.iterations_le (hsound : Sound w)
    (htrack : w.HasTrack index fun t => t.Manned index ∧ t.Loops plan often) (turns : Nat) :
    w.iterations index turns ≤ often := by
  induction turns generalizing w often with
  | zero => exact Nat.zero_le _
  | succ turns ih =>
    have henters := htrack.enters_le
    rw [World.iterations]
    cases hstep : w.step? with
    | none => exact henters
    | some w' =>
      have hrest := ih (hsound.step hstep).2 (hsound.loops_step hstep htrack)
      rw [Option.elim_some]
      omega

end Loops

/-! ## Whole replays -/

/-- The loop of the driver is over: it has reported, or it waits for its last invocations. -/
def World.LoopOver (w : World) (index : Nat) : Prop :=
  w.HasTrack index fun t =>
    (∃ finish ∈ t.finished, ∃ report, finish.result = .ok report) ∨
      ∃ s, (.held, .drive index .drained s) ∈ t.standing

theorem Start.track_loops (start : Start) (clock : Clock) (index : Nat) :
    (start.track clock index).Loops start.plan (start.plan.iterationsFrom
      (start.schedule clock).firstStep) where
  own := rfl
  left x hx lane point s hdriving := by
    obtain rfl := Multiset.mem_singleton.mp hx
    simp only [driver, Task.driving?, Option.some.injEq, Prod.mk.injEq] at hdriving
    obtain ⟨-, rfl, rfl⟩ := hdriving
    exact ⟨Driver.inStep_begin _ _ _, (Driver.iterationsLeft_begin _ _ _).le⟩

section Replays

variable {w : World} {starts : List Start} {place : Nat} {start : Start}

theorem Founded.hasLoops (hfounded : Founded w) (hstart : starts[place]? = some start) :
    (w.startAll starts).HasTrack (w.lanes.length + place) fun t =>
      t.Manned (w.lanes.length + place) ∧ t.Loops start.plan
        (start.plan.iterationsFrom (start.schedule w.clock).firstStep) := by
  obtain ⟨hlane, htrack⟩ := (hfounded.startAll starts).2.2 place start hstart
  refine ⟨_, hlane, ?_⟩
  rw [htrack]
  exact ⟨start.track_manned _ _, start.track_loops _ _⟩

/-- The loop of a driver is over when nothing is left to do. -/
theorem Unmanned.loopOver (hunmanned : Unmanned w) (hstart : starts[place]? = some start)
    (hfits : start.specification.Fits start.plan.function) (hpolicy : start.plan.Decides) :
    (w.startAll starts).runToEnd.LoopOver (w.lanes.length + place) := by
  have hpasses := World.runToEnd_passes (w.startAll starts)
  have hend := hunmanned.runToEnd_ends starts
  have hsound := hunmanned.toFounded.sound hpasses
  obtain ⟨lane, hlane, hmanned, -, honschedule⟩ :=
    hunmanned.toFounded.onSchedule hpasses hstart hfits hpolicy
  refine ⟨lane, hlane, ?_⟩
  by_cases hfinished :
      ((w.startAll starts).runToEnd.view.track (w.lanes.length + place) lane).finished = []
  · right
    have hone := hmanned.one
    rw [hfinished, List.length_nil, Nat.add_zero] at hone
    obtain ⟨⟨place', task⟩, hx, hdriver⟩ := Multiset.countP_pos.mp (hone.symm ▸ Nat.one_pos)
    obtain ⟨⟨owner, point, s⟩, hdriving⟩ := Option.ne_none_iff_exists'.mp hdriver
    obtain ⟨hmem, howner⟩ := mem_ofLane.mp hx
    obtain ⟨rfl, hstore⟩ := hsound.held_of_end hend hmem
    obtain rfl := hsound.drained_of_end hend hmem hdriving
    cases task with
    | drive =>
      simp only [Task.driving?, Option.some.injEq, Prod.mk.injEq] at hdriving
      obtain ⟨rfl, rfl, rfl⟩ := hdriving
      obtain rfl := Option.some.inj howner
      exact ⟨_, hx⟩
    | storeRecord | storeJob => simp [View.isStore] at hstore
    | _ => simp [Task.driving?] at hdriving
  · left
    obtain ⟨finish, hmem⟩ := List.exists_mem_of_ne_nil _ hfinished
    obtain ⟨report, hreport, -⟩ := honschedule.ended finish hmem
    exact ⟨finish, hmem, report, hreport⟩

/-- In a replay no driver with a valid specification fails: wherever it is, it finds what it
looks up and its checks compare parts of the whole; each report is one of success; it enters
its loop at most once for every slot and every empty step; and its loop comes to an end. -/
theorem Unmanned.drivers_safe (hunmanned : Unmanned w) (hstart : starts[place]? = some start)
    (hvalid : start.specification.validate start.plan.function = .ok ())
    (hpolicy : start.plan.Decides) :
    (∀ u, (w.startAll starts).Passes u → u.SafeAt (w.lanes.length + place) ∧
      ∀ finish ∈ u.finished, finish.lane = w.lanes.length + place →
        ∃ report, finish.result = .ok report) ∧
    (∀ turns, (w.startAll starts).iterations (w.lanes.length + place) turns ≤
      ∑ step ∈ Finset.Ico (start.schedule w.clock).firstStep
        start.plan.configuration.traceDuration,
        max 1 (start.plan.function.invocationsAt step)) ∧
    (w.startAll starts).runToEnd.LoopOver (w.lanes.length + place) := by
  have hfits := Specification.fits_of_validate hvalid
  have hfounded := hunmanned.toFounded
  refine ⟨fun u hpasses => ?_, fun turns => ?_, hunmanned.loopOver hstart hfits hpolicy⟩
  · have htrack := hfounded.onSchedule hpasses hstart hfits hpolicy
    refine ⟨htrack.safeAt, fun finish hmem hlane => ?_⟩
    obtain ⟨lane, -, -, -, honschedule⟩ := htrack
    obtain ⟨report, hreport, -⟩ :=
      honschedule.ended finish (List.mem_filter.mpr ⟨hmem, by simp [hlane]⟩)
    exact ⟨report, hreport⟩
  · exact (hfounded.startAll starts).1.toSound.iterations_le (hfounded.hasLoops hstart) turns

end Replays

theorem drivers_safe_oneSlot :
    Start.oneSlot.specification.validate Start.oneSlot.plan.function = .ok () ∧
      Start.oneSlot.plan.Decides ∧
      (∀ u, (({} : World).startAll [.oneSlot]).Passes u → u.SafeAt 0) ∧
      (∀ turns, (({} : World).startAll [.oneSlot]).iterations 0 turns ≤ 1) ∧
      (({} : World).startAll [.oneSlot]).runToEnd.LoopOver 0 := by
  have hstart : [Start.oneSlot][0]? = some .oneSlot := rfl
  obtain ⟨hsafe, hiterations, hover⟩ :=
    Unmanned.empty.drivers_safe hstart rfl Start.oneSlot_decides
  exact ⟨rfl, Start.oneSlot_decides, fun u hpasses => (hsafe u hpasses).1, hiterations, hover⟩

end TraceReplay.Replay
