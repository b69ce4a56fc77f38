import TraceReplay.Proofs.Replay.Beginning

/-!
# Lanes along a replay

What a lane has when its driver is started, and every step of its track keeps, it has
whenever one looks.  So a driver that was started keeps to its schedule until a check
stops it, and issues nothing after that.
-/

namespace TraceReplay.Replay

/-- The world has a lane with such a track. -/
def World.HasTrack (w : World) (index : Nat) (P : Track → Prop) : Prop :=
  ∃ lane, w.view.lane index = some lane ∧ P (w.view.track index lane)

/-- The driver of the lane is next and finds that it has to stop after the step. -/
def World.StopsAt (w : World) (index step : Nat) : Prop :=
  ∃ point s rest lane, w.ready = .drive index point s :: rest ∧ w.lanes[index]? = some lane ∧
    Driver.Judges lane.plan point s ∧ s.step = step ∧
    ∃ notices, Driver.checkStep lane.plan lane.counters s = .stopped notices

theorem World.HasTrack.mono {w : World} {index : Nat} {P Q : Track → Prop}
    (htrack : w.HasTrack index P) (himp : ∀ t, P t → Q t) : w.HasTrack index Q := by
  obtain ⟨lane, hlane, hP⟩ := htrack
  exact ⟨lane, hlane, himp _ hP⟩

theorem World.HasTrack.and {w : World} {index : Nat} {P Q : Track → Prop}
    (hP : w.HasTrack index P) (hQ : w.HasTrack index Q) : w.HasTrack index fun t => P t ∧ Q t := by
  obtain ⟨lane, hlane, hP⟩ := hP
  obtain ⟨other, hother, hQ⟩ := hQ
  obtain rfl : other = lane := Option.some.inj (hother.symm.trans hlane)
  exact ⟨other, hlane, hP, hQ⟩

/-- What steps of a track keep is kept by turns of the world. -/
theorem Sound.hasTrack_step {w w' : World} (hsound : Sound w) (hstep : w.step? = some w')
    {index : Nat} {P : Track → Prop} (htrack : w.HasTrack index P)
    (hdrive : w.driver? = some index → ∀ {lane t'}, w.view.lane index = some lane →
      P (w.view.track index lane) → Track.Step index true (w.view.track index lane) t' → P t')
    (hpass : ∀ {t t' : Track}, t.Orderly index → P t → Track.Step index false t t' → P t') :
    w'.HasTrack index P := by
  obtain ⟨lane, hlane, hP⟩ := htrack
  obtain ⟨hturn, -⟩ := hsound.step hstep
  exact hturn.track hsound.orderly hlane hP
    (fun hwho _ hstep => hdrive hwho hlane hP hstep)
    fun horderly hP hstep => hpass (horderly.track _ _) hP hstep

/-- The turn of a driver is a step of its track. -/
theorem Sound.track_drive {w w' : World} (hsound : Sound w) (hstep : w.step? = some w')
    {index : Nat} (hdriver : w.driver? = some index) {lane : Lane}
    (hlane : w.view.lane index = some lane) :
    ∃ lane', w'.view.lane index = some lane' ∧
      Track.Step index true (w.view.track index lane) (w'.view.track index lane') := by
  have hturn := (hsound.step hstep).1
  rw [hdriver] at hturn
  obtain ⟨lane', hlane', ⟨-, hdrive⟩ | ⟨hother, -⟩⟩ :=
    View.Step.tracks hsound.orderly hturn hlane
  · exact ⟨lane', hlane', hdrive⟩
  · exact absurd rfl hother

/-- What all steps of a track keep is kept by whole replays. -/
theorem Sound.hasTrack {w w' : World} (hsound : Sound w) (hpasses : w.Passes w') {index : Nat}
    {P : Track → Prop} (htrack : w.HasTrack index P)
    (hkeeps : ∀ {t t' : Track} {own}, t.Orderly index → P t → Track.Step index own t t' → P t') :
    w'.HasTrack index P :=
  (hsound.passes htrack (fun _ hsound hstep htrack => hsound.hasTrack_step hstep htrack
    (fun _ _ _ _ hP hstep => hkeeps (hsound.orderly.track index _) hP hstep)
    hkeeps) hpasses).2

/-- The first ready task is the first of its lane. -/
theorem World.track_ready {w : World} {index : Nat} {point : Driver.Point} {s : Driver.State}
    {rest : List Task} {own : Lane} (hready : w.ready = .drive index point s :: rest)
    (hown : w.lanes[index]? = some own) :
    w.view.lane index = some own.unparked ∧ (w.view.track index own.unparked).standing =
      (.ready, .drive index point s) ::ₘ
        ofLane index ({ w with ready := rest } : World).view.standing := by
  refine ⟨by simp [World.view, hown], ?_⟩
  rw [World.view_of_ready hready rfl]
  exact ofLane_cons rfl _

/-- When it is the turn of a driver, the driver is the first ready task of its lane. -/
theorem World.next_driver {w : World} {index : Nat}
    (hdriver : w.driver? = some index) {lane : Lane} (hlane : w.view.lane index = some lane) :
    ∃ point s rest own, w.ready = .drive index point s :: rest ∧ w.lanes[index]? = some own ∧
      own.unparked = lane ∧ (w.view.track index lane).standing =
        (.ready, .drive index point s) ::ₘ ofLane index ({ w with ready := rest } : World).view.standing := by
  obtain ⟨own, hown, hunparked⟩ := Option.map_eq_some_iff.mp hlane
  cases hready : w.ready with
  | nil => simp [World.driver?, hready] at hdriver
  | cons task rest =>
    cases task with
    | drive other point s =>
      obtain rfl : other = index := by simpa [World.driver?, hready, Task.driver?] using hdriver
      refine ⟨point, s, rest, own, rfl, hown, hunparked, ?_⟩
      rw [← hunparked]
      exact (World.track_ready hready hown).2
    | _ => simp [World.driver?, hready, Task.driver?] at hdriver

theorem World.StopsAt.halts {w : World} {index step : Nat} (hstops : w.StopsAt index step)
    {lane : Lane} (hlane : w.view.lane index = some lane) :
    w.driver? = some index ∧ (w.view.track index lane).Halts index step := by
  obtain ⟨point, s, rest, own, hready, hown, hjudges, hstep, hstopped⟩ := hstops
  obtain ⟨hview, hstanding⟩ := World.track_ready hready hown
  obtain rfl : own.unparked = lane := Option.some.inj (hview.symm.trans hlane)
  exact ⟨by simp [World.driver?, hready, Task.driver?], _, point, s, hstanding, hjudges, hstep,
    hstopped⟩

/-- A manned lane that halts when its driver is next is stopped. -/
theorem World.stopsAt {w : World} {index : Nat}
    (hdriver : w.driver? = some index) {lane : Lane} (hlane : w.view.lane index = some lane)
    (hmanned : (w.view.track index lane).Manned index) {step : Nat}
    (hhalts : (w.view.track index lane).Halts index step) : w.StopsAt index step := by
  obtain ⟨point, s, rest, own, hready, hown, rfl, hstanding⟩ := World.next_driver hdriver hlane
  obtain ⟨others, point', s', hstanding', hjudges, hstep, hstopped⟩ := hhalts
  have hsame : (point, s) = (point', s') := hmanned.same hstanding hstanding'
  obtain ⟨rfl, rfl⟩ := Prod.mk.inj hsame
  exact ⟨point, s, rest, own, hready, hown, hjudges, hstep, hstopped⟩

theorem Founded.sound {w w' : World} (hfounded : Founded w) {starts : List Start}
    (hpasses : (w.startAll starts).Passes w') : Sound w' :=
  ((hfounded.startAll starts).1.toSound.passes (P := fun _ => True) trivial
    (fun _ _ _ _ => trivial) hpasses).1

/-- A driver that was started keeps to its schedule, as long as its policy has a verdict
on every slot. -/
theorem Founded.onSchedule {w w' : World} (hfounded : Founded w) {starts : List Start}
    (hpasses : (w.startAll starts).Passes w') {place : Nat} {start : Start}
    (hstart : starts[place]? = some start)
    (hfits : start.specification.Fits start.plan.function) (hpolicy : start.plan.Decides) :
    w'.HasTrack (w.lanes.length + place) fun t =>
      t.Manned (w.lanes.length + place) ∧ t.Tallied ∧
        t.OnSchedule (start.schedule w.clock) fun step =>
          ∃ u, (w.startAll starts).Passes u ∧ u.StopsAt (w.lanes.length + place) step := by
  obtain ⟨hfounded', -, hnew⟩ := hfounded.startAll starts
  obtain ⟨hlane, htrack⟩ := hnew place start hstart
  refine (hfounded'.toSound.passes (P := fun u => u.HasTrack _ _) ⟨_, hlane, ?_⟩
    (fun {u u'} hbefore hsound hstep htrack => ?_) hpasses).2
  · rw [htrack]
    exact ⟨start.track_manned _ _, start.track_tallied _ _, start.track_onSchedule _ _ hfits _⟩
  refine hsound.hasTrack_step hstep htrack ?_ ?_
  · rintro hdriver lane t' hlane ⟨hmanned, htallied, honschedule⟩ hstep
    have horderly := hsound.orderly.track (w.lanes.length + place) lane
    refine ⟨hmanned.step horderly hstep, htallied.step horderly hstep, ?_⟩
    cases hstep with
    | drive hstanding =>
      exact honschedule.drive hmanned htallied hpolicy (fun step hhalts =>
        ⟨u, hbefore, World.stopsAt hdriver hlane hmanned hhalts⟩) hstanding
  · rintro t t' horderly ⟨hmanned, htallied, honschedule⟩ hstep
    exact ⟨hmanned.step horderly hstep, htallied.step horderly hstep,
      honschedule.onward (hstep.onward horderly)⟩

/-- Once a driver is stopped its lane has issued what the schedule has up to there, and
issues nothing more. -/
theorem Founded.stopped {w u : World} (hfounded : Founded w) {starts : List Start}
    (hbefore : (w.startAll starts).Passes u) {place : Nat} {start : Start}
    (hstart : starts[place]? = some start)
    (hfits : start.specification.Fits start.plan.function) (hpolicy : start.plan.Decides)
    {step : Nat} (hstops : u.StopsAt (w.lanes.length + place) step) :
    (u.view.issuesOf (w.lanes.length + place)).map Driver.Issue.entry =
      (start.schedule w.clock).entries (step - (start.schedule w.clock).firstStep + 1) ∧
    ∀ next w', u.step? = some next → next.Passes w' →
      w'.HasTrack (w.lanes.length + place)
        (·.Stopped (u.view.issuesOf (w.lanes.length + place))) := by
  obtain ⟨lane, hlane, hmanned, -, honschedule⟩ :=
    hfounded.onSchedule hbefore hstart hfits hpolicy
  have hsound := hfounded.sound hbefore
  obtain ⟨hdriver, hhalts⟩ := hstops.halts hlane
  refine ⟨hhalts.entries honschedule, fun next w' hnext hpasses => ?_⟩
  obtain ⟨lane', hlane', hdrive⟩ := hsound.track_drive hnext hdriver hlane
  apply (hsound.step hnext).2.hasTrack hpasses
  · exact ⟨lane', hlane', hhalts.stopped hmanned hdrive⟩
  · intro t t' own horderly hstopped hstep
    exact hstopped.step horderly hstep

end TraceReplay.Replay
