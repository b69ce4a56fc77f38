import TraceReplay.Proofs.Driver.Mode
import TraceReplay.Proofs.Policy.Verdict
import TraceReplay.Proofs.Replay.Arrivals
import TraceReplay.Proofs.Replay.Completeness
import TraceReplay.Proofs.Replay.FanOut
import TraceReplay.Proofs.Replay.Flawless
import TraceReplay.Proofs.Replay.Upheld

/-!
# Rehearsals

In test mode a driver replays its trace without its invoker.  It is the only task of its lane,
so no invocation ever begins there; each slot that it issues has its records made up, and the
driver goes on when they are on their way.  So the records arrive in the order of the slots,
and what is issued is what a replay would issue all of whose calls succeed.
-/

namespace TraceReplay.Replay

open Driver (Issue Plan)

namespace Track

variable {plan : Plan} {given : Specification} {epoch : Int} {index : Nat} {t t' : Track}
  {own : Bool}

/-- The driver is alone in its lane, and everything it has issued is a success. -/
structure Rehearses (plan : Plan) (given : Specification) (epoch : Int) (index : Nat) (t : Track) :
    Prop where
  serves : t.Serves plan given index
  phased : t.Upholds (Driver.phased plan)
  driven : ∀ x ∈ t.standing, x.2.driving? ≠ none
  epoch : t.clock.epoch = epoch
  complete : t.Complete
  flawless : t.Flawless

namespace Rehearses

/-- Nothing else stands in the lane. -/
theorem rest_eq_zero (hrehearses : t.Rehearses plan given epoch index) {x : Place × Task}
    {rest : Standing} (hstanding : t.standing = x ::ₘ rest) : rest = 0 := by
  have hdriving := hrehearses.driven x (by simp [hstanding])
  obtain ⟨hrest, -⟩ := hrehearses.serves.manned.alone hstanding hdriving
  apply Multiset.eq_zero_of_forall_notMem
  intro y hy
  exact hrehearses.driven y (by simp [hstanding, hy]) (hrest y hy)

theorem card_standing_le (hrehearses : t.Rehearses plan given epoch index) :
    Multiset.card t.standing ≤ 1 := by
  have hone := hrehearses.serves.manned.one
  rw [Multiset.countP_eq_card.mpr hrehearses.driven] at hone
  omega

/-- What the driver does in its turn. -/
theorem turn_cases (hrehearses : t.Rehearses plan given epoch index)
    (htest : plan.configuration.testMode = true) {point : Driver.Point} {s : Driver.State}
    {rest : Standing} (hstanding : t.standing = (.ready, .drive index point s) ::ₘ rest) :
    let turn := Driver.turn t.lane.plan t.clock t.lane.counters point s
    (turn.issue = none ∧ (∀ dispatch next, turn.move ≠ .launch dispatch next) ∧
      ∀ pair next, turn.move ≠ .deliver pair next) ∨
    ∃ issue, turn.issue = some issue ∧ turn.move = .deliver (plan.madeUp epoch issue) .stored := by
  have hphase : s.phase = plan.phaseOf s.step := (hrehearses.phased.driver
    (.ready, .drive index point s) (by simp [hstanding]) index point s rfl).1
  rw [hrehearses.phased.planned, ← hrehearses.epoch]
  exact Driver.turn_testMode htest hphase

/-- After its turn the driver is still alone. -/
theorem drive_driven (hrehearses : t.Rehearses plan given epoch index)
    (htest : plan.configuration.testMode = true) {point : Driver.Point} {s : Driver.State}
    {rest : Standing} (hstanding : t.standing = (.ready, .drive index point s) ::ₘ rest) :
    ∀ x ∈ ({ t with standing := rest }.drive index
        (Driver.turn t.lane.plan t.clock t.lane.counters point s)).standing,
      x.2.driving? ≠ none := by
  have hcases := hrehearses.turn_cases htest hstanding
  simp only at hcases
  obtain rfl := hrehearses.rest_eq_zero hstanding
  intro x hx
  simp only [Track.drive] at hx
  cases hmove : (Driver.turn t.lane.plan t.clock t.lane.counters point s).move with
  | launch dispatch next =>
    rcases hcases with ⟨-, hlaunch, -⟩ | ⟨_, -, hdeliver⟩
    · exact absurd hmove (hlaunch dispatch next)
    · exact absurd (hdeliver.symm.trans hmove) (by simp)
  | finish report | fail error =>
    rw [hmove] at hx
    exact absurd hx (Multiset.notMem_zero x)
  | _ =>
    rw [hmove] at hx
    obtain rfl := Multiset.mem_singleton.mp hx
    exact Option.some_ne_none _

theorem step (hrehearses : t.Rehearses plan given epoch index)
    (htest : plan.configuration.testMode = true) (horderly : t.Orderly index)
    (hstep : Step index own t t') : t'.Rehearses plan given epoch index := by
  have hmanned := hrehearses.serves.manned
  -- No invocation is there to go on.
  have hnone {x : Place × Task} {rest : Standing} (hstanding : t.standing = x ::ₘ rest) :
      x.2.driving? ≠ none := hrehearses.driven x (by simp [hstanding])
  have hmap {f : Place × Task → Place × Task} (htask : ∀ x, (f x).2 = x.2) :
      ∀ x ∈ t.standing.map f, x.2.driving? ≠ none := by
    intro x hx
    obtain ⟨y, hy, rfl⟩ := Multiset.mem_map.mp hx
    rw [htask]
    exact hrehearses.driven y hy
  have hserves := hrehearses.serves.step horderly hstep
  have hphased := hrehearses.phased.step hmanned horderly hstep
  have hcomplete : t'.Complete := by
    have hsettled : t.settled = t.issues.length := hrehearses.complete
    rcases hstep.transfers with ⟨-, hsettles⟩ | ⟨-, dispatch, hpanics⟩
    · change t'.settled = t'.issues.length
      omega
    · exact absurd rfl (hrehearses.driven _ hpanics)
  have hflawless : t'.Flawless := hrehearses.flawless.step_of_success
    (fun dispatch outcome hmem => absurd rfl (hrehearses.driven _ hmem)) hstep
  refine ⟨hserves, hphased, ?_, ?_, hcomplete, hflawless⟩
  · cases hstep with
    | drive hstanding => exact hrehearses.drive_driven htest hstanding
    | proceed hstanding hproceeds => exact absurd hproceeds.driving?.1 (hnone hstanding)
    | answer hstanding => exact absurd rfl (hnone hstanding)
    | panic hstanding => exact absurd rfl (hnone hstanding)
    | publish hstanding => exact absurd rfl (hnone hstanding)
    | deliver hstanding _ hdelivers =>
      obtain rfl := hrehearses.rest_eq_zero hstanding
      intro x hx
      obtain rfl := Multiset.mem_singleton.mp hx
      rw [(hdelivers.driving? t.clock.now).1]
      exact hnone hstanding
    | release hstanding => exact absurd rfl (hnone hstanding)
    | resume hstanding => exact absurd rfl (hnone hstanding)
    | rouse => exact hmap View.rouse_task
    | tick => exact hmap (View.wakeAt_task _)
  · refine Eq.trans ?_ hrehearses.epoch
    cases hstep with
    | drive hstanding => exact congrArg Clock.epoch (move_clock _ _ _ _)
    | _ => rfl

/-- In its turn the driver has nothing to send, and afterwards what is made up for the slot that
it has issued. -/
theorem drive_unsent (hrehearses : t.Rehearses plan given epoch index)
    (htest : plan.configuration.testMode = true) (hstep : Step index true t t') :
    ∃ issue : Option Issue, t'.issues = t.issues ++ issue.toList ∧
      unsent index t.standing = 0 ∧
      unsent index t'.standing = (↑(issue.toList.map fun issue => (plan.madeUp epoch issue).record),
        ↑(issue.toList.map fun issue => (plan.madeUp epoch issue).job)) := by
  cases hstep with
  | @drive _ point s rest hstanding =>
    have hcases := hrehearses.turn_cases htest hstanding
    simp only at hcases
    obtain rfl := hrehearses.rest_eq_zero hstanding
    refine ⟨(Driver.turn t.lane.plan t.clock t.lane.counters point s).issue, ?_, ?_, ?_⟩
    · simp only [Track.drive, move_issues]
    · simp [hstanding, unsent, Task.unsent]
    · rcases hcases with ⟨hissue, hlaunch, hdeliver⟩ | ⟨issue, hissue, hmove⟩
      · simp only [Track.drive, hissue]
        cases hmove : (Driver.turn t.lane.plan t.clock t.lane.counters point s).move with
        | launch dispatch next => exact absurd hmove (hlaunch dispatch next)
        | deliver pair next => exact absurd hmove (hdeliver pair next)
        | _ => simp [Track.move, Track.add, unsent, Task.unsent, Prod.mk_zero_zero]
      · simp [Track.drive, hissue, hmove, Track.move, Track.add, unsent, Task.unsent]

end Rehearses
end Track

theorem Start.track_rehearses (start : Start) (clock : Clock) (index : Nat) :
    (start.track clock index).Rehearses start.plan start.specification clock.epoch index where
  serves := ⟨start.track_manned _ _, start.track_settled _ _⟩
  phased := start.track_upholds _ _ (Driver.phased_begin _ _ _)
  driven x hx := by
    obtain rfl := Multiset.mem_singleton.mp hx
    exact Option.some_ne_none _
  epoch := rfl
  complete := start.track_complete _ _
  flawless := start.track_flawless _ _

/-! ## Whole replays -/

/-- It is the turn of an invocation of the lane, which calls the invoker. -/
def World.Calls (w : World) (index : Nat) : Prop :=
  ∃ dispatch rest, w.ready = .attempt index dispatch :: rest

/-- The records that are made for the slots of a lane arrive in the order of the slots. -/
structure World.Files (u : World) (index : Nat) (made : Issue → RecordPair) : Prop where
  records : Filed ((u.view.issuesOf index).map fun issue => (made issue).record)
    (unsent index u.view.standing).1 u.arrivals
  jobs : Filed ((u.view.issuesOf index).map fun issue => (made issue).job)
    (unsent index u.view.standing).2 u.jobArrivals

namespace World.Files

variable {u u' : World} {index : Nat} {made : Issue → RecordPair}

/-- What the lane sends arrives after what is there. -/
theorem advance (hfiles : u.Files index made) (hretains : u.Retains u')
    (hsends : View.Sends index u.view u'.view)
    (hone : Multiset.card (ofLane index u.view.standing) ≤ 1) : u'.Files index made := by
  obtain ⟨hrecord, hjob⟩ := card_unsent_le index (ofLane index u.view.standing)
  rw [unsent_ofLane] at hrecord hjob
  have hissues := hsends.issues
  constructor
  · rw [hissues]
    apply hfiles.records.advance (hrecord.trans hone) hretains.records hsends.less.1
    rw [coe_arrivals, coe_arrivals]
    exact hsends.arrives.1
  · rw [hissues]
    apply hfiles.jobs.advance (hjob.trans hone) hretains.jobs hsends.less.2
    rw [coe_jobArrivals, coe_jobArrivals]
    exact hsends.arrives.2

/-- A lane that has nothing to send issues a slot. -/
theorem issue (hfiles : u.Files index made) (hretains : u.Retains u') {issue : Option Issue}
    (hissues : u'.view.issuesOf index = u.view.issuesOf index ++ issue.toList)
    (hnone : unsent index u.view.standing = 0)
    (hunsent : unsent index u'.view.standing =
      (↑(issue.toList.map fun issue => (made issue).record),
        ↑(issue.toList.map fun issue => (made issue).job))) : u'.Files index made := by
  obtain ⟨hrecords, hjobs⟩ := hfiles
  rw [hnone] at hrecords hjobs
  constructor
  · rw [hissues, hunsent, List.map_append]
    exact hrecords.append hretains.records _
  · rw [hissues, hunsent, List.map_append]
    exact hjobs.append hretains.jobs _

end World.Files

section Replays

variable {w u : World} {starts : List Start} {place : Nat} {start : Start}

theorem Founded.rehearses (hfounded : Founded w) (hpasses : (w.startAll starts).Passes u)
    (hstart : starts[place]? = some start) (htest : start.plan.configuration.testMode = true) :
    u.HasTrack (w.lanes.length + place) (·.Rehearses start.plan start.specification w.clock.epoch
      (w.lanes.length + place)) := by
  obtain ⟨hlane, htrack⟩ := (hfounded.startAll starts).2.2 place start hstart
  apply (hfounded.startAll starts).1.toSound.hasTrack hpasses
  · refine ⟨_, hlane, ?_⟩
    rw [htrack]
    exact start.track_rehearses _ _
  · exact fun horderly hrehearses hstep => hrehearses.step htest horderly hstep

/-- In test mode no invocation begins. -/
theorem Founded.not_calls (hfounded : Founded w) (hpasses : (w.startAll starts).Passes u)
    (hstart : starts[place]? = some start) (htest : start.plan.configuration.testMode = true) :
    ¬u.Calls (w.lanes.length + place) := by
  rintro ⟨dispatch, rest, hready⟩
  obtain ⟨lane, -, hrehearses⟩ := hfounded.rehearses hpasses hstart htest
  have hmem := Sound.mem_of_ready hready rfl
  exact hrehearses.driven _ (mem_ofLane.mpr ⟨hmem, rfl⟩) rfl

/-- The turns of all others send what the driver of a lane has to send. -/
theorem View.Turn.sends {v v' : View} {who : Option Nat} (hturn : View.Turn who v v')
    (horderly : v.Orderly) {index : Nat} (hother : who ≠ some index) {plan : Plan}
    {given : Specification} {epoch : Int} (htest : plan.configuration.testMode = true) {lane : Lane}
    (hlane : v.lane index = some lane)
    (hrehearses : (v.track index lane).Rehearses plan given epoch index) {own : Finset Nat}
    (hlossless : v.Lossless own) (hown : index ∈ own) : View.Sends index v v' := by
  cases who with
  | some other => exact View.Step.sends_other hturn fun heq => hother (congrArg some heq)
  | none =>
    have hkept := View.Turn.keeps (P := fun u => (∃ lane, u.lane index = some lane ∧
        (u.track index lane).Rehearses plan given epoch index) ∧ u.Lossless own ∧
        View.Sends index v u) (fun {u u'} horderly hstep hkept => ?_) horderly hturn
      ⟨⟨lane, hlane, hrehearses⟩, hlossless, .refl _ _⟩
    · exact hkept.2.2.2
    obtain ⟨⟨mid, hmid, hrehearses⟩, hlossless, hsends⟩ := hkept
    refine ⟨?_, hlossless.step hstep,
      hsends.trans (hstep.sends horderly hrehearses.driven hlossless hown)⟩
    obtain ⟨mid', hmid', ⟨hwho, -⟩ | ⟨-, hsteps⟩⟩ := hstep.tracks horderly hmid
    · exact absurd hwho (by simp)
    · refine ⟨mid', hmid', ?_⟩
      rcases Relation.reflGen_iff _ _ _ |>.mp hsteps with hsame | hstep
      · rw [hsame]
        exact hrehearses
      · exact hrehearses.step htest (horderly.track _ _) hstep

/-- In test mode the records that are made up arrive in the order of the slots. -/
theorem Attentive.files (hattentive : Attentive w) (hpasses : (w.startAll starts).Passes u)
    (hstart : starts[place]? = some start) (htest : start.plan.configuration.testMode = true) :
    u.Files (w.lanes.length + place) (start.plan.madeUp w.clock.epoch) := by
  have hfounded := hattentive.toFounded
  obtain ⟨hfounded', -, hnew⟩ := hfounded.startAll starts
  obtain ⟨hlane, htrack⟩ := hnew place start hstart
  have hown : w.lanes.length + place ∈ w.newLanes starts := by
    have hless := (List.getElem?_eq_some_iff.mp hstart).1
    exact World.mem_newLanes.mpr ⟨Nat.le_add_right _ _, Nat.add_lt_add_left hless _⟩
  refine (hfounded'.toSound.passes (P := fun u => u.Files _ _) ?_
    (fun {u u'} hbefore hsound hstep hfiles => ?_) hpasses).2
  · have hissues : (w.startAll starts).view.issuesOf (w.lanes.length + place) = [] :=
      congrArg Track.issues htrack
    have hunsent : unsent (w.lanes.length + place) (w.startAll starts).view.standing = 0 := by
      have hstanding : ofLane (w.lanes.length + place) (w.startAll starts).view.standing = _ :=
        congrArg Track.standing htrack
      rw [← unsent_ofLane, hstanding]
      rfl
    constructor <;> rw [hissues, hunsent] <;> exact .nil _
  have hretains := World.retains_step hsound.hears hstep
  obtain ⟨lane, hlane, hrehearses⟩ := hfounded.rehearses hbefore hstart htest
  by_cases hdriver : u.driver? = some (w.lanes.length + place)
  · obtain ⟨lane', -, hdrive⟩ := hsound.track_drive hstep hdriver hlane
    obtain ⟨issue, hissues, hnone, hunsent⟩ := hrehearses.drive_unsent htest hdrive
    simp only [View.track, unsent_ofLane] at hissues hnone hunsent
    exact hfiles.issue hretains hissues hnone hunsent
  · have hlossless : u.view.Lossless (w.newLanes starts) :=
      hfounded'.toSound.view_passes (fun _ hstep hlossless => hlossless.step hstep)
        (hattentive.lossless_startAll starts) hbefore
    have hsends := (hsound.step hstep).1.sends hsound.orderly hdriver htest hlane hrehearses
      hlossless hown
    exact hfiles.advance hretains hsends hrehearses.card_standing_le

/-- In test mode a driver comes to its end, with everything it has issued a success. -/
theorem Unmanned.rehearsed (hunmanned : Unmanned w) (hstart : starts[place]? = some start)
    (hfits : start.specification.Fits start.plan.function) (hpolicy : start.plan.Decides)
    (htest : start.plan.configuration.testMode = true) :
    let ended := (w.startAll starts).runToEnd
    ended.view.Done (w.lanes.length + place) ∧
    ∃ finish ∈ ended.finished, finish.lane = w.lanes.length + place ∧ ∃ r, finish.result = .ok r ∧
      r.failed = 0 ∧ r.successful = r.issued ∧
      r.issued = (ended.view.issuesOf (w.lanes.length + place)).length ∧
      r.specification = start.specification := by
  intro ended
  have hfounded := hunmanned.toFounded
  have hpasses := World.runToEnd_passes (w.startAll starts)
  have hbegin : (Driver.rehearsing start.plan start.specification htest).holds .head
      (Driver.begin start.plan start.specification w.clock) [] := by
    refine ⟨?_, by simp⟩
    rw [Driver.begin]
    split <;> rfl
  obtain ⟨lane, hlane, ⟨hrehearses, -, hupholds⟩, -, -, honschedule⟩ :=
    ((hfounded.rehearses hpasses hstart htest).and (hfounded.upholds hstart hpasses hbegin)).and
      (hfounded.onSchedule hpasses hstart hfits hpolicy)
  have hmanned := hrehearses.serves.manned
  obtain ⟨finish, hmem, hfinish⟩ := hfounded.finishes hpasses hstart
    (hunmanned.runToEnd_ends starts) fun dispatch reply begin hheld =>
      hrehearses.driven _ (mem_ofLane.mpr ⟨hheld, rfl⟩) rfl
  have hended : finish ∈ (ended.view.track (w.lanes.length + place) lane).finished :=
    List.mem_filter.mpr ⟨hmem, by simp [hfinish]⟩
  obtain ⟨r, hresult, -⟩ := honschedule.ended finish hended
  obtain ⟨-, hsuccessful, hfailed, hissued⟩ := hmanned.ended finish hended r hresult
  obtain ⟨counters, s, hreport, hspecification, -⟩ := hupholds.ended finish hended r hresult
  have hempty := hmanned.standing_eq_zero hended hresult
  have hnone : lane.counters.failed = 0 := hrehearses.flawless.failed
  have hsettled : lane.counters.successful + lane.counters.failed =
      (ended.view.issuesOf (w.lanes.length + place)).length := by
    have hall : Track.settled _ = _ := hrehearses.complete
    rw [Track.settled, Track.dues, hempty] at hall
    exact hall
  have hcounted : r.successful = lane.counters.successful := hsuccessful
  have hcount : r.issued = (ended.view.issuesOf (w.lanes.length + place)).length := hissued
  have hdone : ended.view.Done (w.lanes.length + place) := by
    refine ⟨fun x hx howner => ?_, ?_⟩
    · exact Multiset.notMem_zero x (hempty ▸ mem_ofLane.mpr ⟨hx, howner⟩)
    · rw [hlane]
      exact hsettled
  refine ⟨hdone, finish, hmem, hfinish, r, hresult, hfailed.trans hnone, by omega, hissued, ?_⟩
  rw [hreport]
  exact hspecification

/-- When nothing is left to do, all that has arrived is with the collector. -/
theorem Sound.arrivals_of_end (hsound : Sound u) (hend : u.step? = none) :
    u.arrivals = u.collector.records.reverse ∧ u.jobArrivals = u.collector.jobs.reverse := by
  obtain ⟨hrecords, hjobs⟩ := hsound.toKept.drained (World.ready_of_end hend)
  simp [World.arrivals, World.jobArrivals, hrecords, hjobs]

/-- After a rehearsal the collector has the records that were made up, in the order of the
slots and perhaps among those of other drivers. -/
theorem Attentive.sublist_collected (hattentive : Attentive w)
    (hstart : starts[place]? = some start) (htest : start.plan.configuration.testMode = true)
    (hdone : (w.startAll starts).runToEnd.view.Done (w.lanes.length + place)) :
    let ended := (w.startAll starts).runToEnd
    let pairs := (ended.view.issuesOf (w.lanes.length + place)).map
      (start.plan.madeUp w.clock.epoch)
    (pairs.map (·.record)).Sublist ended.collector.records.reverse ∧
      (pairs.map (·.job)).Sublist ended.collector.jobs.reverse := by
  intro ended pairs
  have hpasses := World.runToEnd_passes (w.startAll starts)
  obtain ⟨harrivals, hjobArrivals⟩ := (hattentive.toFounded.sound hpasses).arrivals_of_end
    (hattentive.toUnmanned.runToEnd_ends starts)
  obtain ⟨hrecords, hjobs⟩ := hattentive.files hpasses hstart htest
  rw [unsent_eq_zero hdone.standing] at hrecords hjobs
  rw [← harrivals, ← hjobArrivals, List.map_map, List.map_map]
  exact ⟨hrecords.sublist, hjobs.sublist⟩

/-- The collector of a driver that is alone has as many records as it has issued slots. -/
theorem Attentive.length_collected (hattentive : Attentive w)
    (hdone : (w.startAll [start]).runToEnd.view.Done w.lanes.length) :
    let ended := (w.startAll [start]).runToEnd
    ended.collector.records.length = (ended.view.issuesOf w.lanes.length).length ∧
      ended.collector.jobs.length = (ended.view.issuesOf w.lanes.length).length := by
  intro ended
  have hfounded := hattentive.toFounded
  have hpasses := World.runToEnd_passes (w.startAll [start])
  have hready := World.ready_of_end (hattentive.toUnmanned.runToEnd_ends [start])
  have hkeeps : ended.view.Keeps (w.newLanes [start]) :=
    (hfounded.startAll [start]).1.toSound.view_passes
      (fun horderly hstep hkeeps => hkeeps.step horderly hstep) (hattentive.keeps [start]) hpasses
  have hlanes : w.newLanes [start] = {w.lanes.length} := by simp [World.newLanes]
  rw [hlanes] at hkeeps
  obtain ⟨hrecords, hjobs⟩ := hkeeps.card_eq fun index hindex => by
    rw [Finset.mem_singleton.mp hindex]
    exact hdone
  obtain ⟨hcollected, hcollectedJobs⟩ :=
    (hfounded.sound hpasses).toKept.collected hready {w.lanes.length}
  have hissued : Multiset.card (ended.view.books {w.lanes.length}).issued =
      (ended.view.issuesOf w.lanes.length).length := by
    rw [View.issued_books, Finset.sum_singleton, Multiset.coe_card, List.length_map]
  exact ⟨hcollected.trans (hrecords.trans hissued), hcollectedJobs.trans (hjobs.trans hissued)⟩

/-- A replay in test mode issues what a replay would that is not in test mode and all of whose
calls succeed, wherever that takes place from the same time on. -/
theorem Unmanned.entriesOf_rehearsal {w' : World} {starts' : List Start} {place' : Nat}
    {start' : Start} (hunmanned : Unmanned w) (hstart : starts[place]? = some start)
    (hfits : start.specification.Fits start.plan.function) (hpolicy : start.plan.Decides)
    (htest : start.plan.configuration.testMode = true) (hunmanned' : Unmanned w')
    (hstart' : starts'[place']? = some start') (hclock : w'.clock.now = w.clock.now)
    (hplan : start'.plan = start.plan.inMode false)
    (hspecification : start'.specification = start.specification)
    (hends : start'.context.invoker.EndsIn Ending.Succeeds) :
    (w'.startAll starts').runToEnd.entriesOf (w'.lanes.length + place') =
      (w.startAll starts).runToEnd.entriesOf (w.lanes.length + place) := by
  have hruns := hunmanned.runs hstart hfits hpolicy fun u hpasses =>
    (hunmanned.toFounded.rehearses hpasses hstart htest).mono fun _ hrehearses =>
      hrehearses.flawless
  have hfits' : start'.specification.Fits start'.plan.function := by
    rw [hspecification, hplan]
    exact hfits
  have hpolicy' : start'.plan.Decides := by
    rw [hplan]
    exact hpolicy
  have hruns' := hunmanned'.runs hstart' hfits' hpolicy' fun u hpasses =>
    (hunmanned'.toFounded.flawless hpasses hstart' hends).mono fun _ hboth => hboth.2
  have hschedule : start'.schedule w'.clock =
      { start.schedule w.clock with plan := start.plan.inMode false } := by
    rw [Start.schedule, Start.schedule, hplan, hspecification, hclock]
  rw [hschedule] at hruns'
  exact ((Driver.Schedule.runs_inMode false).mp hruns').unique hruns

/-- Test mode replays without invoking.  Whatever the invoker is, it is never called; the driver
comes to its end with every slot it has issued a success and its specification as it was given;
the collector has one pair of records for each slot, made up under the name of the driven function
and with an empty job record, in the order of the slots; and the slots are issued at the times at
which a replay would issue them that is not in test mode and all of whose calls succeed. -/
theorem Attentive.rehearsal (hattentive : Attentive w) (hstart : starts[place]? = some start)
    (hvalid : start.specification.validate start.plan.function = .ok ())
    (hpolicy : start.plan.Decides) (htest : start.plan.configuration.testMode = true) :
    let ended := (w.startAll starts).runToEnd
    let issues := ended.view.issuesOf (w.lanes.length + place)
    let pairs := issues.map (start.plan.madeUp w.clock.epoch)
    (∀ u, (w.startAll starts).Passes u → ¬u.Calls (w.lanes.length + place)) ∧
    (∃ finish ∈ ended.finished, finish.lane = w.lanes.length + place ∧ ∃ r, finish.result = .ok r ∧
      r.failed = 0 ∧ r.successful = r.issued ∧ r.issued = issues.length ∧
      r.specification = start.specification) ∧
    (issues.map Issue.position).Pairwise (· < ·) ∧
    ((pairs.map (·.record)).Sublist ended.collector.records.reverse ∧
      (pairs.map (·.job)).Sublist ended.collector.jobs.reverse) ∧
    (starts = [start] → ended.collector.records.reverse = pairs.map (·.record) ∧
      ended.collector.jobs.reverse = pairs.map (·.job)) ∧
    ∀ (w' : World) (starts' : List Start) (place' : Nat) (start' : Start), Unmanned w' →
      starts'[place']? = some start' → w'.clock.now = w.clock.now →
      start'.plan = start.plan.inMode false → start'.specification = start.specification →
      start'.context.invoker.EndsIn Ending.Succeeds →
      (w'.startAll starts').runToEnd.entriesOf (w'.lanes.length + place') =
        ended.entriesOf (w.lanes.length + place) := by
  intro ended issues pairs
  have hfounded := hattentive.toFounded
  have hfits := Specification.fits_of_validate hvalid
  obtain ⟨hdone, hfinish⟩ := hattentive.toUnmanned.rehearsed hstart hfits hpolicy htest
  have hsublist := hattentive.sublist_collected hstart htest hdone
  refine ⟨fun u hpasses => hfounded.not_calls hpasses hstart htest, hfinish, ?_, hsublist, ?_, ?_⟩
  · have hbegin : (Driver.ascending start.plan).holds .head
        (Driver.begin start.plan start.specification w.clock) [] := ⟨.nil, by simp⟩
    obtain ⟨lane, -, -, hupholds⟩ :=
      hfounded.upholds hstart (World.runToEnd_passes _) hbegin
    obtain ⟨_, _, hascending, -⟩ := hupholds.last
    exact hascending
  · rintro rfl
    obtain rfl : place = 0 := by
      have hless := (List.getElem?_eq_some_iff.mp hstart).1
      simpa using hless
    obtain ⟨hrecords, hjobs⟩ := hattentive.length_collected hdone
    constructor
    · apply (hsublist.1.eq_of_length _).symm
      simpa [pairs] using hrecords.symm
    · apply (hsublist.2.eq_of_length _).symm
      simpa [pairs] using hjobs.symm
  · intro w' starts' place' start' hunmanned' hstart' hclock hplan hspecification hends
    exact hattentive.toUnmanned.entriesOf_rehearsal hstart hfits hpolicy htest hunmanned' hstart'
      hclock hplan hspecification hends

end Replays

/-! ## Three slots that would go to copies -/

/-- The driver of three slots in test mode, with an invoker all of whose calls panic. -/
def Start.rehearsed : Start where
  plan := Start.copies.plan.inMode true
  context := { invoker := .scripted fun _ => { panics := true } }
  specification := Start.copies.specification

theorem rehearsal_copies :
    let ended := (({} : World).startAll [.rehearsed]).runToEnd
    Start.rehearsed.specification.validate Start.rehearsed.plan.function = .ok () ∧
      Start.rehearsed.plan.configuration.testMode = true ∧
      (∀ u, (({} : World).startAll [.rehearsed]).Passes u → ¬u.Calls 0) ∧
      (∃ finish ∈ ended.finished, ∃ r, finish.result = .ok r ∧ r.failed = 0 ∧
        r.successful = r.issued) ∧
      ended.collector.records.reverse.map (fun record => (record.instanceName, record.invocationId)) =
        [("bert", "bert-sec0.inv0"), ("bert", "bert-sec0.inv1"), ("bert", "bert-sec1.inv0")] ∧
      ended.collector.jobs.map (·.executions.length) = [0, 0, 0] ∧
      (({} : World).startAll [.copies]).runToEnd.entriesOf 0 = ended.entriesOf 0 := by
  intro ended
  obtain ⟨hsilent, ⟨finish, hmem, -, r, hresult, hfailed, hsuccessful, -⟩, -, -, -, hentries⟩ :=
    Attentive.empty.rehearsal (show [Start.rehearsed][0]? = some .rehearsed from rfl) rfl
      (fun _ _ => Policy.replicaFanOut_decides) rfl
  refine ⟨rfl, rfl, hsilent, ⟨finish, hmem, r, hresult, hfailed, hsuccessful⟩, by decide +kernel,
    by decide +kernel, ?_⟩
  exact hentries {} [.copies] 0 .copies Unmanned.empty rfl rfl rfl rfl fun _ _ => ⟨_, rfl, rfl⟩

end TraceReplay.Replay
