import TraceReplay.Proofs.Replay.OnSchedule
import TraceReplay.Proofs.Replay.Soundness

/-!
# The beginning of a replay

Drivers are started one after the other, before any of them has its first turn.  Each
gets a lane of its own, in which nothing has happened yet; the lanes that are there
already are left alone.
-/

namespace TraceReplay.Replay

/-- A driver that is to be started. -/
structure Start where
  plan : Driver.Plan
  context : Experiment.Context
  specification : Specification

/-- The lane a driver is started in. -/
def Start.lane (start : Start) : Lane where
  plan := start.plan
  context := start.context
  counters := Counters.zero start.plan.configuration.traceDuration

/-- The schedule of a driver that is started at some time. -/
def Start.schedule (start : Start) (clock : Clock) : Driver.Schedule where
  plan := start.plan
  trace := start.specification.gaps
  start := clock.now

/-- The task of a driver that is started now. -/
def Start.driver (start : Start) (clock : Clock) (index : Nat) : Task :=
  .drive index .head (Driver.begin start.plan start.specification clock)

/-- The track of a driver that is started now. -/
def Start.track (start : Start) (clock : Clock) (index : Nat) : Track where
  clock := clock
  lane := start.lane
  standing := {(.ready, start.driver clock index)}
  issues := []
  finished := []

namespace Start

variable (start : Start) (clock : Clock) (index : Nat)

theorem track_manned : (start.track clock index).Manned index := by
  have hnone : ∀ y ∈ (0 : Standing), y.2.driving? = none := by simp
  refine Track.Manned.ofDriver rfl hnone rfl rfl rfl (by simp) ?_
  simp only [track, Driver.begin]
  split <;> rfl

/-- Nothing has failed when a driver is started. -/
theorem lane_failedAt (step : Nat) : start.lane.counters.failedAt step = 0 := by
  simp only [lane, Counters.zero, Counters.failedAt, List.getD_eq_getElem?_getD,
    List.getElem?_replicate]
  split <;> rfl

theorem track_tallied : (start.track clock index).Tallied := by
  intro step
  have hnone : (start.track clock index).awaitedIn step = 0 :=
    Multiset.countP_eq_zero.mpr (by simp [track, driver, Task.awaited?])
  rw [hnone]
  exact (start.lane_failedAt step).trans_le (Nat.zero_le _)

theorem track_onSchedule (hfits : start.specification.Fits start.plan.function)
    (stops : Nat → Prop) :
    (start.track clock index).OnSchedule (start.schedule clock) stops where
  plan := rfl
  driver x hx lane point s hdriving := by
    obtain rfl := Multiset.mem_singleton.mp hx
    simp only [driver, Task.driving?, Option.some.injEq, Prod.mk.injEq] at hdriving
    obtain ⟨-, rfl, rfl⟩ := hdriving
    exact Driver.Schedule.keeps_begin start.plan start.specification clock hfits stops
  ended := by simp [track]

end Start

theorem parkedFrom_append (first : Nat) (lanes more : List Lane) :
    parkedFrom first (lanes ++ more) =
      parkedFrom first lanes + parkedFrom (first + lanes.length) more := by
  induction lanes generalizing first with
  | nil => simp [parkedFrom]
  | cons lane lanes ih =>
    simp only [List.cons_append, parkedFrom, ih, List.length_cons, add_assoc]
    rw [Nat.add_comm 1]

namespace World

/-- The world in which a driver has been started. -/
def begun (w : World) (start : Start) : World :=
  w.start start.plan start.context start.specification

/-- The world in which some drivers have been started, in their order. -/
def startAll (w : World) (starts : List Start) : World := starts.foldl begun w

theorem begun_lanes (w : World) (start : Start) :
    (w.begun start).lanes = w.lanes ++ [start.lane] := rfl

theorem startAll_lanes (w : World) (starts : List Start) :
    (w.startAll starts).lanes = w.lanes ++ starts.map Start.lane := by
  induction starts generalizing w with
  | nil => simp [startAll]
  | cons start starts ih =>
    refine (ih (w.begun start)).trans ?_
    simp [begun_lanes]

@[simp]
theorem startAll_clock (w : World) (starts : List Start) : (w.startAll starts).clock = w.clock := by
  induction starts generalizing w with
  | nil => rfl
  | cons start starts ih => exact ih (w.begun start)

theorem view_begun (w : World) (start : Start) :
    (w.begun start).view = ((w.view.setLane w.lanes.length start.lane).add .ready
      (start.driver w.clock w.lanes.length)) := by
  refine View.ext rfl ?_ ?_ rfl rfl rfl rfl rfl rfl
  · change ofLanes (standing (wake _ _)) = _
    rw [standing_wake, ofLanes_cons rfl]
    simp only [standing, heldTasks, parkedFrom_append]
    simp [parkedFrom, Start.driver, View.add, View.setLane, view, standing, heldTasks]
  · funext index
    change (w.begun start).lanes[index]?.map Lane.unparked = _
    rw [begun_lanes]
    by_cases hnew : index = w.lanes.length
    · subst hnew
      simp [View.add, View.setLane, Start.lane, Lane.unparked]
    · simp only [View.add, View.setLane, Function.update_of_ne hnew, view]
      rcases lt_or_gt_of_ne hnew with hlt | hgt
      · rw [List.getElem?_append_left hlt]
      · rw [List.getElem?_eq_none (by simp; omega), List.getElem?_eq_none (by omega)]

theorem drivers_begun (w : World) (start : Start) (index : Nat) :
    (w.begun start).view.drivers index =
      w.view.drivers index + if w.lanes.length = index then 1 else 0 := by
  rw [view_begun]
  simp [View.drivers, View.add, View.setLane, Start.driver, Task.driving?, Multiset.countP_cons]
  omega

end World

/-- A sound world with nobody and nothing yet in the lanes to come. -/
structure Founded (w : World) : Prop extends Sound w where
  vacant : ∀ index, w.lanes.length ≤ index →
    w.view.drivers index = 0 ∧ w.view.issuesOf index = []

namespace Founded

variable {w : World}

/-- Nothing stands in a lane to come. -/
theorem ofLane_eq_zero (hfounded : Founded w) {index : Nat} (hindex : w.lanes.length ≤ index) :
    ofLane index w.view.standing = 0 := by
  refine Multiset.filter_eq_nil.mpr fun x hx hlane => ?_
  have howned := hfounded.orderly.owned x hx index hlane
  simp [World.view, List.getElem?_eq_none hindex] at howned

theorem begun (hfounded : Founded w) (start : Start) : Founded (w.begun start) := by
  have hmay {deliveries : List Delivery} (hmay : MaySend w.lanes deliveries) :
      MaySend (w.lanes ++ [start.lane]) deliveries := by
    intro delivery hdelivery
    obtain ⟨lane, hlane, hopen⟩ := hmay delivery hdelivery
    refine ⟨lane, ?_, hopen⟩
    rw [List.getElem?_append_left (List.getElem?_eq_some_iff.mp hlane).1, hlane]
  have hkept : Kept (w.begun start) := { hfounded.toKept with
    collects := fun htold => List.mem_append_left _ (hfounded.collects htold)
    recordSenders := hmay hfounded.recordSenders
    jobSenders := hmay hfounded.jobSenders }
  have hdrivers := w.drivers_begun start
  refine { hkept with
    orderly := ?_
    single := fun index => ?_
    vacant := fun index hindex => ?_ }
  · rw [World.view_begun]
    exact (hfounded.orderly.setLane _ _).add trivial rfl (by simp)
  · rw [hdrivers]
    split
    · rename_i heq
      rw [(hfounded.vacant index heq.le).1]
    · exact hfounded.single index
  · rw [World.begun_lanes, List.length_append, List.length_singleton] at hindex
    obtain ⟨hnone, hnothing⟩ := hfounded.vacant index (by omega)
    refine ⟨?_, ?_⟩
    · rw [hdrivers, hnone, if_neg (by omega)]
    · rw [World.view_begun]
      exact hnothing

/-- The lanes that are there already are left alone. -/
theorem begun_old (start : Start) {index : Nat} {lane : Lane}
    (hlane : w.view.lane index = some lane) :
    (w.begun start).view.lane index = some lane ∧
      (w.begun start).view.track index lane = w.view.track index lane := by
  have hne : w.lanes.length ≠ index := by
    rintro rfl
    simp [World.view] at hlane
  rw [World.view_begun]
  refine ⟨(View.setLane_lane_ne _ _ hne.symm).trans hlane, ?_⟩
  rw [View.track_add_other _ _ _ rfl hne]
  rfl

/-- In the new lane nothing has happened yet. -/
theorem begun_new (hfounded : Founded w) (start : Start) :
    (w.begun start).view.lane w.lanes.length = some start.lane ∧
      (w.begun start).view.track w.lanes.length start.lane =
        start.track w.clock w.lanes.length := by
  obtain ⟨hnone, hnothing⟩ := hfounded.vacant _ le_rfl
  have hfinished : w.view.finished.filter (fun finish => finish.lane = w.lanes.length) = [] := by
    rw [View.drivers] at hnone
    rw [← List.length_eq_zero_iff, ← List.countP_eq_length_filter]
    omega
  rw [World.view_begun]
  refine ⟨View.setLane_lane_self _ _ _, ?_⟩
  rw [View.track_add _ _ _ rfl]
  simp only [View.track, Track.add, View.setLane, hfounded.ofLane_eq_zero le_rfl, hfinished,
    Start.track]
  congr 1

/-- All drivers are started at the same time, each in its lane. -/
theorem startAll (hfounded : Founded w) (starts : List Start) :
    Founded (w.startAll starts) ∧
      (∀ index lane, w.view.lane index = some lane →
        (w.startAll starts).view.lane index = some lane ∧
          (w.startAll starts).view.track index lane = w.view.track index lane) ∧
      ∀ place start, starts[place]? = some start →
        (w.startAll starts).view.lane (w.lanes.length + place) = some start.lane ∧
          (w.startAll starts).view.track (w.lanes.length + place) start.lane =
            start.track w.clock (w.lanes.length + place) := by
  induction starts generalizing w with
  | nil => exact ⟨hfounded, fun _ _ hlane => ⟨hlane, rfl⟩, by simp⟩
  | cons first starts ih =>
    obtain ⟨hfounded', hold, hnew⟩ := ih (hfounded.begun first)
    have hlength : (w.begun first).lanes.length = w.lanes.length + 1 := by
      simp [World.begun_lanes]
    refine ⟨hfounded', fun index lane hlane => ?_, fun place start hstart => ?_⟩
    · obtain ⟨hlane', htrack⟩ := begun_old first hlane
      obtain ⟨hlane'', htrack'⟩ := hold index lane hlane'
      exact ⟨hlane'', htrack'.trans htrack⟩
    · cases place with
      | zero =>
        obtain rfl : first = start := by simpa using hstart
        obtain ⟨hlane, htrack⟩ := hfounded.begun_new first
        obtain ⟨hlane', htrack'⟩ := hold _ _ hlane
        exact ⟨hlane', htrack'.trans htrack⟩
      | succ place =>
        have hlater := hnew place start (by simpa using hstart)
        rwa [hlength, Nat.add_assoc, Nat.add_comm 1 place] at hlater

end Founded
end TraceReplay.Replay
