import TraceReplay.Proofs.Replay.Credit
import TraceReplay.Proofs.Replay.Prompt
import TraceReplay.Proofs.Replay.Refinement

/-!
# Calls that end well

What every call of an invoker comes to, every invocation of a lane comes to.  Unless one
panics, each slot of the lane is counted or has yet to be; if all succeed, no failure is.
A driver whose invocations wait for nobody's answer comes to its end.
-/

namespace TraceReplay

/-- The invocation is a success. -/
def Ending.Succeeds (ending : Ending) : Prop :=
  ∃ outcome, ending = .returns outcome ∧ outcome.success = true

/-- Every call ends in a certain way, whatever the scheduler answers. -/
def Invoker.EndsIn (invoker : Invoker) (kind : Ending → Prop) : Prop :=
  ∀ request clock, match invoker.attempt request clock with
    | .execute execution => kind execution.ending
    | .consult _ begin => ∀ reply clock, kind (begin reply clock).ending

theorem Ending.Succeeds.ne_panics {ending : Ending} (hsucceeds : ending.Succeeds) :
    ending ≠ .panics := by
  obtain ⟨outcome, rfl, -⟩ := hsucceeds
  exact Ending.noConfusion

namespace Replay

/-- An invocation on its way to its end ends in a certain way. -/
def Task.EndsIn (kind : Ending → Prop) : Task → Prop
  | .answered _ _ _ begin => ∀ reply clock, kind (begin reply clock).ending
  | .conclude _ _ ending => kind ending
  | _ => True

/-- No invocation of the lane waits for an answer of the scheduler. -/
def World.Answered (w : World) (index : Nat) : Prop :=
  ∀ dispatch reply begin, (.held, .answered index dispatch reply begin) ∉ w.view.standing

namespace Track

variable {index : Nat} {t t' : Track} {own : Bool} {kind : Ending → Prop}

/-! ## Endings -/

/-- All invocations of the lane end in a certain way, those to come included. -/
structure EndsIn (kind : Ending → Prop) (t : Track) : Prop where
  invoker : t.lane.context.invoker.EndsIn kind
  tasks : ∀ x ∈ t.standing, x.2.EndsIn kind

theorem endsIn_move {s : Driver.State} {move : Driver.Move} {x : Place × Task}
    (hx : x ∈ (t.move index s move).standing) : x ∈ t.standing ∨ x.2.EndsIn kind := by
  have hadd {y : Place × Task} (hy : y.2.EndsIn kind) {standing : Standing}
      (hx : x ∈ y ::ₘ standing) : x ∈ standing ∨ x.2.EndsIn kind := by
    rcases Multiset.mem_cons.mp hx with rfl | hmem
    · exact .inr hy
    · exact .inl hmem
  cases move with
  | launch dispatch next =>
    rcases hadd (by trivial) hx with hmem | hends
    · exact hadd (by trivial) hmem
    · exact .inr hends
  | finish report => exact .inl hx
  | fail error => exact .inl hx
  | _ => exact hadd (by trivial) hx

theorem EndsIn.replace (hends : t.EndsIn kind) {x y : Place × Task} {rest : Standing}
    (hstanding : t.standing = x ::ₘ rest) (hy : y.2.EndsIn kind) {lane : Lane}
    (hcontext : lane.context = t.lane.context) :
    EndsIn kind { t with lane := lane, standing := y ::ₘ rest } where
  invoker := hcontext ▸ hends.invoker
  tasks z hz := by
    rcases Multiset.mem_cons.mp hz with rfl | hmem
    · exact hy
    · exact hends.tasks z (by rw [hstanding]; exact Multiset.mem_cons_of_mem hmem)

theorem EndsIn.map (hends : t.EndsIn kind) {f : Place × Task → Place × Task}
    (htask : ∀ x, (f x).2 = x.2) (clock : Clock) :
    EndsIn kind { t with clock := clock, standing := t.standing.map f } where
  invoker := hends.invoker
  tasks x hx := by
    obtain ⟨y, hy, rfl⟩ := Multiset.mem_map.mp hx
    rw [htask]
    exact hends.tasks y hy

/-- An invocation that goes on ends as the invoker has it. -/
theorem EndsIn.proceeds (hends : t.EndsIn kind) {task : Task} {x : Place × Task}
    (htask : task.EndsIn kind) (hproceeds : View.Proceeds t.clock index t.lane task x) :
    x.2.EndsIn kind := by
  cases hproceeds with
  | @executes dispatch execution hattempt =>
    have hkind := hends.invoker (View.request t.lane dispatch) t.clock
    rwa [hattempt] at hkind
  | @consults dispatch question begin hattempt =>
    have hkind := hends.invoker (View.request t.lane dispatch) t.clock
    rwa [hattempt] at hkind
  | @unheard dispatch question begin hattempt =>
    have hkind := hends.invoker (View.request t.lane dispatch) t.clock
    rwa [hattempt] at hkind
  | answered => exact htask _ _

theorem EndsIn.step (hends : t.EndsIn kind) (horderly : t.Orderly index)
    (hstep : Step index own t t') : t'.EndsIn kind := by
  cases hstep with
  | @drive _ point s rest hstanding =>
    refine ⟨?_, fun x hx => ?_⟩
    · rw [drive, move_context]
      exact hends.invoker
    · rcases endsIn_move hx with hmem | hkind
      · exact hends.tasks x (by rw [hstanding]; exact Multiset.mem_cons_of_mem hmem)
      · exact hkind
  | @proceed _ task x rest hstanding hproceeds =>
    have htask := hends.tasks (.ready, task) (by simp [hstanding])
    exact hends.replace hstanding (hends.proceeds htask hproceeds) rfl
  | @answer _ dispatch begin reply rest hstanding =>
    have hkind := hends.tasks (.held, .answered index dispatch none begin) (by simp [hstanding])
    exact hends.replace hstanding (y := (.ready, .answered index dispatch reply begin)) hkind rfl
  | panic hstanding => exact hends.replace hstanding (by trivial) rfl
  | publish hstanding => exact hends.replace hstanding (by trivial) rfl
  | @deliver _ place task x rest hstanding hplace hdelivers =>
    have hallowed := (horderly.first hstanding).1
    have hafter {owner : Nat} {next : Task} (hnext : View.AfterStore owner next) :
        next.EndsIn kind := by
      rcases hnext with rfl | ⟨s, rfl⟩ <;> trivial
    refine hends.replace hstanding ?_ rfl
    cases hdelivers with
    | record => trivial
    | job => exact hafter hallowed.2
    | lost => exact hafter hallowed.2
    | waits hstore =>
      cases task with
      | storeRecord | storeJob => trivial
      | _ => exact absurd hstore (by simp [View.isStore])
  | release hstanding =>
    exact ⟨hends.invoker, fun x hx =>
      hends.tasks x (by rw [hstanding]; exact Multiset.mem_cons_of_mem hx)⟩
  | resume hstanding =>
    refine ⟨hends.invoker, fun x hx => ?_⟩
    rcases Multiset.mem_cons.mp hx with rfl | hmem
    · trivial
    · exact hends.tasks x (by simp [hstanding, hmem])
  | rouse => exact hends.map View.rouse_task _
  | tick => exact hends.map (View.wakeAt_task _) _

/-! ## Counts -/

/-- Every slot of the lane is counted, or yet to be. -/
def Complete (t : Track) : Prop := t.settled = t.issues.length

theorem Complete.step (hcomplete : t.Complete) (hends : t.EndsIn kind)
    (hkind : ∀ {ending}, kind ending → ending ≠ .panics) (hstep : Step index own t t') :
    t'.Complete := by
  have hsettled : t.settled = t.issues.length := hcomplete
  rcases hstep.transfers with ⟨-, hsettles⟩ | ⟨-, dispatch, hpanics⟩
  · change t'.settled = t'.issues.length
    omega
  · exact absurd rfl (hkind (hends.tasks _ hpanics))

/-- Nothing is counted as failed. -/
structure Flawless (t : Track) : Prop where
  failed : t.lane.counters.failed = 0
  failedAt : ∀ step, t.lane.counters.failedAt step = 0

/-- The driver counts no failures. -/
theorem turn_failed (plan : Driver.Plan) (clock : Clock) (counters : Counters)
    (point : Driver.Point) (s : Driver.State) :
    (Driver.turn plan clock counters point s).counters.failed = counters.failed := by
  by_cases hpoint : point = .stored
  · subst hpoint
    rfl
  · rw [Driver.turn_counters plan clock counters s hpoint]

theorem Flawless.step_of_success (hflawless : t.Flawless)
    (hsuccess : ∀ dispatch outcome,
      (.ready, .conclude index dispatch (.returns outcome)) ∈ t.standing → outcome.success = true)
    (hstep : Step index own t t') : t'.Flawless := by
  cases hstep with
  | @drive _ point s rest hstanding =>
    constructor
    · rw [drive, move_counters]
      exact (turn_failed _ _ _ _ _).trans hflawless.failed
    · intro step
      rw [drive, move_counters]
      have hsame := Driver.turn_failedByStep t.lane.plan t.clock t.lane.counters point s
      simp only [Counters.failedAt, hsame]
      exact hflawless.failedAt step
  | @publish _ dispatch outcome rest hstanding =>
    have hcount : dispatch.count outcome t.lane.counters = t.lane.counters.recordSuccess := by
      rw [Dispatch.count, if_pos (hsuccess dispatch outcome (by simp [hstanding]))]
    constructor
    · simp only [hcount]
      exact hflawless.failed
    · intro step
      simp only [hcount]
      exact hflawless.failedAt step
  | _ => exact ⟨hflawless.failed, hflawless.failedAt⟩

theorem Flawless.step (hflawless : t.Flawless) (hends : t.EndsIn Ending.Succeeds)
    (hstep : Step index own t t') : t'.Flawless := by
  apply hflawless.step_of_success _ hstep
  intro dispatch outcome hmem
  obtain ⟨_, heq, hsuccess⟩ := hends.tasks _ hmem
  rw [Ending.returns.inj heq]
  exact hsuccess

end Track

/-! ## Whole replays -/

section Start

variable (start : Start) (clock : Clock) (index : Nat)

theorem Start.track_awaits : (start.track clock index).Awaits index := by
  intro point s hheld
  have heq := Multiset.mem_singleton.mp hheld
  exact absurd heq (by simp)

theorem Start.track_endsIn {kind : Ending → Prop} (hends : start.context.invoker.EndsIn kind) :
    (start.track clock index).EndsIn kind := by
  refine ⟨hends, fun x hx => ?_⟩
  obtain rfl := Multiset.mem_singleton.mp hx
  trivial

theorem Start.track_complete : (start.track clock index).Complete := by
  simp [Track.Complete, Track.settled, Track.dues, Start.track, Start.driver, Task.dues,
    Lane.outcomes, Start.lane, Counters.zero]

theorem Start.track_flawless : (start.track clock index).Flawless :=
  ⟨rfl, start.lane_failedAt⟩

end Start

section Replays

variable {w u : World} {starts : List Start} {place : Nat} {start : Start} {kind : Ending → Prop}

/-- The invocations of a lane end as its invoker has it, and unless one panics no slot is lost. -/
theorem Founded.complete (hfounded : Founded w) (hpasses : (w.startAll starts).Passes u)
    (hstart : starts[place]? = some start) (hends : start.context.invoker.EndsIn kind)
    (hkind : ∀ {ending}, kind ending → ending ≠ .panics) :
    u.HasTrack (w.lanes.length + place) fun t => t.EndsIn kind ∧ t.Complete := by
  obtain ⟨hfounded', -, hnew⟩ := hfounded.startAll starts
  obtain ⟨hlane, htrack⟩ := hnew place start hstart
  apply hfounded'.toSound.hasTrack hpasses
  · refine ⟨_, hlane, ?_⟩
    rw [htrack]
    exact ⟨start.track_endsIn _ _ hends, start.track_complete _ _⟩
  · rintro t t' own horderly ⟨hends, hcomplete⟩ hstep
    exact ⟨hends.step horderly hstep, hcomplete.step hends hkind hstep⟩

/-- A lane whose calls all succeed counts no failure. -/
theorem Founded.flawless (hfounded : Founded w) (hpasses : (w.startAll starts).Passes u)
    (hstart : starts[place]? = some start)
    (hends : start.context.invoker.EndsIn Ending.Succeeds) :
    u.HasTrack (w.lanes.length + place) fun t => t.EndsIn Ending.Succeeds ∧ t.Flawless := by
  obtain ⟨hfounded', -, hnew⟩ := hfounded.startAll starts
  obtain ⟨hlane, htrack⟩ := hnew place start hstart
  apply hfounded'.toSound.hasTrack hpasses
  · refine ⟨_, hlane, ?_⟩
    rw [htrack]
    exact ⟨start.track_endsIn _ _ hends, start.track_flawless _ _⟩
  · rintro t t' own horderly ⟨hends, hflawless⟩ hstep
    exact ⟨hends.step horderly hstep, hflawless.step hends hstep⟩

theorem Founded.awaits (hfounded : Founded w) (hpasses : (w.startAll starts).Passes u)
    (hstart : starts[place]? = some start) :
    u.HasTrack (w.lanes.length + place) fun t =>
      t.Manned (w.lanes.length + place) ∧ t.Awaits (w.lanes.length + place) := by
  obtain ⟨hfounded', -, hnew⟩ := hfounded.startAll starts
  obtain ⟨hlane, htrack⟩ := hnew place start hstart
  apply hfounded'.toSound.hasTrack hpasses
  · refine ⟨_, hlane, ?_⟩
    rw [htrack]
    exact ⟨start.track_manned _ _, start.track_awaits _ _⟩
  · rintro t t' own horderly ⟨hmanned, hawaits⟩ hstep
    exact ⟨hmanned.step horderly hstep, hawaits.step hmanned horderly hstep⟩

/-- A driver none of whose invocations is left without an answer comes to its end. -/
theorem Founded.finishes (hfounded : Founded w) (hpasses : (w.startAll starts).Passes u)
    (hstart : starts[place]? = some start) (hend : u.step? = none)
    (hanswered : u.Answered (w.lanes.length + place)) :
    ∃ finish ∈ u.finished, finish.lane = w.lanes.length + place := by
  have hsound := hfounded.sound hpasses
  obtain ⟨lane, -, hmanned, hawaits⟩ := hfounded.awaits hpasses hstart
  have hheld {x : Place × Task}
      (hx : x ∈ (u.view.track (w.lanes.length + place) lane).standing) :=
    hsound.held_of_end hend (mem_ofLane.mp hx).1
  have hfinished := hawaits.finished hmanned (hsound.orderly.track _ lane) (fun _ => hheld)
    fun x hx owner dispatch reply begin htask => ?_
  · obtain ⟨finish, hmem⟩ := List.exists_mem_of_ne_nil _ hfinished
    obtain ⟨hmem, hlane⟩ := List.mem_filter.mp hmem
    exact ⟨finish, hmem, of_decide_eq_true hlane⟩
  · obtain ⟨hplace, -⟩ := hheld hx
    obtain ⟨hmem, howner⟩ := mem_ofLane.mp hx
    obtain ⟨at', task⟩ := x
    obtain rfl : at' = .held := hplace
    obtain rfl : task = .answered owner dispatch reply begin := htask
    obtain rfl : owner = w.lanes.length + place := Option.some.inj howner
    exact hanswered dispatch reply begin hmem

end Replays

end Replay
end TraceReplay
