import TraceReplay.Proofs.Replay.Conservation

/-!
# Successes of a lane

A slot nothing is invoked for is a success of its lane once its records are delivered, and
no slot is counted twice.  So the successes of a lane are at least the slots that nothing
was invoked for, and what it counts otherwise is at most the slots that were dispatched.
-/

namespace TraceReplay.Replay

namespace Track

/-- What the tasks of the lane owe. -/
def dues (t : Track) : Multiset Due := t.standing.bind (·.2.dues)

/-- Slots that nothing was invoked for. -/
def skipped (t : Track) : Nat := t.issues.countP (·.dispatch.isNone)

/-- Successes that are counted, or that the driver has yet to count. -/
def credited (t : Track) : Nat := t.lane.counters.successful + t.dues.count .success

/-- Outcomes that are counted, or that are yet to come. -/
def settled (t : Track) : Nat :=
  t.lane.outcomes + t.dues.count .success + t.dues.countP (·.kind = .outcome)

/-- Slots nothing was invoked for are counted as successes, or the driver has yet to do so;
others are counted once at most. -/
structure Credited (t : Track) : Prop where
  skipped : t.skipped ≤ t.lane.counters.successful + t.dues.count .success
  outcomes : t.lane.outcomes + t.dues.count .success + t.dues.countP (·.kind = .outcome) ≤
    t.issues.length

/-- What a step does to the books of a lane: a slot nothing is invoked for is credited, and
every slot is counted once or has yet to be, apart from those that are lost. -/
structure Transfers (lost : Nat) (t t' : Track) : Prop where
  credits : t'.skipped + t.credited ≤ t.skipped + t'.credited
  settles : t.settled + t'.issues.length = t'.settled + t.issues.length + lost

variable {t : Track} {index : Nat}

theorem dues_eq {x : Place × Task} {rest : Standing} (hstanding : t.standing = x ::ₘ rest) :
    t.dues = x.2.dues + { t with standing := rest }.dues := by
  rw [dues, hstanding, Multiset.cons_bind]
  rfl

@[simp]
theorem dues_add (t : Track) (place : Place) (task : Task) :
    (t.add place task).dues = task.dues + t.dues := Multiset.cons_bind _ _ _

/-- A driver that issues nothing owes nothing where it goes on. -/
theorem dues_move {s : Driver.State} {move : Driver.Move} {point : Driver.Point}
    (hleads : move.Leads point) (hlaunch : ∀ dispatch next, move ≠ .launch dispatch next)
    (hdeliver : ∀ pair next, move ≠ .deliver pair next) : (t.move index s move).dues = t.dues := by
  have hadd (place : Place) {next : Driver.Point} (hnext : next ≠ .stored) :
      (t.add place (.drive index next s)).dues = t.dues := by
    rw [dues_add, Task.dues_drive hnext, zero_add]
  cases move with
  | proceed next =>
    refine hadd _ ?_
    rcases hleads with rfl | rfl | ⟨gap, rfl⟩ <;> simp
  | sleep micros next =>
    refine hadd _ ?_
    rcases hleads.2 with rfl | ⟨gap, rfl⟩ <;> simp
  | yield next =>
    obtain rfl : next = .check := hleads
    exact hadd _ (by simp)
  | await next =>
    obtain rfl : next = .drained := hleads
    exact hadd _ (by simp)
  | launch dispatch next => exact absurd rfl (hlaunch dispatch next)
  | deliver pair next => exact absurd rfl (hdeliver pair next)
  | finish report => rfl
  | fail error => rfl

namespace Transfers

theorem of_same {t' : Track} (hlane : t'.lane.counters = t.lane.counters)
    (hissues : t'.issues = t.issues) (hdues : t'.dues = t.dues) : Transfers 0 t t' := by
  constructor <;> simp [skipped, credited, settled, Lane.outcomes, hlane, hissues, hdues]

/-- A task in the place of another that owes as many successes, and perhaps an outcome less. -/
theorem replace {x y : Place × Task} {rest : Standing} (hstanding : t.standing = x ::ₘ rest)
    {lost : Nat} (hsuccess : y.2.dues.count .success = x.2.dues.count .success)
    (houtcome : x.2.dues.countP (·.kind = .outcome) = y.2.dues.countP (·.kind = .outcome) + lost) :
    Transfers lost t { t with standing := y ::ₘ rest } := by
  have hdues : Track.dues { t with standing := y ::ₘ rest } =
      y.2.dues + Track.dues { t with standing := rest } := dues_eq rfl
  constructor
  · simp only [credited, hdues, dues_eq hstanding, Multiset.count_add, hsuccess]
    exact le_rfl
  · simp only [settled, hdues, dues_eq hstanding, Multiset.count_add, Multiset.countP_add, hsuccess]
    omega

/-- The turn of a driver that counts a slot whose records it made up. -/
theorem drive_stored {s : Driver.State} {rest : Standing}
    (hstanding : t.standing = (.ready, .drive index .stored s) ::ₘ rest) :
    Transfers 0 t ({ t with standing := rest }.drive index
      (Driver.turn t.lane.plan t.clock t.lane.counters .stored s)) := by
  have hdues : Track.dues ({ t with standing := rest }.drive index
      (Driver.turn t.lane.plan t.clock t.lane.counters .stored s)) =
        Track.dues { t with standing := rest } := (dues_add _ _ _).trans (zero_add _)
  constructor
  · rw [credited, credited, hdues, dues_eq hstanding]
    simp [Task.dues, Driver.turn, Track.drive, Track.skipped, Counters.recordSuccess]
    omega
  · rw [settled, settled, hdues, dues_eq hstanding]
    simp [Task.dues, Driver.turn, Track.drive, Lane.outcomes, Counters.recordSuccess]
    omega

/-- The turn of a driver. -/
theorem drive {point : Driver.Point} {s : Driver.State} {rest : Standing}
    (hstanding : t.standing = (.ready, .drive index point s) ::ₘ rest) :
    Transfers 0 t ({ t with standing := rest }.drive index
      (Driver.turn t.lane.plan t.clock t.lane.counters point s)) := by
  by_cases hpoint : point = .stored
  · subst hpoint
    exact drive_stored hstanding
  have hissued := Driver.turn_issue_cases t.lane.plan t.clock t.lane.counters point s
  have hleads := Driver.turn_leads t.lane.plan t.clock t.lane.counters point s
  have hcounters := Driver.turn_counters t.lane.plan t.clock t.lane.counters s hpoint
  generalize Driver.turn t.lane.plan t.clock t.lane.counters point s = turn at *
  have hbefore : t.dues = Track.dues { t with standing := rest } := by
    rw [dues_eq hstanding, Task.dues_drive hpoint, zero_add]
  rcases hissued with ⟨hissue, hlaunch, hdeliver⟩ | ⟨due, dispatch, hissue, hmove, hfires⟩ |
    ⟨due, hissue, hmove⟩
  · have hdues : Track.dues ({ t with standing := rest }.drive index turn) =
        Track.dues { t with standing := rest } := dues_move hleads hlaunch hdeliver
    apply of_same
    · simp [Track.drive, hcounters]
    · simp [Track.drive, hissue]
    · rw [hdues, hbefore]
  · have hdues : Track.dues ({ t with standing := rest }.drive index turn) =
        {.outcome dispatch.invocationId} + t.dues := by
      rw [Track.drive, hmove, Track.move, dues_add, dues_add, hbefore]
      exact zero_add _
    constructor
    · rw [credited, credited, hdues]
      simp [Track.drive, Track.skipped, hissue, hcounters, Driver.issueOf]
    · rw [settled, settled, hdues]
      simp [Track.drive, Lane.outcomes, hissue, hcounters, Multiset.countP_cons]
      omega
  · have hdues : Track.dues ({ t with standing := rest }.drive index turn) =
        (Task.storeRecord index (.synthesized t.lane.plan.function (Driver.currentId t.lane.plan due)
          due.phase t.clock) (.drive index .stored turn.state)).dues + t.dues := by
      rw [Track.drive, hmove, Track.move, dues_add, hbefore]
      rfl
    constructor
    · rw [credited, credited, hdues]
      simp [Track.drive, Track.skipped, hissue, hcounters, Driver.issueOf, Task.dues]
      omega
    · rw [settled, settled, hdues]
      simp [Track.drive, Lane.outcomes, hissue, hcounters, Task.dues]
      omega

/-- An invocation that ends is counted. -/
theorem publish {dispatch : Dispatch} {outcome : Outcome} {rest : Standing}
    (hstanding : t.standing = (.ready, .conclude index dispatch (.returns outcome)) ::ₘ rest) :
    Transfers 0 t { t with
      lane := { t.lane with counters := dispatch.count outcome t.lane.counters }
      standing := (.ready, .storeRecord index (dispatch.label outcome) (.release index)) ::ₘ rest } := by
  have hdues : Track.dues { t with
      lane := { t.lane with counters := dispatch.count outcome t.lane.counters }
      standing := (.ready, .storeRecord index (dispatch.label outcome) (.release index)) ::ₘ rest } =
        (Task.storeRecord index (dispatch.label outcome) (.release index)).dues +
          Track.dues { t with standing := rest } := Multiset.cons_bind _ _ _
  have hmore : t.lane.counters.successful ≤ (dispatch.count outcome t.lane.counters).successful := by
    unfold Dispatch.count
    split <;> simp [Counters.recordSuccess, Counters.recordFailure]
  constructor
  · rw [credited, credited, hdues, dues_eq hstanding]
    simp [Task.dues, Track.skipped]
    omega
  · rw [settled, settled, hdues, dues_eq hstanding, View.outcomes_count]
    simp [Task.dues, Multiset.countP_cons]
    omega

/-- An invocation that is over owes nothing any more. -/
theorem release {rest : Standing} (inFlight : Nat)
    (hstanding : t.standing = (.ready, .release index) ::ₘ rest) :
    Transfers 0 t { t with
      lane := { t.lane with inFlight := inFlight }
      standing := rest } :=
  of_same rfl rfl ((dues_eq hstanding).trans (zero_add _)).symm

/-- The tasks of the lane stand elsewhere. -/
theorem map (clock : Clock) {f : Place × Task → Place × Task} (htask : ∀ x, (f x).2 = x.2) :
    Transfers 0 t { t with clock := clock, standing := t.standing.map f } :=
  of_same rfl rfl (by simp only [Track.dues, Multiset.bind_map, htask])

end Transfers

/-- Only an invocation that panics is lost. -/
theorem Step.transfers {own : Bool} {t' : Track} (hstep : Step index own t t') :
    Transfers 0 t t' ∨
      Transfers 1 t t' ∧ ∃ dispatch, (.ready, .conclude index dispatch .panics) ∈ t.standing := by
  cases hstep with
  | drive hstanding => exact .inl (.drive hstanding)
  | proceed hstanding hproceeds =>
    left
    apply Transfers.replace hstanding <;> cases hproceeds <;> simp [Task.dues, View.executing]
  | answer hstanding => exact .inl (.replace hstanding rfl rfl)
  | @panic _ dispatch rest hstanding =>
    refine .inr ⟨.replace hstanding rfl ?_, dispatch, by simp [hstanding]⟩
    exact Multiset.countP_cons_of_pos 0 rfl
  | publish hstanding => exact .inl (.publish hstanding)
  | deliver hstanding hplace hdelivers =>
    left
    apply Transfers.replace hstanding <;> cases hdelivers <;> simp [Task.dues]
  | release hstanding => exact .inl (.release _ hstanding)
  | @resume _ point s rest hstanding hlast =>
    exact .inl (.of_same rfl rfl (by simp [Track.dues, hstanding, Task.dues]))
  | rouse => exact .inl (.map t.clock View.rouse_task)
  | tick => exact .inl (.map _ (View.wakeAt_task _))

theorem Credited.step (hcredited : t.Credited) {own : Bool} {t' : Track}
    (hstep : Step index own t t') : t'.Credited := by
  have hskipped : t.skipped ≤ t.credited := hcredited.skipped
  have houtcomes : t.settled ≤ t.issues.length := hcredited.outcomes
  obtain ⟨lost, hcredits, hsettles⟩ : ∃ lost, Transfers lost t t' :=
    hstep.transfers.elim (⟨0, ·⟩) fun hlost => ⟨1, hlost.1⟩
  constructor
  · change t'.skipped ≤ t'.credited
    omega
  · change t'.settled ≤ t'.issues.length
    omega

end Track

/-! ## Whole replays -/

theorem Start.track_credited (start : Start) (clock : Clock) (index : Nat) :
    (start.track clock index).Credited where
  skipped := Nat.zero_le _
  outcomes := by
    simp [Track.dues, Start.track, Start.driver, Task.dues, Lane.outcomes, Start.lane,
      Counters.zero]

/-- A lane's successes are credited at any time. -/
theorem Founded.credited {w w' : World} (hfounded : Founded w) {starts : List Start}
    (hpasses : (w.startAll starts).Passes w') {place : Nat} {start : Start}
    (hstart : starts[place]? = some start) :
    w'.HasTrack (w.lanes.length + place) Track.Credited := by
  obtain ⟨hfounded', -, hnew⟩ := hfounded.startAll starts
  obtain ⟨hlane, htrack⟩ := hnew place start hstart
  apply hfounded'.toSound.hasTrack hpasses
  · refine ⟨_, hlane, ?_⟩
    rw [htrack]
    exact start.track_credited _ _
  · intro t t' own horderly hcredited hstep
    exact hcredited.step hstep

section End

variable {w : World}

/-- When nothing is left to do, nothing is owed but the outcomes of invocations. -/
theorem Sound.kind_of_end (hsound : Sound w) (hend : w.step? = none) {x : Place × Task}
    (hx : x ∈ w.view.standing) {due : Due} (hdue : due ∈ x.2.dues) : due.kind = .outcome := by
  obtain ⟨-, hstore⟩ := hsound.held_of_end hend hx
  obtain ⟨place, task⟩ := x
  cases task with
  | drive index point s =>
    obtain rfl := hsound.drained_of_end hend hx rfl
    exact absurd hdue (Multiset.notMem_zero _)
  | storeRecord | storeJob => simp [View.isStore] at hstore
  | attempt | answered | conclude =>
    rw [Multiset.mem_singleton.mp hdue, Due.kind_outcome]
  | release | collect | serve | idle => exact absurd hdue (Multiset.notMem_zero _)

/-- When nothing is left to do, all records have been delivered or lost. -/
theorem Sound.count_books_of_end (hsound : Sound w) (hend : w.step? = none) (own : Finset Nat)
    {due : Due} (hkind : due.kind ≠ .outcome) : (w.view.books own).due.count due = 0 := by
  refine Multiset.count_eq_zero.mpr fun hdue => ?_
  obtain ⟨x, hx, -, -, -, hmem⟩ := mem_duesOf hdue
  exact hkind (hsound.kind_of_end hend hx hmem)

/-- When nothing is left to do, each slot nothing was invoked for is counted as a success. -/
theorem Sound.skipped_le_of_end (hsound : Sound w) (hend : w.step? = none) {index : Nat}
    {lane : Lane} (hcredited : (w.view.track index lane).Credited) :
    (w.view.track index lane).skipped ≤ lane.counters.successful := by
  have hnone : (w.view.track index lane).dues.count .success = 0 := by
    refine Multiset.count_eq_zero.mpr fun hdue => ?_
    obtain ⟨x, hx, hmem⟩ := Multiset.mem_bind.mp hdue
    exact absurd (hsound.kind_of_end hend (mem_ofLane.mp hx).1 hmem) (by simp)
  have hskipped := hcredited.skipped
  rwa [hnone, Nat.add_zero] at hskipped

end End
end TraceReplay.Replay
