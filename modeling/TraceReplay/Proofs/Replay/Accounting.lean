import TraceReplay.Proofs.Driver.Slots
import TraceReplay.Proofs.Replay.Refinement
import TraceReplay.Proofs.Replay.Settlement
import TraceReplay.Proofs.Replay.Upheld

/-!
# Running drivers keep account

Whenever a driver is between two slots its counters add up: every slot it has issued is
counted, has an invocation that is yet to publish its outcome, or was lost when its
invocation panicked.  No step has more failures than slots that went to the invoker.  All
this holds in whatever order the driver, its invocations and everything else have their turns.
-/

namespace TraceReplay

namespace Driver

/-- The driver is between two slots: at the head of its loop, before a slot that is due, before
a check, or at its end. -/
def Point.Rests : Point → Prop
  | .stored => False
  | .advance => False
  | _ => True

/-- How the counters of a driver add up, with what it has issued so far, the invocations that
have yet to publish an outcome and those that have panicked. -/
structure Balance (plan : Plan) (counters : Counters) (issues : List Issue)
    (unpublished panicked : Nat) (s : State) : Prop where
  issued : s.issued = counters.successful + counters.failed + unpublished + panicked
  failed : counters.failed =
    ∑ step ∈ Finset.range plan.configuration.traceDuration, counters.failedAt step
  /-- Only slots that went to the invoker fail. -/
  dispatched : ∀ step, counters.failedAt step ≤
    issues.countP fun issue => issue.step = step ∧ issue.dispatch.isSome
  reached : ∀ step, issues.countP (fun issue => issue.step = step ∧ issue.dispatch.isSome) ≤
    issues.countP (·.step = step)
  within : ∀ step, issues.countP (·.step = step) ≤ plan.function.invocationsAt step
  /-- The slots of the current step are the first ones. -/
  slots : (issues.filter (·.step = s.step)).map (·.slot) = List.range s.slot
  total : s.issued = ∑ step ∈ Finset.range (s.step + 1), issues.countP (·.step = step)

end Driver

namespace Replay

/-! ## Failures by step -/

theorem sum_modify_succ (counts : List Nat) {index : Nat} (hindex : index < counts.length) :
    (counts.modify index (· + 1)).sum = counts.sum + 1 := by
  induction counts generalizing index with
  | nil => simp at hindex
  | cons count counts ih =>
    cases index with
    | zero =>
      simp only [List.modify_zero_cons, List.sum_cons]
      omega
    | succ index =>
      have hrest := ih (by simpa using hindex)
      simp only [List.modify_succ_cons, List.sum_cons, hrest]
      omega

namespace Track

variable {index : Nat} {plan : Driver.Plan} {t t' : Track}

/-- Every failure is counted for a step of the trace. -/
structure Filed (plan : Driver.Plan) (t : Track) : Prop where
  files : t.lane.counters.failedByStep.length = plan.configuration.traceDuration
  failed : t.lane.counters.failed = t.lane.counters.failedByStep.sum
  inTrace : ∀ x ∈ t.standing, ∀ step, x.2.awaited? = some step →
    step < plan.configuration.traceDuration

theorem Filed.sum (hfiled : t.Filed plan) : t.lane.counters.failed =
    ∑ step ∈ Finset.range plan.configuration.traceDuration, t.lane.counters.failedAt step := by
  rw [hfiled.failed, ← hfiled.files, Finset.sum_range, ← Fin.sum_univ_getElem]
  refine Finset.sum_congr rfl fun step _ => ?_
  simp [Counters.failedAt]

/-- A task takes the place of another that awaits the same, or it awaits nothing. -/
theorem Filed.replace (hfiled : t.Filed plan) {x y : Place × Task} {rest : Standing}
    (hstanding : t.standing = x ::ₘ rest)
    (hawaited : y.2.awaited? = x.2.awaited? ∨ y.2.awaited? = none) :
    Filed plan { t with standing := y ::ₘ rest } where
  files := hfiled.files
  failed := hfiled.failed
  inTrace z hz step hstep := by
    rcases Multiset.mem_cons.mp hz with rfl | hmem
    · rcases hawaited with hsame | hnone
      · exact hfiled.inTrace x (by simp [hstanding]) step (hsame ▸ hstep)
      · exact absurd hstep (by simp [hnone])
    · exact hfiled.inTrace z (by rw [hstanding]; exact Multiset.mem_cons_of_mem hmem) step hstep

theorem Filed.subset (hfiled : t.Filed plan) {standing : Standing} {inFlight : Nat}
    (hsubset : ∀ x ∈ standing, x ∈ t.standing ∨ x.2.awaited? = none) :
    Filed plan { t with lane := { t.lane with inFlight := inFlight }, standing := standing } where
  files := hfiled.files
  failed := hfiled.failed
  inTrace x hx step hstep := by
    rcases hsubset x hx with hmem | hnone
    · exact hfiled.inTrace x hmem step hstep
    · exact absurd hstep (by simp [hnone])

theorem Filed.map (hfiled : t.Filed plan) {f : Place × Task → Place × Task}
    (htask : ∀ x, (f x).2 = x.2) (clock : Clock) :
    Filed plan { t with clock := clock, standing := t.standing.map f } where
  files := hfiled.files
  failed := hfiled.failed
  inTrace y hy step hstep := by
    obtain ⟨x, hx, rfl⟩ := Multiset.mem_map.mp hy
    exact hfiled.inTrace x hx step (by rw [← htask x, hstep])

/-- Only a slot that is launched awaits an outcome. -/
theorem awaited_move {s : Driver.State} {move : Driver.Move} {x : Place × Task}
    (hx : x ∈ (t.move index s move).standing) :
    x ∈ t.standing ∨ x.2.awaited? = none ∨
      ∃ dispatch next, move = .launch dispatch next ∧ x.2.awaited? = some dispatch.step := by
  have hadd {y : Place × Task} (hnone : y.2.awaited? = none) {standing : Standing}
      (hx : x ∈ y ::ₘ standing) : x ∈ standing ∨ x.2.awaited? = none := by
    rcases Multiset.mem_cons.mp hx with rfl | hmem
    · exact .inr hnone
    · exact .inl hmem
  cases move with
  | launch dispatch next =>
    rcases hadd rfl hx with hmem | hnone
    · rcases Multiset.mem_cons.mp hmem with rfl | hmem
      · exact .inr (.inr ⟨dispatch, next, rfl, rfl⟩)
      · exact .inl hmem
    · exact .inr (.inl hnone)
  | finish report => exact .inl hx
  | fail error => exact .inl hx
  | _ => exact (hadd rfl hx).imp_right .inl

/-- A driver launches slots of its trace only. -/
theorem Filed.drive (hfiled : t.Filed plan) {point : Driver.Point} {s : Driver.State}
    {rest : Standing} (hin : Driver.InTrace plan point s)
    (hstanding : t.standing = (.ready, .drive index point s) ::ₘ rest) :
    Filed plan ({ t with standing := rest }.drive index
      (Driver.turn t.lane.plan t.clock t.lane.counters point s)) := by
  have hfailed : (Driver.turn t.lane.plan t.clock t.lane.counters point s).counters.failed =
      t.lane.counters.failed := by
    by_cases hpoint : point = .stored
    · subst hpoint
      rfl
    · rw [Driver.turn_counters _ _ _ s hpoint]
  refine ⟨?_, ?_, fun x hx step hstep => ?_⟩
  · simp only [Track.drive, move_counters, Driver.turn_failedByStep]
    exact hfiled.files
  · simp only [Track.drive, move_counters, Driver.turn_failedByStep, hfailed]
    exact hfiled.failed
  · rcases awaited_move hx with hmem | hnone | ⟨dispatch, next, hlaunch, hawaits⟩
    · exact hfiled.inTrace x (by rw [hstanding]; exact Multiset.mem_cons_of_mem hmem) step hstep
    · exact absurd hstep (by simp [hnone])
    · obtain rfl := Option.some.inj (hawaits.symm.trans hstep)
      rcases Driver.turn_issue_cases t.lane.plan t.clock t.lane.counters point s with
        ⟨-, hnot, -⟩ | ⟨due, other, hissue, hmove, hfires⟩ | ⟨due, -, hmove⟩
      · exact absurd hlaunch (hnot dispatch next)
      · obtain ⟨rfl, -⟩ := Driver.Move.launch.inj (hmove.symm.trans hlaunch)
        have hdue : due.step = s.step := Driver.step_of_turn_issue hissue
        obtain ⟨gap, rfl, -⟩ := Driver.due_of_turn_issue hissue
        rw [hfires.step, hdue]
        exact hin
      · exact absurd (hmove.symm.trans hlaunch) (by simp)

/-- An outcome is counted for the step of its slot, if at all. -/
theorem Filed.publish (hfiled : t.Filed plan) {dispatch : Dispatch} {outcome : Outcome}
    {rest : Standing}
    (hstanding : t.standing = (.ready, .conclude index dispatch (.returns outcome)) ::ₘ rest) :
    Filed plan { t with
      lane := { t.lane with counters := dispatch.count outcome t.lane.counters }
      standing :=
        (.ready, .storeRecord index (dispatch.label outcome) (.release index)) ::ₘ rest } where
  files := by
    simp only [Dispatch.count]
    split
    · exact hfiled.files
    · simpa [Counters.recordFailure] using hfiled.files
  failed := by
    have hstep : dispatch.step < plan.configuration.traceDuration :=
      hfiled.inTrace (.ready, .conclude index dispatch (.returns outcome)) (by simp [hstanding])
        _ rfl
    simp only [Dispatch.count]
    split
    · exact hfiled.failed
    · simp only [Counters.recordFailure]
      rw [sum_modify_succ _ (hfiled.files ▸ hstep), hfiled.failed]
  inTrace := (hfiled.replace hstanding (.inr rfl)).inTrace

/-- A lane whose driver has issued its slots one after the other, and whose failures are those
of slots that went to the invoker. -/
structure Accounts (plan : Driver.Plan) (index : Nat) (t : Track) : Prop where
  manned : t.Manned index
  numbered : t.Upholds (Driver.numbering plan)
  dispatched : t.TalliedBy fun step issue => issue.step = step ∧ issue.dispatch.isSome
  filed : t.Filed plan

theorem Accounts.step (haccounts : t.Accounts plan index) (horderly : t.Orderly index) {own : Bool}
    (hstep : Step index own t t') : t'.Accounts plan index where
  manned := haccounts.manned.step horderly hstep
  numbered := haccounts.numbered.step haccounts.manned horderly hstep
  dispatched := haccounts.dispatched.step (by simp) horderly hstep
  filed := by
    have hfiled := haccounts.filed
    cases hstep with
    | @drive _ point s rest hstanding =>
      have hnumbered : Driver.Numbered plan point s t.issues :=
        haccounts.numbered.driver (.ready, .drive index point s) (by simp [hstanding])
          index point s rfl
      exact hfiled.drive hnumbered.inTrace hstanding
    | proceed hstanding hproceeds => exact hfiled.replace hstanding (.inl hproceeds.awaited?)
    | answer hstanding => exact hfiled.replace hstanding (.inl rfl)
    | panic hstanding => exact hfiled.replace hstanding (.inr rfl)
    | publish hstanding => exact hfiled.publish hstanding
    | deliver hstanding _ hdelivers =>
      exact hfiled.replace hstanding (.inr (hdelivers.awaited? (horderly.first hstanding).1))
    | release hstanding =>
      exact hfiled.subset fun x hx => .inl (by rw [hstanding]; exact Multiset.mem_cons_of_mem hx)
    | resume hstanding =>
      refine hfiled.subset fun x hx => ?_
      rcases Multiset.mem_cons.mp hx with rfl | hmem
      · exact .inr rfl
      · exact .inl (by simp [hstanding, hmem])
    | rouse => exact hfiled.map View.rouse_task t.clock
    | tick => exact hfiled.map (View.wakeAt_task _) _

/-- It does not matter for the accounts when tasks go on. -/
theorem Accounts.shift (haccounts : t.Accounts plan index) {f : Place × Task → Place × Task}
    (hwakes : View.Wakes f) (clock : Clock) : (t.shifted f clock).Accounts plan index where
  manned := haccounts.manned.map hwakes.task
    (fun x hplace hheld => by
      rcases hwakes x with hsame | ⟨hnot, -⟩
      · exact hplace (by rw [hsame, hheld])
      · exact hnot hheld) clock
  numbered :=
    { haccounts.numbered with
      driver := fun y hy lane point s hdriving => by
        obtain ⟨x, hx, rfl⟩ := Multiset.mem_map.mp hy
        exact haccounts.numbered.driver x hx lane point s (by rw [← hwakes.task x, hdriving]) }
  dispatched step := by
    rw [awaitedIn, shifted,
      View.countP_map_task hwakes.task (fun task => task.awaited? = some step)]
    exact haccounts.dispatched step
  filed := haccounts.filed.map hwakes.task clock

theorem accounts_lasting : Lasting index (Accounts plan index) where
  step horderly haccounts hstep := haccounts.step horderly hstep
  shift hwakes clock haccounts := haccounts.shift hwakes clock

end Track

/-! ## Outcomes to come -/

theorem outstanding_eq_countP {index : Nat} {standing : Standing} {p : Place × Task → Prop}
    [DecidablePred p] (howes : ∀ x ∈ standing, x.2.owes index = if p x then 1 else 0) :
    outstanding index standing = standing.countP p := by
  induction standing using Multiset.induction with
  | empty => rfl
  | cons x standing ih =>
    have hrest := ih fun y hy => howes y (Multiset.mem_cons_of_mem hy)
    rw [outstanding_cons, Multiset.countP_cons, hrest, howes x (Multiset.mem_cons_self x standing)]

namespace Track

variable {index : Nat} {t : Track}

/-- While the driver is between two slots, outcomes are left to invocations only. -/
theorem Manned.owes_eq (hmanned : t.Manned index) (horderly : t.Orderly index) {place : Place}
    {point : Driver.Point} {s : Driver.State}
    (hdriver : (place, .drive index point s) ∈ t.standing) (hrests : point.Rests)
    {x : Place × Task} (hx : x ∈ t.standing) :
    x.2.owes index = if x.2.awaited?.isSome then 1 else 0 := by
  have hsole {next : Driver.Point} {s' : Driver.State}
      (hdriving : x.2.driving? = some (index, next, s')) : next ≠ .stored := by
    rintro rfl
    obtain ⟨rest, hstanding⟩ := Multiset.exists_cons_of_mem hdriver
    obtain ⟨hrest, -⟩ := hmanned.alone hstanding (by simp [Task.driving?])
    rw [hstanding] at hx
    rcases Multiset.mem_cons.mp hx with rfl | hmem
    · simp only [Task.driving?, Option.some.injEq, Prod.mk.injEq] at hdriving
      rw [hdriving.2.1] at hrests
      exact hrests
    · exact absurd (hrest x hmem) (by simp [hdriving])
  have hafter {next : Task} (hnext : View.AfterStore index next)
      (hsame : x.2.driving? = next.driving?) : next.owes index = 0 := by
    rcases hnext with rfl | ⟨s', rfl⟩
    · rfl
    · exact absurd rfl (hsole hsame)
  have hown := horderly.own x hx
  have hallowed := horderly.allowed x hx
  obtain ⟨at', task⟩ := x
  cases task with
  | drive lane next s' =>
    obtain rfl : lane = index := Option.some.inj hown
    exact Task.owes_drive (hsole rfl)
  | attempt lane | answered lane | conclude lane =>
    obtain rfl : lane = index := Option.some.inj hown
    simp [Task.owes, Task.awaited?]
  | storeRecord lane pair next | storeJob lane pair next =>
    obtain rfl : lane = index := Option.some.inj hown
    have hnone : next.owes lane = 0 := hafter hallowed.2 rfl
    exact hnone
  | release lane => rfl
  | collect | serve | idle => rfl

end Track

/-- Invocations of a lane that have yet to publish an outcome. -/
def View.unpublished (v : View) (index : Nat) : Nat :=
  v.standing.countP fun x => x.2.lane? = some index ∧ x.2.awaited?.isSome

theorem View.unpublished_eq (v : View) (index : Nat) (lane : Lane) :
    v.unpublished index =
      (v.track index lane).standing.countP fun x => x.2.awaited?.isSome := by
  rw [View.track, ofLane, Multiset.countP_filter]
  exact Multiset.countP_congr rfl fun x _ => propext and_comm

/-- Outcomes of a lane are left to tasks of the lane. -/
theorem View.Orderly.outstanding_ofLane {v : View} (horderly : v.Orderly) (index : Nat) :
    outstanding index (ofLane index v.standing) = outstanding index v.standing := by
  have hothers : outstanding index (v.standing.filter fun x => ¬x.2.lane? = some index) = 0 := by
    refine Multiset.sum_eq_zero fun owes howes => ?_
    obtain ⟨x, hx, rfl⟩ := Multiset.mem_map.mp howes
    obtain ⟨hmem, hother⟩ := Multiset.mem_filter.mp hx
    have hallowed := horderly.allowed x hmem
    have hne {lane : Nat} (hlane : x.2.lane? = some lane) : lane ≠ index :=
      fun hsame => hother (hsame ▸ hlane)
    obtain ⟨place, task⟩ := x
    cases task with
    | attempt lane | answered lane | conclude lane => simp [Task.owes, hne rfl]
    | drive lane point s => cases point <;> simp [Task.owes, hne rfl]
    | storeRecord lane pair next | storeJob lane pair next =>
      rcases hallowed.2 with rfl | ⟨s, rfl⟩
      · rfl
      · simp [Task.owes, hne rfl]
    | release lane => rfl
    | collect | serve | idle => rfl
  conv_rhs => rw [← Multiset.filter_add_not (fun x => x.2.lane? = some index) v.standing]
  rw [outstanding_add, hothers, Nat.add_zero]
  rfl

/-! ## Drivers in between -/

/-- The accounts of a lane add up whenever its driver is between two slots. -/
theorem Track.Accounts.balance {index : Nat} {plan : Driver.Plan} {t : Track}
    (haccounts : t.Accounts plan index) (horderly : t.Orderly index) {place : Place}
    {point : Driver.Point} {s : Driver.State}
    (hdriver : (place, .drive index point s) ∈ t.standing) (hrests : point.Rests) {lost : Nat}
    (hbalanced : t.issues.length = t.lane.outcomes + outstanding index t.standing + lost) :
    Driver.Balance plan t.lane.counters t.issues
      (t.standing.countP fun x => x.2.awaited?.isSome) lost s := by
  have hnumbered : Driver.Numbered plan point s t.issues :=
    haccounts.numbered.driver _ hdriver index point s rfl
  have hissued : s.issued = t.issues.length :=
    haccounts.manned.counted _ hdriver index point s rfl
  have htaken : point.taken s = s.slot := by
    cases point <;> first | rfl | exact hrests.elim
  have hleft : outstanding index t.standing = t.standing.countP fun x => x.2.awaited?.isSome :=
    outstanding_eq_countP fun _ hx => haccounts.manned.owes_eq horderly hdriver hrests hx
  exact {
    issued := by
      rw [hissued, hbalanced, hleft]
      rfl
    failed := haccounts.filed.sum
    dispatched := fun step => (Nat.le_add_right _ _).trans (haccounts.dispatched step)
    reached := fun step => List.countP_mono_left fun issue _ hissue => by
      simp only [decide_eq_true_eq] at hissue ⊢
      exact hissue.1
    within := hnumbered.within
    slots := by rw [hnumbered.slots, htaken]
    total := by rw [hissued, hnumbered.length_eq_sum] }

/-- Once a driver has waited for its invocations, none of them has yet to publish. -/
theorem Track.Manned.published {index : Nat} {t : Track} (hmanned : t.Manned index)
    {place : Place} {s : Driver.State}
    (hdriver : (place, .drive index .drained s) ∈ t.standing) (hplace : place ≠ .held) :
    t.standing.countP (fun x => x.2.awaited?.isSome) = 0 := by
  have hnone : t.invocations = 0 :=
    hmanned.flight.symm.trans (hmanned.landed place s hdriver hplace)
  refine Multiset.countP_eq_zero.mpr fun x hx hawaits => ?_
  refine Multiset.countP_eq_zero.mp hnone x hx ?_
  obtain ⟨at', task⟩ := x
  cases task <;> simp_all [Task.awaited?, Task.driving?]

/-- A lane that is about to start has nothing to account for. -/
theorem Start.track_accounts (start : Start) (clock : Clock) (index : Nat) :
    (start.track clock index).Accounts start.plan index where
  manned := start.track_manned clock index
  numbered := start.track_upholds clock index (Driver.numbering_begin _ _ _)
  dispatched step := by
    have hnone : (start.track clock index).awaitedIn step = 0 :=
      Multiset.countP_eq_zero.mpr (by simp [track, driver, Task.awaited?])
    rw [hnone]
    exact (start.lane_failedAt step).trans_le (Nat.zero_le _)
  filed :=
    { files := by simp [track, lane, Counters.zero]
      failed := by simp [track, lane, Counters.zero]
      inTrace := by simp [track, driver, Task.awaited?] }

namespace Founded

variable {w u : World} {starts : List Start} {place : Nat} {start : Start} {tasks : List Task}

theorem balanced_startAll (hfounded : Founded w) (hstart : starts[place]? = some start) :
    (w.startAll starts).view.Balanced (w.lanes.length + place) 0 := by
  obtain ⟨hfounded', -, hnew⟩ := hfounded.startAll starts
  obtain ⟨hlane, htrack⟩ := hnew place start hstart
  have hissues : (w.startAll starts).view.issuesOf (w.lanes.length + place) = [] :=
    congrArg Track.issues htrack
  have hstanding : ofLane (w.lanes.length + place) (w.startAll starts).view.standing =
      {(.ready, start.driver w.clock (w.lanes.length + place))} := congrArg Track.standing htrack
  rw [View.Balanced, hissues, View.outcomes, hlane, ← hfounded'.orderly.outstanding_ofLane,
    hstanding]
  rfl

/-- Whatever order tasks have their turns in, the accounts of a running driver add up
whenever it is between two slots.  When it has waited for its invocations none of them has
yet to publish its outcome. -/
theorem accounts_balance (hfounded : Founded w) (hstart : starts[place]? = some start)
    (hruns : (w.startAll starts).Runs tasks u) {stands : Place} {point : Driver.Point}
    {s : Driver.State}
    (hdriver : (stands, .drive (w.lanes.length + place) point s) ∈ u.view.standing)
    (hrests : point.Rests) :
    ∃ lane, u.lanes[w.lanes.length + place]? = some lane ∧
      Driver.Balance start.plan lane.counters (u.view.issuesOf (w.lanes.length + place))
        (u.view.unpublished (w.lanes.length + place))
        (tasks.countP (·.panics (w.lanes.length + place))) s ∧
      (point = .drained → stands ≠ .held →
        u.view.unpublished (w.lanes.length + place) = 0) := by
  obtain ⟨hfounded', -, hnew⟩ := hfounded.startAll starts
  obtain ⟨hlane, htrack⟩ := hnew place start hstart
  obtain ⟨lane, hlane', haccounts⟩ : u.HasTrack (w.lanes.length + place)
      (Track.Accounts start.plan (w.lanes.length + place)) :=
    hfounded'.toSound.hasTrack_runs Track.accounts_lasting
      ⟨_, hlane, htrack ▸ start.track_accounts _ _⟩ hruns
  obtain ⟨hsound, -⟩ := hfounded'.toSound.runs (P := fun _ _ => True) trivial
    (fun _ _ _ => trivial) (fun _ _ _ => trivial) hruns
  have hbalanced := hfounded'.toSound.balanced_runs (hfounded.balanced_startAll hstart) hruns
  rw [View.Balanced, View.outcomes, hlane', ← hsound.orderly.outstanding_ofLane] at hbalanced
  obtain ⟨own, hown, rfl⟩ := Option.map_eq_some_iff.mp hlane'
  have hmem := mem_ofLane.mpr ⟨hdriver, rfl⟩
  refine ⟨own, hown, ?_, ?_⟩
  · rw [View.unpublished_eq _ _ own.unparked]
    exact haccounts.balance (hsound.orderly.track _ _) hmem hrests hbalanced
  · rintro rfl hplace
    rw [View.unpublished_eq _ _ own.unparked]
    exact haccounts.manned.published hmem hplace

end Founded

/-! ## A slot that is lost -/

/-- A trace with one slot, whose invocation panics. -/
def Start.onePanic : Start :=
  { Start.oneSlot with context := { invoker := .scripted fun _ => { panics := true } } }

/-- When the driver has its first turn late, its slot is due at once. -/
theorem runs_onePanic_due : ∃ now gap,
    (({} : World).startAll [.onePanic]).Runs [Start.onePanic.driver {} 0]
      { ({} : World).startAll [.onePanic] with
        clock := { now := now }
        ready := [.drive 0 (.due gap)
          (Driver.begin Start.onePanic.plan Start.onePanic.specification {})] } := by
  set w : World := ({} : World).startAll [.onePanic]
  set s := Driver.begin Start.onePanic.plan Start.onePanic.specification {}
  have hgap : s.specification.gap? s.step s.slot = some 250 := rfl
  -- The driver may be as late as it takes, so the gap need not be evaluated.
  generalize hrounded : Binary64.toInt64Range 250 = gap
  have hlate : ¬0 < Driver.waitFor { now := gap.toNat } s gap := by
    have hwait : Driver.waitFor { now := gap.toNat } s gap =
      gap - (((gap.toNat - 0) * 1000 : Nat) - 0) := rfl
    omega
  have hturn : Driver.turn Start.onePanic.lane.plan { now := gap.toNat }
      Start.onePanic.lane.counters .head s =
        { state := s, counters := Start.onePanic.lane.counters, move := .proceed (.due gap) } := by
    rw [Driver.turn, Driver.atHead, if_neg (by decide), if_neg (by decide)]
    simp only [hgap, hrounded, if_neg hlate]
  have hdrive : World.drive { w with clock := { now := gap.toNat }, ready := [] } 0 .head s =
      { w with clock := { now := gap.toNat }, ready := [.drive 0 (.due gap) s] } := by
    have hlane : World.lane? { w with clock := { now := gap.toNat }, ready := [] } 0 =
      some Start.onePanic.lane := rfl
    simp only [World.drive, hlane]
    rw [hturn]
    rfl
  have hpassed : w.Runs [] { w with clock := { now := gap.toNat } } :=
    World.Runs.start.shift (.pass (Nat.zero_le _) fun _ htimer => absurd htimer List.not_mem_nil)
  have hhead := hpassed.turn (.refl [Task.drive 0 .head s])
  exact ⟨gap.toNat, gap, hdrive ▸ hhead⟩

/-- The invocation panics before the driver goes on. -/
theorem runs_onePanic : ∃ tasks u s, (({} : World).startAll [.onePanic]).Runs tasks u ∧
    u.ready = [.drive 0 .drained s] ∧ tasks.countP (·.panics 0) = 1 := by
  obtain ⟨now, gap, hdue⟩ := runs_onePanic_due
  have hissued := hdue.turn (.refl _)
  have hattempted := hissued.turn (.swap _ _ _)
  have hpanicked := hattempted.turn (.refl _)
  have hyields := hpanicked.turn (.swap _ _ _)
  have hreleased := (hyields.turn (.refl _)).shift .rouse
  have hchecked := hreleased.turn (.refl _)
  have hended := hchecked.turn (.refl _)
  exact ⟨_, _, _, hended, rfl, rfl⟩

theorem accounts_balance_onePanic :
    ∃ tasks u s lane, (({} : World).startAll [.onePanic]).Runs tasks u ∧
      (.ready, .drive 0 .drained s) ∈ u.view.standing ∧ u.lanes[0]? = some lane ∧
      Driver.Balance Start.onePanic.plan lane.counters (u.view.issuesOf 0) 0 1 s := by
  have hstart : [Start.onePanic][0]? = some .onePanic := rfl
  obtain ⟨tasks, u, s, hruns, hready, hpanics⟩ := runs_onePanic
  have hdriver : (.ready, .drive 0 .drained s) ∈ u.view.standing := Sound.mem_of_ready hready rfl
  obtain ⟨lane, hlane, hbalance, hpublished⟩ :=
    Unmanned.empty.toFounded.accounts_balance hstart hruns hdriver trivial
  refine ⟨tasks, u, s, lane, hruns, hdriver, hlane, ?_⟩
  rw [hpublished rfl (by simp), Nat.add_zero] at hbalance
  exact hpanics ▸ hbalance

end Replay
end TraceReplay
