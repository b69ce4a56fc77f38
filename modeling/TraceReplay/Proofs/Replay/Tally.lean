import TraceReplay.Proofs.Replay.Manned

/-!
# Failures of a lane

Every failure that is counted in a step comes from a slot that was fired in the step,
and no slot fails twice: what has failed and what may still fail is at most what has
been issued.
-/

namespace TraceReplay.Replay

/-- The step of an invocation whose outcome is not counted yet. -/
def Task.awaited? : Task → Option Nat
  | .attempt _ dispatch => some dispatch.step
  | .answered _ dispatch _ _ => some dispatch.step
  | .conclude _ dispatch _ => some dispatch.step
  | .drive .. => none
  | .storeRecord .. => none
  | .storeJob .. => none
  | .release _ => none
  | .collect => none
  | .serve => none
  | .idle => none

namespace Track

/-- Slots of a step that were issued. -/
def issuedIn (t : Track) (step : Nat) : Nat := t.issues.countP (·.step = step)

/-- Invocations of a step whose outcomes are not counted yet. -/
def awaitedIn (t : Track) (step : Nat) : Nat :=
  t.standing.countP fun x => x.2.awaited? = some step

def Tallied (t : Track) : Prop :=
  ∀ step, t.lane.counters.failedAt step + t.awaitedIn step ≤ t.issuedIn step

/-- No more have failed or may still fail than there are issued slots of a kind. -/
def TalliedBy (counts : Nat → Driver.Issue → Bool) (t : Track) : Prop :=
  ∀ step, t.lane.counters.failedAt step + t.awaitedIn step ≤ t.issues.countP (counts step)

end Track

theorem failedAt_congr {c c' : Counters} (hsame : c'.failedByStep = c.failedByStep) (step : Nat) :
    c'.failedAt step = c.failedAt step := by
  rw [Counters.failedAt, Counters.failedAt, hsame]

/-- A failure is counted in one step at most. -/
theorem failedAt_recordFailure_le (c : Counters) (failed step : Nat) :
    (c.recordFailure failed).failedAt step ≤ c.failedAt step + if failed = step then 1 else 0 := by
  simp only [Counters.failedAt, Counters.recordFailure, List.getD_eq_getElem?_getD,
    List.getElem?_modify]
  by_cases heq : failed = step
  · subst heq
    cases c.failedByStep[failed]? <;> simp
  · simp [heq]

theorem failedAt_count_le (dispatch : Dispatch) (outcome : Outcome) (c : Counters) (step : Nat) :
    (dispatch.count outcome c).failedAt step ≤
      c.failedAt step + if dispatch.step = step then 1 else 0 := by
  unfold Dispatch.count
  split
  · exact Nat.le_add_right _ _
  · exact failedAt_recordFailure_le c dispatch.step step

/-- Tasks that deliver records await nothing, nor does what comes after them. -/
theorem Track.Delivers.awaited? {task : Task} {x : Place × Task} (hdelivers : Delivers task x)
    {place : Place} (hallowed : View.Allowed place task) : x.2.awaited? = none := by
  cases hdelivers with
  | record => rfl
  | job => rcases hallowed.2 with rfl | ⟨s, rfl⟩ <;> rfl
  | lost => rcases hallowed.2 with rfl | ⟨s, rfl⟩ <;> rfl
  | waits hstore =>
    cases task with
    | storeRecord => rfl
    | storeJob => rfl
    | _ => exact absurd hstore (by simp [View.isStore])

theorem View.Proceeds.awaited? {clock : Clock} {index : Nat} {lane : Lane} {task : Task}
    {x : Place × Task} (hproceeds : View.Proceeds clock index lane task x) :
    x.2.awaited? = task.awaited? := by
  cases hproceeds <;> rfl

namespace Track

variable {index : Nat} {t : Track}

theorem awaitedIn_cons {x : Place × Task} {rest : Standing} (hstanding : t.standing = x ::ₘ rest)
    (step : Nat) :
    t.awaitedIn step = rest.countP (fun x => x.2.awaited? = some step) +
      if x.2.awaited? = some step then 1 else 0 := by
  rw [awaitedIn, hstanding, Multiset.countP_cons]

section TalliedBy

variable {counts : Nat → Driver.Issue → Bool}

/-- A task may take the place of another that awaits the same, or that awaited something. -/
theorem TalliedBy.replace (htallied : t.TalliedBy counts) {x y : Place × Task} {rest : Standing}
    (hstanding : t.standing = x ::ₘ rest)
    (hawaited : y.2.awaited? = x.2.awaited? ∨ y.2.awaited? = none) :
    TalliedBy counts { t with standing := y ::ₘ rest } := by
  intro step
  have hle := htallied step
  rw [awaitedIn_cons hstanding] at hle
  rw [awaitedIn_cons (x := y) rfl]
  rcases hawaited with hsame | hnone
  · rw [hsame]
    exact hle
  · rw [hnone, if_neg (by simp)]
    exact le_trans (by simp only [Nat.add_zero]; omega) hle

theorem awaitedIn_add (t : Track) (place : Place) (task : Task) (step : Nat) :
    (t.add place task).awaitedIn step =
      t.awaitedIn step + if task.awaited? = some step then 1 else 0 :=
  Multiset.countP_cons _ _ _

theorem awaitedIn_move (index : Nat) (s : Driver.State) (move : Driver.Move) (step : Nat)
    (hlaunch : ∀ dispatch next, move ≠ .launch dispatch next) :
    (t.move index s move).awaitedIn step = t.awaitedIn step := by
  cases move with
  | launch dispatch next => exact absurd rfl (hlaunch dispatch next)
  | finish report => rfl
  | fail error => rfl
  | _ => exact (awaitedIn_add _ _ _ _).trans (by simp [Task.awaited?])

theorem awaitedIn_launch (index : Nat) (s : Driver.State) (dispatch : Dispatch)
    (next : Driver.Point) (step : Nat) :
    (t.move index s (.launch dispatch next)).awaitedIn step =
      t.awaitedIn step + if dispatch.step = step then 1 else 0 := by
  simp only [move, awaitedIn_add, Task.awaited?, Option.some.injEq, reduceCtorEq, if_false,
    Nat.add_zero]
  rfl

/-- Only slots that were fired can fail, so it is enough to count those in their steps. -/
theorem TalliedBy.step (hcounts : ∀ issue, issue.dispatch.isSome → counts issue.step issue = true)
    (htallied : t.TalliedBy counts) (horderly : t.Orderly index) {t' : Track} {own : Bool}
    (hstep : t.Step index own t') : t'.TalliedBy counts := by
  cases hstep with
  | @drive _ point s rest hstanding =>
    intro step
    have hle := htallied step
    rw [awaitedIn_cons hstanding, if_neg (by simp [Task.awaited?]), Nat.add_zero] at hle
    have hcounters := failedAt_congr
      (Driver.turn_failedByStep t.lane.plan t.clock t.lane.counters point s) step
    simp only [Track.drive, move_counters, move_issues, hcounters]
    rcases Driver.turn_issue_cases t.lane.plan t.clock t.lane.counters point s with
      ⟨hissue, hlaunch, -⟩ | ⟨due, dispatch, hissue, hmove, hfires⟩ | ⟨due, hissue, hmove⟩
    · rw [awaitedIn_move _ _ _ _ hlaunch, hissue, Option.toList_none, List.append_nil]
      exact hle
    · rw [hmove, awaitedIn_launch, hissue, List.countP_append, hfires.step, ← Nat.add_assoc]
      refine Nat.add_le_add hle ?_
      split
      · rename_i hsame
        subst hsame
        have hfired : counts due.step (Driver.issueOf t.lane.plan t.clock due (some dispatch)) :=
          hcounts (Driver.issueOf t.lane.plan t.clock due (some dispatch)) rfl
        simp [hfired]
      · exact Nat.zero_le _
    · rw [hmove, awaitedIn_move _ _ _ _ (by simp), List.countP_append]
      exact hle.trans (Nat.le_add_right _ _)
  | proceed hstanding hproceeds => exact htallied.replace hstanding (.inl hproceeds.awaited?)
  | answer hstanding => exact htallied.replace hstanding (.inl rfl)
  | panic hstanding => exact htallied.replace hstanding (.inr rfl)
  | @publish _ dispatch outcome rest hstanding =>
    intro step
    have hle := htallied step
    have hcount := failedAt_count_le dispatch outcome t.lane.counters step
    rw [awaitedIn_cons hstanding] at hle
    rw [awaitedIn_cons rfl, if_neg (by simp [Task.awaited?]), Nat.add_zero]
    change _ + (_ + if some dispatch.step = some step then 1 else 0) ≤ _ at hle
    simp only [Option.some.injEq] at hle
    exact le_trans (by simp only; omega) hle
  | deliver hstanding _ hdelivers =>
    exact htallied.replace hstanding (.inr (hdelivers.awaited? (horderly.first hstanding).1))
  | release hstanding =>
    intro step
    have hle := htallied step
    rwa [awaitedIn_cons hstanding, if_neg (by simp [Task.awaited?])] at hle
  | resume hstanding =>
    intro step
    have hle := htallied step
    rw [awaitedIn_cons hstanding, if_neg (by simp [Task.awaited?]), Multiset.countP_cons,
      if_neg (by simp [Task.awaited?])] at hle
    rwa [awaitedIn_cons rfl, if_neg (by simp [Task.awaited?])]
  | rouse =>
    intro step
    rw [awaitedIn, View.countP_map_task View.rouse_task (fun task => task.awaited? = some step)]
    exact htallied step
  | tick =>
    intro step
    rw [awaitedIn,
      View.countP_map_task (View.wakeAt_task _) (fun task => task.awaited? = some step)]
    exact htallied step

end TalliedBy

theorem Tallied.step (htallied : t.Tallied) (horderly : t.Orderly index) {t' : Track}
    {own : Bool} (hstep : t.Step index own t') : t'.Tallied := by
  have hcounted : t.TalliedBy fun step issue => issue.step = step := htallied
  exact hcounted.step (by simp) horderly hstep

end Track
end TraceReplay.Replay
