import TraceReplay.Proofs.Driver.Content

/-!
# Invariants of drivers

An invariant of a driver is a property of its state and of what it has issued so far that
every turn keeps, whatever the clock and the counters say.  Here are those that do not
depend on the schedule: slots are issued in order, the phase is that of the step, and the
specification is the given one with the statistics of the slots that were dispatched.
-/

namespace TraceReplay

namespace Driver

/-- What every turn of a driver keeps, wherever the driver goes on. -/
structure Invariant (plan : Plan) where
  holds : Point → State → List Issue → Prop
  turn : ∀ (clock : Clock) (counters : Counters) {point : Point} {s : State} {issues : List Issue},
    holds point s issues →
      (turn plan clock counters point s).move.Arrives clock fun _ next =>
        holds next (turn plan clock counters point s).state
          (issues ++ (turn plan clock counters point s).issue.toList)

/-- What holds of the state after a turn holds wherever the driver goes on. -/
theorem Move.Arrives.of_forall {clock : Clock} {holds : Nat → Point → Prop}
    (hall : ∀ time next, holds time next) (move : Move) : move.Arrives clock holds := by
  cases move <;> first | exact hall _ _ | exact fun _ => hall _ _ | trivial

/-- A driver that has ended has issued nothing in its last turn. -/
theorem turn_issue_of_ended (plan : Plan) (clock : Clock) (counters : Counters) (point : Point)
    (s : State)
    (hended : (∃ r, (turn plan clock counters point s).move = .finish r) ∨
      ∃ error, (turn plan clock counters point s).move = .fail error) :
    (turn plan clock counters point s).issue = none := by
  rcases turn_issue_cases plan clock counters point s with
    ⟨hnone, -⟩ | ⟨_, _, -, hlaunch, -⟩ | ⟨_, -, hdeliver⟩
  · exact hnone
  · rcases hended with ⟨_, hmove⟩ | ⟨_, hmove⟩ <;> simp [hlaunch] at hmove
  · rcases hended with ⟨_, hmove⟩ | ⟨_, hmove⟩ <;> simp [hdeliver] at hmove

variable {plan : Plan} {clock : Clock} {counters : Counters} {s : State}

/-! ## The order of the slots -/

/-- Steps count before slots. -/
def Issue.position (issue : Issue) : ℕ ×ₗ ℕ := toLex (issue.step, issue.slot)

/-- The position of the slot that a driver issues next in its step. -/
def Point.ahead (point : Point) (s : State) : ℕ ×ₗ ℕ :=
  match point with
  | .stored => toLex (s.step, s.slot + 1)
  | .advance => toLex (s.step, s.slot + 1)
  | _ => toLex (s.step, s.slot)

theorem position_lt_succ_slot (step slot : Nat) :
    (toLex (step, slot) : ℕ ×ₗ ℕ) < toLex (step, slot + 1) :=
  Prod.Lex.toLex_lt_toLex.mpr (.inr ⟨rfl, Nat.lt_succ_self slot⟩)

theorem position_lt_succ_step (step slot : Nat) :
    (toLex (step, slot) : ℕ ×ₗ ℕ) < toLex (step + 1, 0) :=
  Prod.Lex.toLex_lt_toLex.mpr (.inl (Nat.lt_succ_self step))

theorem endStep_ahead (plan : Plan) (clock : Clock) (counters : Counters) (s : State)
    (wasEmpty : Bool) (onward : Move) (next : Point)
    (honward : next = .drained ∨ next = .head) :
    (toLex (s.step, s.slot) : ℕ ×ₗ ℕ) ≤
      next.ahead (endStep plan clock counters s wasEmpty onward).state := by
  have hahead (s : State) : next.ahead s = toLex (s.step, s.slot) := by
    rcases honward with rfl | rfl <;> rfl
  rw [hahead]
  rcases endStep_cases plan clock counters s wasEmpty onward with
    ⟨_, _, -, hend⟩ | ⟨_, -, hend⟩ | ⟨_, _, -, hend⟩ <;> rw [hend]
  rw [nextStep_state]
  exact (position_lt_succ_step _ _).le

/-- Wherever a driver goes on, it does not go back. -/
theorem ahead_turn (plan : Plan) (clock : Clock) (counters : Counters) (point : Point)
    (s : State) :
    (turn plan clock counters point s).move.Arrives clock fun _ next =>
      point.ahead s ≤ next.ahead (turn plan clock counters point s).state := by
  cases point with
  | head =>
    rcases atHead_cases plan clock counters s with
      ⟨-, hturn⟩ | ⟨-, -, hturn⟩ | ⟨-, -, -, hturn⟩ | ⟨gap, -, -, -, hturn⟩ <;>
      simp only [turn, hturn]
    · exact fun _ => le_rfl
    · have hends := endStep_ahead plan clock counters s true
        (.sleep (plan.configuration.granularity.unitMs * 1000) .head)
      rcases endStep_cases plan clock counters s true
          (.sleep (plan.configuration.granularity.unitMs * 1000) .head) with
        ⟨_, _, -, hend⟩ | ⟨_, -, hend⟩ | ⟨_, _, -, hend⟩ <;> rw [hend] at hends ⊢
      · trivial
      · exact fun _ => hends _ (.inl rfl)
      · exact hends _ (.inr rfl)
    · trivial
    · split <;> exact le_rfl
  | due gap =>
    rcases issueSlot_cases plan clock counters
        { s with nominal := s.nominal + gap, issued := s.issued + 1 } with
      ⟨_, _, hturn, -⟩ | ⟨_, _, _, hturn, -⟩ | ⟨_, hturn⟩ <;> simp only [turn, hturn]
    · trivial
    · exact (position_lt_succ_slot _ _).le
    · exact (position_lt_succ_slot _ _).le
  | stored => exact le_rfl
  | advance =>
    simp only [turn]
    split <;> exact le_rfl
  | check =>
    have hends := endStep_ahead plan clock counters s false (.proceed .head)
    simp only [turn]
    rcases endStep_cases plan clock counters s false (.proceed .head) with
      ⟨_, _, -, hend⟩ | ⟨_, -, hend⟩ | ⟨_, _, -, hend⟩ <;> rw [hend] at hends ⊢
    · trivial
    · exact fun _ => hends _ (.inl rfl)
    · exact hends _ (.inr rfl)
  | drained => trivial

/-- The slot that is issued is the one ahead, and is behind from then on. -/
theorem position_turn {point : Point} {issue : Issue}
    (hissue : (turn plan clock counters point s).issue = some issue) :
    issue.position = point.ahead s ∧
      (turn plan clock counters point s).move.Arrives clock fun _ next =>
        issue.position < next.ahead (turn plan clock counters point s).state := by
  cases point with
  | due gap =>
    rcases issueSlot_cases plan clock counters
        { s with nominal := s.nominal + gap, issued := s.issued + 1 } with
      ⟨_, _, hturn, -⟩ | ⟨_, _, _, hturn, -⟩ | ⟨_, hturn⟩ <;>
      simp only [turn, hturn, reduceCtorEq, Option.some.injEq] at hissue ⊢
    · subst hissue
      exact ⟨rfl, position_lt_succ_slot _ _⟩
    · subst hissue
      exact ⟨rfl, position_lt_succ_slot _ _⟩
  | head =>
    rcases atHead_cases plan clock counters s with
      ⟨-, hturn⟩ | ⟨-, -, hturn⟩ | ⟨-, -, -, hturn⟩ | ⟨gap, -, -, -, hturn⟩ <;>
      simp [turn, hturn] at hissue
  | check => simp [turn] at hissue
  | stored | advance | drained => simp [turn] at hissue

/-- Slots are issued in order, none of them twice. -/
def ascending (plan : Plan) : Invariant plan where
  holds point s issues := (issues.map Issue.position).Pairwise (· < ·) ∧
    ∀ issue ∈ issues, issue.position < point.ahead s
  turn clock counters := by
    rintro point s issues ⟨hsorted, hbehind⟩
    cases hissue : (Driver.turn plan clock counters point s).issue with
    | none =>
      refine (ahead_turn plan clock counters point s).mono fun _ next hahead => ?_
      rw [Option.toList_none, List.append_nil]
      exact ⟨hsorted, fun issue hmem => (hbehind issue hmem).trans_le hahead⟩
    | some last =>
      obtain ⟨hposition, hlast⟩ := position_turn hissue
      refine hlast.mono fun _ next hlast => ?_
      have hbefore : ∀ issue ∈ issues, issue.position < last.position :=
        fun issue hmem => hposition ▸ hbehind issue hmem
      rw [Option.toList_some, List.map_append, List.pairwise_append]
      refine ⟨⟨hsorted, List.pairwise_singleton _ _, ?_⟩, ?_⟩
      · simpa using hbefore
      · simpa [or_imp, forall_and] using
          ⟨fun issue hmem => (hbefore issue hmem).trans hlast, hlast⟩

/-! ## Steps and phases -/

/-- The step of a driver does not go back, and the phase is that of the step on every path to
the next one. -/
structure State.Follows (plan : Plan) (before s : State) : Prop where
  step : before.step ≤ s.step
  phase : before.phase = plan.phaseOf before.step → s.phase = plan.phaseOf s.step

theorem State.Follows.of_same {before : State} (hstep : s.step = before.step)
    (hphase : s.phase = before.phase) : State.Follows plan before s where
  step := hstep.ge
  phase hbefore := by rw [hphase, hstep, hbefore]

theorem endStep_follows (plan : Plan) (clock : Clock) (counters : Counters) (s : State)
    (wasEmpty : Bool) (onward : Move) :
    State.Follows plan s (endStep plan clock counters s wasEmpty onward).state := by
  rcases endStep_cases plan clock counters s wasEmpty onward with
    ⟨_, _, -, hend⟩ | ⟨_, -, hend⟩ | ⟨_, _, -, hend⟩ <;> rw [hend]
  · exact .of_same rfl rfl
  · exact .of_same rfl rfl
  · rw [nextStep_state]
    refine ⟨Nat.le_succ _, fun hphase => ?_⟩
    rw [Plan.phaseOf_succ, hphase]

theorem turn_follows (plan : Plan) (clock : Clock) (counters : Counters) (point : Point)
    (s : State) : State.Follows plan s (turn plan clock counters point s).state := by
  cases point with
  | head =>
    rcases atHead_cases plan clock counters s with
      ⟨-, hturn⟩ | ⟨-, -, hturn⟩ | ⟨-, -, -, hturn⟩ | ⟨gap, -, -, -, hturn⟩ <;>
      simp only [turn, hturn]
    · exact .of_same rfl rfl
    · exact endStep_follows plan clock counters s _ _
    · exact .of_same rfl rfl
    · exact .of_same rfl rfl
  | due gap =>
    rcases issueSlot_cases plan clock counters
        { s with nominal := s.nominal + gap, issued := s.issued + 1 } with
      ⟨_, _, hturn, -⟩ | ⟨_, _, _, hturn, -⟩ | ⟨_, hturn⟩ <;> simp only [turn, hturn] <;>
      exact .of_same rfl rfl
  | stored => exact .of_same rfl rfl
  | advance => exact .of_same rfl rfl
  | check => exact endStep_follows plan clock counters s _ _
  | drained => exact .of_same rfl rfl

/-- No step before `first` is gone back to. -/
def onward (plan : Plan) (first : Nat) : Invariant plan where
  holds _ s _ := first ≤ s.step
  turn clock counters {point s _} hfirst := Move.Arrives.of_forall
    (fun _ _ => hfirst.trans (turn_follows plan clock counters point s).step) _

theorem step_of_turn_issue {point : Point} {issue : Issue}
    (hissue : (turn plan clock counters point s).issue = some issue) : issue.step = s.step := by
  have hposition := (position_turn hissue).1
  cases point <;> exact congrArg (fun position => (ofLex position).1) hposition

/-- The phase is that of the step, and with warmup the first step is left out. -/
def phased (plan : Plan) : Invariant plan where
  holds _ s issues := s.phase = plan.phaseOf s.step ∧
    (plan.configuration.withWarmup → 1 ≤ s.step ∧ ∀ issue ∈ issues, 1 ≤ issue.step)
  turn clock counters := by
    rintro point s issues ⟨hphase, hwarmup⟩
    obtain ⟨hstep, hnext⟩ := turn_follows plan clock counters point s
    refine Move.Arrives.of_forall (fun _ _ => ⟨hnext hphase, fun hwith => ?_⟩) _
    obtain ⟨hone, hall⟩ := hwarmup hwith
    refine ⟨hone.trans hstep, fun issue hmem => ?_⟩
    rcases List.mem_append.mp hmem with hold | hnew
    · exact hall issue hold
    · rw [step_of_turn_issue (Option.mem_toList.mp hnew)]
      exact hone

/-- When a driver begins its phase is that of its first step. -/
theorem phased_begin (plan : Plan) (specification : Specification) (clock : Clock) :
    (phased plan).holds .head (begin plan specification clock) [] := by
  refine ⟨(Plan.hasRest_begin plan specification clock).phase, fun hwith => ?_⟩
  rw [begin, if_pos hwith]
  exact ⟨le_rfl, by simp⟩

end Driver

/-! ## Statistics -/

/-- The specification once a slot of a function has been issued: a slot that goes to the
invoker is given the statistics the function has for it. -/
def Specification.annotated (f : Function) (specification : Specification)
    (issue : Driver.Issue) : Specification :=
  match issue.dispatch, Driver.modeStats f issue.number with
  | some _, some stats => specification.attach issue.step issue.slot stats
  | _, _ => specification

namespace Driver

variable {plan : Plan} {clock : Clock} {counters : Counters} {s : State}

theorem issueSlot_specification (plan : Plan) (clock : Clock) (counters : Counters) (s : State) :
    (issueSlot plan clock counters s).state.specification =
      (issueSlot plan clock counters s).issue.toList.foldl
        (Specification.annotated plan.function) s.specification := by
  unfold issueSlot
  simp only
  split
  · rfl
  · split
    · rfl
    · unfold fire
      split
      · rfl
      · cases hstats : modeStats plan.function s.issued with
        | none => simp [Specification.annotated, issueOf, hstats]
        | some stats => simp [Specification.annotated, issueOf, hstats]
  · rfl

/-- A turn writes into the specification only what the slot it issues is given. -/
theorem turn_specification (plan : Plan) (clock : Clock) (counters : Counters) (point : Point)
    (s : State) :
    (turn plan clock counters point s).state.specification =
      (turn plan clock counters point s).issue.toList.foldl
        (Specification.annotated plan.function) s.specification := by
  cases point with
  | head =>
    rcases atHead_cases plan clock counters s with
      ⟨-, hturn⟩ | ⟨-, -, hturn⟩ | ⟨-, -, -, hturn⟩ | ⟨gap, -, -, -, hturn⟩ <;>
      simp only [turn, hturn, endStep_issue, endStep_specification] <;> rfl
  | due gap => exact issueSlot_specification plan clock counters _
  | stored => rfl
  | advance => rfl
  | check =>
    simp only [turn, endStep_issue, endStep_specification]
    rfl
  | drained => rfl

/-- The specification is the given one with the statistics of what was issued. -/
def annotating (plan : Plan) (given : Specification) : Invariant plan where
  holds _ s issues :=
    s.specification = issues.foldl (Specification.annotated plan.function) given
  turn clock counters := by
    intro point s issues hspecification
    refine Move.Arrives.of_forall (fun _ _ => ?_) _
    rw [List.foldl_append, ← hspecification]
    exact turn_specification plan clock counters point s

end Driver
end TraceReplay
