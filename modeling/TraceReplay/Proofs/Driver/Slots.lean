import TraceReplay.Proofs.Driver.Effort
import TraceReplay.Proofs.Driver.Invariant

/-!
# The slots of a step

What a driver has issued in its step are the first slots of the step, none left out, and
of no step does it issue more slots than its trace requests.  Neither takes the checks, the
clock or the specification: a driver that goes on has looked at the slot it is at.
-/

namespace TraceReplay.Driver

/-- Slots of its step that a driver has issued. -/
def Point.taken (point : Point) (s : State) : Nat :=
  match point with
  | .stored => s.slot + 1
  | .advance => s.slot + 1
  | _ => s.slot

/-- Only at the head of its loop and at its end a driver may be past its trace. -/
def InTrace (plan : Plan) (point : Point) (s : State) : Prop :=
  match point with
  | .head => True
  | .drained => True
  | _ => s.step < plan.configuration.traceDuration

/-- A turn leaves a driver where it is in its trace, issues the slot it is at, or takes it to
the next step. -/
inductive Progress (plan : Plan) (point : Point) (s : State) : Option Issue → Point → State → Prop
  | stays {next s'} (hstep : s'.step = s.step) (htaken : next.taken s' = point.taken s)
      (htrace : InTrace plan point s → InTrace plan next s') :
      Progress plan point s none next s'
  | issues {issue next s'} (hpoint : ∃ gap, point = .due gap)
      (hissue : issue.step = s.step ∧ issue.slot = s.slot)
      (hstep : s'.step = s.step) (htaken : next.taken s' = s.slot + 1)
      (htrace : InTrace plan point s → InTrace plan next s') :
      Progress plan point s (some issue) next s'
  | enters {s'} (hstep : s'.step = s.step + 1) (hslot : s'.slot = 0) :
      Progress plan point s none .head s'

theorem Move.Arrives.and {clock : Clock} {holds more : Nat → Point → Prop} {move : Move}
    (hholds : move.Arrives clock holds) (hmore : move.Arrives clock more) :
    move.Arrives clock fun time next => holds time next ∧ more time next := by
  cases move with
  | await next => exact fun time => ⟨hholds time, hmore time⟩
  | finish | fail => trivial
  | _ => exact ⟨hholds, hmore⟩

section Turns

variable {plan : Plan} {clock : Clock} {counters : Counters} {point : Point} {s : State}

/-- At the end of a step a driver waits for its invocations or goes on to the next step. -/
theorem endStep_progress {wasEmpty : Bool} {onward : Move} (htaken : point.taken s = s.slot)
    (honward : ∀ holds : Nat → Point → Prop, (∀ time, holds time .head) →
      onward.Arrives clock holds) :
    (endStep plan clock counters s wasEmpty onward).move.Arrives clock fun _ next =>
      Progress plan point s none next (endStep plan clock counters s wasEmpty onward).state := by
  rcases endStep_cases plan clock counters s wasEmpty onward with
    ⟨_, _, -, hend⟩ | ⟨_, -, hend⟩ | ⟨_, _, -, hend⟩ <;> rw [hend]
  · trivial
  · exact fun _ => .stays rfl htaken.symm fun _ => trivial
  · refine honward _ fun _ => ?_
    rw [nextStep_state]
    exact .enters rfl rfl

theorem turn_progress (plan : Plan) (clock : Clock) (counters : Counters) (point : Point)
    (s : State) :
    (turn plan clock counters point s).move.Arrives clock fun _ next =>
      Progress plan point s (turn plan clock counters point s).issue next
        (turn plan clock counters point s).state := by
  cases point with
  | head =>
    rcases atHead_cases plan clock counters s with
      ⟨-, hturn⟩ | ⟨-, -, hturn⟩ | ⟨-, -, -, hturn⟩ | ⟨gap, hstep, -, -, hturn⟩ <;>
      simp only [turn, hturn]
    · exact fun _ => .stays rfl rfl fun _ => trivial
    · rw [endStep_issue]
      exact endStep_progress rfl fun _ hholds => hholds _
    · trivial
    · split <;> exact .stays rfl rfl fun _ => hstep
  | due gap =>
    rcases issueSlot_cases plan clock counters
        { s with nominal := s.nominal + gap, issued := s.issued + 1 } with
      ⟨_, _, hturn, -⟩ | ⟨_, _, _, hturn, -⟩ | ⟨_, hturn⟩ <;> simp only [turn, hturn]
    · trivial
    · exact .issues ⟨gap, rfl⟩ ⟨rfl, rfl⟩ rfl rfl id
    · exact .issues ⟨gap, rfl⟩ ⟨rfl, rfl⟩ rfl rfl id
  | stored => exact .stays rfl rfl id
  | advance =>
    simp only [turn]
    split
    · exact .stays rfl rfl id
    · exact .stays rfl rfl fun _ => trivial
  | check =>
    simp only [turn, endStep_issue]
    exact endStep_progress rfl fun _ hholds => hholds _
  | drained => trivial

end Turns

/-- What a driver has issued are the slots of its trace, up to where it is. -/
structure Numbered (plan : Plan) (point : Point) (s : State) (issues : List Issue) : Prop where
  inStep : InStep plan point s
  inTrace : InTrace plan point s
  /-- No slot of a step to come is issued. -/
  behind : ∀ issue ∈ issues, issue.step ≤ s.step
  slots : (issues.filter (·.step = s.step)).map (·.slot) = List.range (point.taken s)
  within : ∀ step, issues.countP (·.step = step) ≤ plan.function.invocationsAt step

namespace Numbered

variable {plan : Plan} {point next : Point} {s s' : State} {issues : List Issue}

theorem length_filter (hnumbered : Numbered plan point s issues) :
    issues.countP (·.step = s.step) = point.taken s := by
  have hlength := congrArg List.length hnumbered.slots
  rwa [List.length_map, List.length_range, ← List.countP_eq_length_filter] at hlength

theorem progress (hnumbered : Numbered plan point s issues) {issue : Option Issue}
    (hprogress : Progress plan point s issue next s') (hin : InStep plan next s') :
    Numbered plan next s' (issues ++ issue.toList) := by
  cases hprogress with
  | stays hstep htaken htrace =>
    rw [Option.toList_none, List.append_nil]
    refine ⟨hin, htrace hnumbered.inTrace, ?_, ?_, hnumbered.within⟩
    · exact fun issue hmem => (hnumbered.behind issue hmem).trans hstep.ge
    · rw [hstep, htaken, hnumbered.slots]
  | @issues issue _ _ hpoint hissue hstep htaken htrace =>
    obtain ⟨gap, rfl⟩ := hpoint
    obtain ⟨hissueStep, hissueSlot⟩ := hissue
    rw [Option.toList_some]
    refine ⟨hin, htrace hnumbered.inTrace, fun other hmem => ?_, ?_, fun step => ?_⟩
    · rcases List.mem_append.mp hmem with hold | hnew
      · exact (hnumbered.behind other hold).trans hstep.ge
      · rw [List.mem_singleton.mp hnew, hissueStep, hstep]
    · have hslots := hnumbered.slots
      simp only [Point.taken] at hslots
      rw [hstep, htaken, List.filter_append, List.map_append, hslots, List.range_succ]
      simp [hissueStep, hissueSlot]
    · rw [List.countP_append, List.countP_singleton]
      by_cases hsame : issue.step = step
      · -- The slot is one of those the step has, so it was not full before.
        have htakenOld : issues.countP (·.step = step) = s.slot := by
          rw [← hsame, hissueStep]
          exact hnumbered.length_filter
        have hroom : s.slot < plan.function.invocationsAt step := by
          rw [← hsame, hissueStep]
          exact hnumbered.inStep
        simp only [hsame, decide_true, if_true, htakenOld]
        exact hroom
      · simpa [hsame] using hnumbered.within step
  | enters hstep hslot =>
    rw [Option.toList_none, List.append_nil]
    refine ⟨hin, trivial, fun issue hmem => ?_, ?_, hnumbered.within⟩
    · rw [hstep]
      exact (hnumbered.behind issue hmem).trans (Nat.le_succ _)
    · have hnone : issues.filter (·.step = s'.step) = [] := by
        refine List.filter_eq_nil_iff.mpr fun issue hmem => ?_
        have hbehind := hnumbered.behind issue hmem
        simp only [decide_eq_true_eq]
        omega
      simp [hnone, Point.taken, hslot]

/-- Every slot that was issued is one of the steps so far. -/
theorem length_eq_sum (hnumbered : Numbered plan point s issues) :
    issues.length = ∑ step ∈ Finset.range (s.step + 1), issues.countP (·.step = step) := by
  have hbehind := hnumbered.behind
  clear hnumbered
  induction issues with
  | nil => simp
  | cons issue issues ih =>
    have hrest := ih fun other hmem => hbehind other (List.mem_cons_of_mem _ hmem)
    have hmem : issue.step ∈ Finset.range (s.step + 1) :=
      Finset.mem_range_succ_iff.mpr (hbehind issue List.mem_cons_self)
    simp only [List.countP_cons, decide_eq_true_eq, Finset.sum_add_distrib, ← hrest,
      Finset.sum_ite_eq, hmem, if_true, List.length_cons]

end Numbered

/-- Slots are issued one after the other, as the trace has them. -/
def numbering (plan : Plan) : Invariant plan where
  holds := Numbered plan
  turn clock counters _ _ _ hnumbered :=
    ((turn_effort clock counters hnumbered.inStep).2.and
      (turn_progress plan clock counters _ _)).mono
      fun _ _ hgoes => hnumbered.progress hgoes.2 hgoes.1

theorem numbering_begin (plan : Plan) (specification : Specification) (clock : Clock) :
    (numbering plan).holds .head (begin plan specification clock) [] := by
  refine ⟨inStep_begin plan specification clock, trivial, by simp, ?_, by simp⟩
  have hslot : (begin plan specification clock).slot = 0 := by
    unfold begin
    split <;> rfl
  simp [Point.taken, hslot]

end TraceReplay.Driver
