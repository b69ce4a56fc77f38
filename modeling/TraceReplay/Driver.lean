import TraceReplay.Dispatch
import TraceReplay.Health
import TraceReplay.Policy

/-!
# Drivers

A driver replays the trace of one function: it issues each slot when its gap has
passed and compares the replay with its plan at the end of each step.  It is an
automaton; whatever takes time, or needs somebody else, is a move that it asks for.

Gaps are measured from the slot before, as the trace has it: a slot that came late
does not delay the slots after it.  A step is over when all its slots are issued,
or when a slot was issued after the step's length; an empty step only passes.
-/

namespace TraceReplay.Driver

/-- What a driver is given. -/
structure Plan where
  /-- The place of the function in the trace. -/
  index : Nat
  function : Function
  siblings : List Function
  policy : Policy
  configuration : ReplayConfiguration

/-- Where a driver is in its trace. -/
structure State where
  step : Nat
  /-- Slots of the step that are issued. -/
  slot : Nat := 0
  /-- Slots issued in all steps. -/
  issued : Nat := 0
  phase : Phase
  /-- When the step began, or is about to begin. -/
  stepStart : Nat
  /-- The gaps of the step so far, in microseconds. -/
  nominal : Int := 0
  specification : Specification
  stoppedEarly : Bool := false

structure Report where
  index : Nat
  name : String
  successful : Nat
  failed : Nat
  issued : Nat
  /-- A health check ended the replay before the trace did. -/
  terminatedEarly : Bool
  specification : Specification

/-- A slot that has been issued. -/
structure Issue where
  driver : Nat
  time : Nat
  step : Nat
  slot : Nat
  /-- Its number among all slots the driver has issued, from one. -/
  number : Nat
  invocationId : String
  /-- How it went to the invoker, unless nothing was invoked. -/
  dispatch : Option Dispatch

/-- What a driver does next. -/
inductive Point where
  | head
  /-- The gap before the slot has passed. -/
  | due (gap : Int)
  /-- The made-up records of the slot are delivered. -/
  | stored
  /-- The slot is done with. -/
  | advance
  /-- The step is over, and what has returned by now is counted. -/
  | check
  /-- No invocation is in flight any more. -/
  | drained

/-- What a driver asks for. -/
inductive Move where
  | proceed (next : Point)
  | sleep (micros : Nat) (next : Point)
  /-- Lets everything else that can be done now be done first. -/
  | yield (next : Point)
  | deliver (pair : RecordPair) (next : Point)
  | launch (dispatch : Dispatch) (next : Point)
  /-- Waits until no invocation is in flight. -/
  | await (next : Point)
  | finish (report : Report)
  | fail (error : ReplayError)

/-- One turn of a driver. -/
structure Turn where
  state : State
  counters : Counters
  notices : List Notice := []
  issue : Option Issue := none
  move : Move

/-- With warmup the first step only serves for profiling and is not replayed. -/
def begin (plan : Plan) (specification : Specification) (clock : Clock) : State :=
  if plan.configuration.withWarmup then
    { step := 1, phase := .warmup, stepStart := clock.now, specification := specification }
  else
    { step := 0, phase := .execution, stepStart := clock.now, specification := specification }

/-- What the checks at the end of a step say. -/
inductive StepEnd where
  | passed (notices : List Notice)
  | stopped (notices : List Notice)
  | broken (notices : List Notice) (error : ReplayError)

/-- Compares the failures of steps with what was requested in them. -/
def checkFailures (plan : Plan) (counters : Counters) : List Nat → List Notice → StepEnd
  | [], notices => .passed notices
  | step :: steps, notices =>
    let requested : Int := plan.function.invocationsAt step
    let failed : Int := counters.failedAt step
    match Health.check requested (requested - failed) .issuedVsFailed
        plan.configuration.loader.thresholds with
    | .fine more => checkFailures plan counters steps (notices ++ more)
    | .stop => .stopped (notices ++ [.failedTooMany plan.function.name failed requested step])
    | .invalid => .broken notices (.invalidRatio requested (requested - failed))

/-- Compares the slots issued in the step with the slots requested in it, then the
failures of all steps so far.  Steps of a second are too short to be judged. -/
def checkStep (plan : Plan) (counters : Counters) (s : State) : StepEnd :=
  match plan.configuration.granularity with
  | .second => .passed []
  | .minute =>
    let requested : Int := plan.function.invocationsAt s.step
    match Health.check requested s.slot .requestedVsIssued
        plan.configuration.loader.thresholds with
    | .fine notices => checkFailures plan counters (List.range (s.step + 1)) notices
    | .stop => .stopped [.issuedTooFew plan.function.name s.slot requested s.step]
    | .invalid => .broken [] (.invalidRatio requested s.slot)

/-- The state at the start of the next step, which begins now or, after an empty
step, once that has passed. -/
def nextStep (plan : Plan) (clock : Clock) (s : State) (wasEmpty : Bool) :
    State × List Notice :=
  let step := s.step + 1
  let start := if wasEmpty then clock.now + plan.configuration.granularity.unitMs else clock.now
  let s := { s with step := step, slot := 0, nominal := 0, stepStart := start }
  if plan.configuration.withWarmup ∧ step = plan.configuration.loader.warmupDuration + 1 then
    ({ s with phase := .execution }, [.enteredExecution plan.function.name])
  else (s, [])

/-- Ends the step: the next one follows with `onward`, or the replay stops. -/
def endStep (plan : Plan) (clock : Clock) (counters : Counters) (s : State) (wasEmpty : Bool)
    (onward : Move) : Turn :=
  match checkStep plan counters s with
  | .broken notices error =>
    { state := s, counters := counters, notices := notices, move := .fail error }
  | .stopped notices =>
    { state := { s with stoppedEarly := true }, counters := counters, notices := notices
      move := .await .drained }
  | .passed notices =>
    let (s, more) := nextStep plan clock s wasEmpty
    { state := s, counters := counters, notices := notices ++ more, move := onward }

def missingSlot (plan : Plan) (s : State) : ReplayError :=
  .invalidSpecification plan.function.name (.missingSlot s.step s.slot)

/-- Statistics for the invocation with a number, if the function has all three. -/
def modeStats (f : Function) (number : Nat) : Option ModeStats := do
  if number = 0 then none
  else some {
    iterations := ← f.iterationStats[number - 1]?
    batchSize := ← f.batchStats[number - 1]?
    deadline := ← f.deadlineStats[number - 1]? }

def currentId (plan : Plan) (s : State) : String :=
  invocationId plan.function.name plan.configuration.granularity s.step s.slot

def issueOf (plan : Plan) (clock : Clock) (s : State) (dispatch : Option Dispatch) : Issue where
  driver := plan.index
  time := clock.now
  step := s.step
  slot := s.slot
  number := s.issued
  invocationId := currentId plan s
  dispatch := dispatch

/-- Hands the slot to the invoker, with the statistics it is due. -/
def fire (plan : Plan) (clock : Clock) (counters : Counters) (s : State) (target : Function)
    (notices : List Notice) : Turn :=
  match s.specification.slot? s.step s.slot with
  | none =>
    { state := s, counters := counters, notices := notices, move := .fail (missingSlot plan s) }
  | some slot =>
    let (specification, slot) := match modeStats plan.function s.issued with
      | some stats =>
        (s.specification.attach s.step s.slot stats, { slot with stats := some stats })
      | none => (s.specification, slot)
    let dispatch : Dispatch := {
      target := target, siblings := plan.siblings, specification := slot
      invocationId := currentId plan s, step := s.step, phase := s.phase }
    { state := { s with specification := specification }, counters := counters
      notices := notices, issue := some (issueOf plan clock s dispatch)
      move := .launch dispatch .advance }

/-- Makes up the records of a slot nothing is invoked for. -/
def skip (plan : Plan) (clock : Clock) (counters : Counters) (s : State)
    (notices : List Notice) : Turn where
  state := s
  counters := counters
  notices := notices
  issue := some (issueOf plan clock s none)
  move := .deliver (.synthesized plan.function (currentId plan s) s.phase clock) .stored

/-- Issues the slot as the policy says. -/
def issueSlot (plan : Plan) (clock : Clock) (counters : Counters) (s : State) : Turn :=
  let resolution := plan.policy.resolve ⟨plan.function, plan.siblings, s.issued⟩
  match resolution.verdict with
  | .panic message =>
    { state := s, counters := counters, notices := resolution.notices
      move := .fail (.panicked message) }
  | .fire target _ =>
    if plan.configuration.testMode then skip plan clock counters s resolution.notices
    else fire plan clock counters s target resolution.notices
  | .skip => skip plan clock counters s resolution.notices

/-- Microseconds until a slot is due: its gap, less what the slots before it came late. -/
def waitFor (clock : Clock) (s : State) (gap : Int) : Int :=
  gap - (((clock.now - s.stepStart) * 1000 : Nat) - s.nominal)

/-- At the head of its loop a driver looks for the next slot. -/
def atHead (plan : Plan) (clock : Clock) (counters : Counters) (s : State) : Turn :=
  if plan.configuration.traceDuration ≤ s.step then
    { state := s, counters := counters, move := .await .drained }
  else if plan.function.invocationsAt s.step = 0 then
    endStep plan clock counters s true
      (.sleep (plan.configuration.granularity.unitMs * 1000) .head)
  else match s.specification.gap? s.step s.slot with
    | none => { state := s, counters := counters, move := .fail (missingSlot plan s) }
    | some gap =>
      let gap := Binary64.toInt64Range gap
      let wait := waitFor clock s gap
      { state := s, counters := counters
        move := if 0 < wait then .sleep wait.toNat (.due gap) else .proceed (.due gap) }

/-- The step is over after its last slot, and after a slot that came later than the
step is long. -/
def stepOver (plan : Plan) (clock : Clock) (s : State) : Bool :=
  s.slot = plan.function.invocationsAt s.step
    || plan.configuration.granularity.unitMs < clock.now - s.stepStart

def report (plan : Plan) (counters : Counters) (s : State) : Report where
  index := plan.index
  name := plan.function.name
  successful := counters.successful
  failed := counters.failed
  issued := s.issued
  terminatedEarly := s.stoppedEarly
  specification := s.specification

def turn (plan : Plan) (clock : Clock) (counters : Counters) (point : Point) (s : State) : Turn :=
  match point with
  | .head => atHead plan clock counters s
  | .due gap =>
    issueSlot plan clock counters { s with nominal := s.nominal + gap, issued := s.issued + 1 }
  | .stored => { state := s, counters := counters.recordSuccess, move := .proceed .advance }
  | .advance =>
    let s := { s with slot := s.slot + 1 }
    { state := s, counters := counters
      move := if stepOver plan clock s then .yield .check else .proceed .head }
  | .check => endStep plan clock counters s false (.proceed .head)
  | .drained => { state := s, counters := counters, move := .finish (report plan counters s) }

end TraceReplay.Driver
