import TraceReplay.Clock
import TraceReplay.Invocation
import TraceReplay.Metric
import TraceReplay.Notice
import TraceReplay.Specification

/-!
# Invokers

An invoker performs a single invocation on the target platform.  It does not fail:
what goes wrong on the platform is part of the outcome.  An invocation takes the
time its invoker says, and it may ask the admission scheduler first.
-/

namespace TraceReplay

/-- Everything an invoker gets to know about one attempt. -/
structure InvocationRequest where
  function : Function
  /-- Functions grouped with `function`. -/
  siblings : List Function
  promptFunctions : List Function
  specification : RuntimeSpecification
  configuration : Configuration
  invocationId : String
  /-- There is a link to an admission scheduler. -/
  hasAdmission : Bool

/-- How an execution ends. -/
inductive Ending where
  | returns (outcome : Outcome)
  | panics

/-- An execution that has begun: it takes `delay` milliseconds. -/
structure Execution where
  notices : List Notice := []
  delay : Nat
  ending : Ending

/-- What an invoker does with a request. -/
inductive Attempt where
  | execute (execution : Execution)
  /-- Asks for a placement.  The execution begins with the answer, or with nothing if
  the scheduler is gone. -/
  | consult (request : PlacementRequest) (begin : Option PlacementReply → Clock → Execution)

structure Invoker where
  name : String := "STUB INVOKER NAME"
  attempt : InvocationRequest → Clock → Attempt

end TraceReplay
