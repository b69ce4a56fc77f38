/-!
# Counters

What a driver and its invocations count together, and the totals of an experiment.
-/

namespace TraceReplay

/-- Outcomes of the invocations of one driver. -/
structure Counters where
  successful : Nat
  failed : Nat
  /-- Failures of each step of the trace. -/
  failedByStep : List Nat
deriving Repr, DecidableEq

namespace Counters

def zero (traceDuration : Nat) : Counters := ⟨0, 0, List.replicate traceDuration 0⟩

def recordSuccess (c : Counters) : Counters := { c with successful := c.successful + 1 }

/-- A failure of a step beyond the trace is counted, but for no step. -/
def recordFailure (c : Counters) (step : Nat) : Counters :=
  { c with failed := c.failed + 1, failedByStep := c.failedByStep.modify step (· + 1) }

def failedAt (c : Counters) (step : Nat) : Nat := c.failedByStep.getD step 0

end Counters

/-- Totals of an experiment. -/
structure Summary where
  successful : Int := 0
  failed : Int := 0
  issued : Int := 0
deriving Repr, DecidableEq

def Summary.add (s : Summary) (successful failed issued : Int) : Summary :=
  ⟨s.successful + successful, s.failed + failed, s.issued + issued⟩

end TraceReplay
