import TraceReplay.Invoker

/-!
# Scripted invokers

Invokers that do what a script says for each invocation, to try a replay without a
platform.
-/

namespace TraceReplay

/-- How one invocation goes. -/
structure Script where
  success : Bool := true
  /-- Milliseconds. -/
  delay : Nat := 0
  panics : Bool := false
  /-- Turns the empty record into the record of the invocation. -/
  record : ExecutionRecord → ExecutionRecord := id
  executions : List JobExecution := []

def Script.outcome (s : Script) (invocationId : String) : Outcome where
  success := s.success
  record := s.record { invocationId := invocationId }
  job := s.executions.foldl JobRecord.push { invocationId := invocationId }

def Script.execution (s : Script) (invocationId : String) : Execution where
  delay := s.delay
  ending := if s.panics then .panics else .returns (s.outcome invocationId)

/-- The script of an invocation is found by its ID. -/
def Invoker.scripted (script : String → Script) : Invoker where
  attempt r _ := .execute ((script r.invocationId).execution r.invocationId)

end TraceReplay
