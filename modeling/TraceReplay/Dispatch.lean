import TraceReplay.Collector
import TraceReplay.Counters
import TraceReplay.Invoker

/-!
# Dispatched slots

What becomes of a slot once it is issued: it is handed to the invoker, and the
outcome is labelled with the slot it belongs to; or nothing is invoked, and its
records are made up.
-/

namespace TraceReplay

/-- A slot that goes to the invoker. -/
structure Dispatch where
  /-- Chosen by the policy, perhaps not the driven function. -/
  target : Function
  siblings : List Function
  specification : RuntimeSpecification
  invocationId : String
  step : Nat
  phase : Phase

namespace Dispatch

def request (d : Dispatch) (promptFunctions : List Function) (configuration : Configuration)
    (hasAdmission : Bool) : InvocationRequest where
  function := d.target
  siblings := d.siblings
  promptFunctions := promptFunctions
  specification := d.specification
  configuration := configuration
  invocationId := d.invocationId
  hasAdmission := hasAdmission

/-- The records of an outcome, under the phase and the ID of the slot whatever the
invoker wrote there, and under the target's name if it wrote none. -/
def label (d : Dispatch) (o : Outcome) : RecordPair where
  record := { o.record with
    phase := d.phase.code
    instanceName := if o.record.instanceName.isEmpty then d.target.name else o.record.instanceName
    invocationId := d.invocationId }
  job := { o.job with invocationId := d.invocationId }

/-- The counters after an outcome. -/
def count (d : Dispatch) (o : Outcome) (c : Counters) : Counters :=
  if o.success then c.recordSuccess else c.recordFailure d.step

end Dispatch

/-- The records of a slot nothing is invoked for. -/
def RecordPair.synthesized (f : Function) (invocationId : String) (phase : Phase) (clock : Clock) :
    RecordPair where
  record := {
    phase := phase.code, instanceName := f.name, invocationId := invocationId
    startTime := clock.wall }
  job := { invocationId := invocationId }

end TraceReplay
