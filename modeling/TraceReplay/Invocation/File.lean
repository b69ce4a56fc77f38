import TraceReplay.Document
import TraceReplay.Invocation

/-!
# Execution records in files

An execution record is read from a document, where every field may be missing, or
from a row of the duration table.
-/

namespace TraceReplay.ExecutionRecord

open Document

/-- Fields that are missing are taken from `base`. -/
def readOver {ν : Type} [Document ν] (base : ExecutionRecord) (value : ν) :
    Option ExecutionRecord := do
  match ← fields header value with
  | [phase, instanceName, invocationId, startTime, requestedDuration, responseTime,
      actualDuration, actualMemoryUsage, memoryTimeout, connectionTimeout, functionTimeout] =>
    some {
      phase := ← withDefault integer? base.phase phase
      instanceName := ← withDefault text? base.instanceName instanceName
      invocationId := ← withDefault text? base.invocationId invocationId
      startTime := ← withDefault integer? base.startTime startTime
      requestedDuration := ← withDefault integer? base.requestedDuration requestedDuration
      responseTime := ← withDefault integer? base.responseTime responseTime
      actualDuration := ← withDefault integer? base.actualDuration actualDuration
      actualMemoryUsage := ← withDefault integer? base.actualMemoryUsage actualMemoryUsage
      memoryAllocationTimeout :=
        ← withDefault truth? base.memoryAllocationTimeout memoryTimeout
      connectionTimeout := ← withDefault truth? base.connectionTimeout connectionTimeout
      functionTimeout := ← withDefault truth? base.functionTimeout functionTimeout }
  | _ => none

def truthOfText? : String → Option Bool
  | "true" => some true
  | "false" => some false
  | _ => none

/-- The record a row of the duration table was written for. -/
def ofRow? : List String → Option ExecutionRecord
  | [phase, instanceName, invocationId, startTime, requestedDuration, responseTime,
      actualDuration, actualMemoryUsage, memoryTimeout, connectionTimeout, functionTimeout] => do
    some {
      phase := ← phase.toInt?
      instanceName := instanceName
      invocationId := invocationId
      startTime := ← startTime.toInt?
      requestedDuration := ← requestedDuration.toInt?
      responseTime := ← responseTime.toInt?
      actualDuration := ← actualDuration.toInt?
      actualMemoryUsage := ← actualMemoryUsage.toInt?
      memoryAllocationTimeout := ← truthOfText? memoryTimeout
      connectionTimeout := ← truthOfText? connectionTimeout
      functionTimeout := ← truthOfText? functionTimeout }
  | _ => none

def toJson (r : ExecutionRecord) : Json :=
  .record [
    ("phase", .ofInt r.phase),
    ("instance", .ofText r.instanceName),
    ("invocationId", .ofText r.invocationId),
    ("startTime", .ofInt r.startTime),
    ("requestedDuration", .ofInt r.requestedDuration),
    ("responseTime", .ofInt r.responseTime),
    ("actualDuration", .ofInt r.actualDuration),
    ("actualMemoryUsage", .ofInt r.actualMemoryUsage),
    ("memoryAllocationTimeout", .bool r.memoryAllocationTimeout),
    ("connectionTimeout", .bool r.connectionTimeout),
    ("functionTimeout", .bool r.functionTimeout)]

end TraceReplay.ExecutionRecord
