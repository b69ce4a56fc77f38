import TraceReplay.Config
import TraceReplay.Json.Writing

/-!
# Invocations

The identity of an invocation, the phase it belongs to and the pair of records it
leaves: one line of the duration table and one line of the job log.
-/

namespace TraceReplay

/-- The part of the replay an invocation belongs to. -/
inductive Phase where
  /-- Steps at the start that only serve for profiling and warming up. -/
  | warmup
  /-- Measured steps. -/
  | execution
deriving Repr, DecidableEq

def Phase.code : Phase → Int
  | .warmup => 1
  | .execution => 2

/-- The ID of slot `index` of a step, such as `trace-func-min3.inv17`. -/
def invocationId (tag : String) (granularity : Granularity) (step index : Nat) : String :=
  tag ++ "-" ++ granularity.word ++ toString step ++ ".inv" ++ toString index

/-- Timing and result of one invocation.  Times are in microseconds, memory in KiB. -/
structure ExecutionRecord where
  phase : Int := 0
  instanceName : String := ""
  invocationId : String := ""
  /-- Unix time. -/
  startTime : Int := 0
  requestedDuration : Int := 0
  responseTime : Int := 0
  actualDuration : Int := 0
  actualMemoryUsage : Int := 0
  memoryAllocationTimeout : Bool := false
  connectionTimeout : Bool := false
  functionTimeout : Bool := false
deriving DecidableEq

/-- One execution of a job, by a retry or on a replica. -/
structure JobExecution where
  startTime : Int
  replica : Int
  gpuCount : Int
  computeTime : Int
  executionTime : Int
  startIteration : Int
  endIteration : Int
  totalIteration : Int
  batchSize : Int
deriving DecidableEq

/-- All executions of a job, in order. -/
structure JobRecord where
  invocationId : String
  executions : List JobExecution := []
deriving DecidableEq

def JobRecord.push (r : JobRecord) (e : JobExecution) : JobRecord :=
  { r with executions := r.executions ++ [e] }

/-- What an invoker returns for one attempt; both records are always there. -/
structure Outcome where
  success : Bool
  record : ExecutionRecord
  job : JobRecord
deriving DecidableEq

namespace ExecutionRecord

/-- Column names of the duration table. -/
def header : List String :=
  ["phase", "instance", "invocationId", "startTime", "requestedDuration", "responseTime",
    "actualDuration", "actualMemoryUsage", "memoryAllocationTimeout", "connectionTimeout",
    "functionTimeout"]

def boolText (b : Bool) : String := if b then "true" else "false"

/-- The fields of a row, in the order of the columns. -/
def row (r : ExecutionRecord) : List String :=
  [Decimal.intText r.phase, r.instanceName, r.invocationId, Decimal.intText r.startTime,
    Decimal.intText r.requestedDuration, Decimal.intText r.responseTime,
    Decimal.intText r.actualDuration, Decimal.intText r.actualMemoryUsage,
    boolText r.memoryAllocationTimeout, boolText r.connectionTimeout, boolText r.functionTimeout]

end ExecutionRecord

/-- A line of the job log: one list for each quantity. -/
structure JobColumns where
  invocationId : String
  startTime : List Int := []
  replica : List Int := []
  gpuCount : List Int := []
  computeTime : List Int := []
  executionTime : List Int := []
  startIteration : List Int := []
  endIteration : List Int := []
  totalIteration : List Int := []
  batchSize : List Int := []
deriving DecidableEq

def JobColumns.toJson (c : JobColumns) : Json :=
  .record [
    ("invocationId", .ofText c.invocationId),
    ("startTime", .list .ofInt c.startTime),
    ("replica", .list .ofInt c.replica),
    ("gpuCount", .list .ofInt c.gpuCount),
    ("computeTime", .list .ofInt c.computeTime),
    ("executionTime", .list .ofInt c.executionTime),
    ("startIteration", .list .ofInt c.startIteration),
    ("endIteration", .list .ofInt c.endIteration),
    ("totalIteration", .list .ofInt c.totalIteration),
    ("batchSize", .list .ofInt c.batchSize)]

namespace JobRecord

/-- Each list has one entry an execution. -/
def columns (r : JobRecord) : JobColumns where
  invocationId := r.invocationId
  startTime := r.executions.map (·.startTime)
  replica := r.executions.map (·.replica)
  gpuCount := r.executions.map (·.gpuCount)
  computeTime := r.executions.map (·.computeTime)
  executionTime := r.executions.map (·.executionTime)
  startIteration := r.executions.map (·.startIteration)
  endIteration := r.executions.map (·.endIteration)
  totalIteration := r.executions.map (·.totalIteration)
  batchSize := r.executions.map (·.batchSize)

def toJson (r : JobRecord) : Json := r.columns.toJson

end JobRecord

end TraceReplay
