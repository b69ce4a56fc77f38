import TraceReplay.Function
import TraceReplay.Json.Document
import TraceReplay.Json.Writing

/-!
# Function files

A trace as a JSON list of functions.  Name and requested invocations have to be
given, everything else is empty if it is missing.
-/

namespace TraceReplay

open Document

section Reading

variable {ν : Type} [Document ν]

def PercentileStats.read (value : ν) : Option PercentileStats := do
  match ← fields ["percentiles", "values"] value with
  | [percentiles, values] =>
    some {
      percentiles := ← required (listOf real?) percentiles
      values := ← required (listOf uint32?) values }
  | _ => none

def Function.read (value : ν) : Option Function := do
  match ← fields ["name", "endpoint", "invocation_stats", "batch_stats", "iteration_stats",
      "deadline_stats", "runtime_stats", "memory_stats"] value with
  | [name, endpoint, invocationStats, batchStats, iterationStats, deadlineStats, runtimeStats,
      memoryStats] =>
    some {
      name := ← required text? name
      endpoint := ← withDefault text? "" endpoint
      invocationStats := ← required (listOf uint64?) invocationStats
      batchStats := ← withDefault (listOf int64?) [] batchStats
      iterationStats := ← withDefault (listOf int64?) [] iterationStats
      deadlineStats := ← withDefault (listOf int64?) [] deadlineStats
      runtimeStats := ← withDefault PercentileStats.read .empty runtimeStats
      memoryStats := ← withDefault PercentileStats.read .empty memoryStats }
  | _ => none

end Reading

def Json.ofUInt32 (n : UInt32) : Json := .ofInt n.toNat
def Json.ofUInt64 (n : UInt64) : Json := .ofInt n.toNat
def Json.ofInt64 (n : Int64) : Json := .ofInt n.toInt

def PercentileStats.toJson (s : PercentileStats) : Json :=
  .record [("percentiles", .list .ofFloat s.percentiles), ("values", .list .ofUInt32 s.values)]

def Function.toJson (f : Function) : Json :=
  .record [
    ("name", .ofText f.name),
    ("endpoint", .ofText f.endpoint),
    ("invocation_stats", .list .ofUInt64 f.invocationStats),
    ("batch_stats", .list .ofInt64 f.batchStats),
    ("iteration_stats", .list .ofInt64 f.iterationStats),
    ("deadline_stats", .list .ofInt64 f.deadlineStats),
    ("runtime_stats", f.runtimeStats.toJson),
    ("memory_stats", f.memoryStats.toJson)]

/-- The functions a text describes. -/
def Function.parseList (text : Bytes) : Option (List Function) := do
  listOf Function.read (← Json.parse text)

def Function.renderList (functions : List Function) : Bytes :=
  (Json.list Function.toJson functions).pretty

namespace Files

/-- The bytes of a file, or the error that names it.  A directory opens, but
nothing can be read from it: that is the error of the format. -/
def readFor (files : Files) (path : String) (unreadable : ReplayError) :
    Except ReplayError Bytes :=
  match files.read path with
  | .error fault => .error (.file path fault)
  | .ok none => .error unreadable
  | .ok (some text) => .ok text

def writeFor (files : Files) (path : String) (text : Bytes) : Except ReplayError Files :=
  match files.write path text with
  | .error fault => .error (.file path fault)
  | .ok files => .ok files

end Files

def loadFunctions (files : Files) (path : String) : Except ReplayError (List Function) := do
  match Function.parseList (← files.readFor path .json) with
  | some functions => .ok functions
  | none => .error .json

def saveFunctions (files : Files) (path : String) (functions : List Function) :
    Except ReplayError Files :=
  files.writeFor path (Function.renderList functions)

end TraceReplay
