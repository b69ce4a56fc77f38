import TraceReplay.Function.File
import TraceReplay.Specification

/-!
# Specification files

One JSON file `iat<index>.json` for each function of an experiment.  All four
parts have to be given; a slot without statistics has no `stats` key, and a
missing or null one reads as none.
-/

namespace TraceReplay

open Document

section Reading

variable {ν : Type} [Document ν]

def ModeStats.read (value : ν) : Option ModeStats := do
  match ← fields ["iterations", "batch_size", "deadline"] value with
  | [iterations, batchSize, deadline] =>
    some {
      iterations := ← required int64? iterations
      batchSize := ← required int64? batchSize
      deadline := ← required int64? deadline }
  | _ => none

def RuntimeSpecification.read (value : ν) : Option RuntimeSpecification := do
  match ← fields ["runtime", "memory", "stats"] value with
  | [runtime, memory, stats] =>
    some {
      runtime := ← required uint32? runtime
      memory := ← required uint32? memory
      stats := ← optional ModeStats.read stats }
  | _ => none

def Specification.read (value : ν) : Option Specification := do
  match ← fields ["IAT", "PerMinuteCount", "RawDuration", "RuntimeSpecification"] value with
  | [gaps, perStepCount, rawDuration, slots] =>
    some {
      gaps := ← required (listOf (listOf real?)) gaps
      perStepCount := ← required (listOf uint64?) perStepCount
      rawDuration := ← required (listOf real?) rawDuration
      slots := ← required (listOf (listOf RuntimeSpecification.read)) slots }
  | _ => none

end Reading

def ModeStats.toJson (s : ModeStats) : Json :=
  .record [("iterations", .ofInt64 s.iterations), ("batch_size", .ofInt64 s.batchSize),
    ("deadline", .ofInt64 s.deadline)]

def RuntimeSpecification.toJson (slot : RuntimeSpecification) : Json :=
  .record ([("runtime", .ofUInt32 slot.runtime), ("memory", .ofUInt32 slot.memory)]
    ++ match slot.stats with
      | some stats => [("stats", stats.toJson)]
      | none => [])

def Specification.toJson (s : Specification) : Json :=
  .record [
    ("IAT", .list (.list .ofFloat) s.gaps),
    ("PerMinuteCount", .list .ofUInt64 s.perStepCount),
    ("RawDuration", .list .ofFloat s.rawDuration),
    ("RuntimeSpecification", .list (.list RuntimeSpecification.toJson) s.slots)]

namespace Specification

def parse (text : Bytes) : Option Specification := do
  Specification.read (← Json.parse text)

def render (s : Specification) : Bytes := s.toJson.pretty

/-- The path of the specification of function number `index`. -/
def path (dir : String) (index : Nat) : String := Path.join dir s!"iat{index}.json"

def load (files : Files) (dir : String) (index : Nat) : Except ReplayError Specification := do
  match parse (← files.readFor (path dir index) .json) with
  | some spec => .ok spec
  | none => .error .json

def save (files : Files) (dir : String) (index : Nat) (s : Specification) :
    Except ReplayError Files :=
  files.writeFor (path dir index) s.render

end Specification
end TraceReplay
