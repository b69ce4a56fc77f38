import TraceReplay.Error

/-!
# Functions of a trace

A function, the load it is to receive and the tables its invocations are drawn
from.  Names carry variants: `resnet-gpu-4` and `bert-serverful-copy-2` belong to
the logical functions `resnet` and `bert`.
-/

namespace TraceReplay

/-- An empirical distribution: cumulative percentiles and the values at them. -/
structure PercentileStats where
  percentiles : List Float
  values : List UInt32

namespace PercentileStats

def empty : PercentileStats := ⟨[], []⟩

/-- Every draw is `value`. -/
def fixed (value : UInt32) : PercentileStats := ⟨[1.0], [value]⟩

/-- There is a value to draw for every percentile. -/
def wellFormed (s : PercentileStats) : Bool :=
  !s.values.isEmpty && s.values.length == s.percentiles.length

/-- The value of the bucket a point falls into: that of the first percentile
above it, or the last value. -/
def valueAt (s : PercentileStats) (point : Float) : Option UInt32 :=
  match s.percentiles.findIdx? (point < ·) with
  | some i => s.values[i]?
  | none => s.values.getLast?

end PercentileStats

/-- One function of the trace. -/
structure Function where
  name : String
  /-- Address of the deployed function. -/
  endpoint : String := ""
  /-- Invocations requested in each step. -/
  invocationStats : List UInt64
  /-- Batch size, iterations and deadline of each invocation, in issue order. -/
  batchStats : List Int64 := []
  iterationStats : List Int64 := []
  deadlineStats : List Int64 := []
  /-- Execution time in milliseconds. -/
  runtimeStats : PercentileStats := .empty
  /-- Memory in MiB. -/
  memoryStats : PercentileStats := .empty

/-- Splits at the first place where `separator` occurs. -/
def splitAtFirst (separator : List Char) : List Char → Option (List Char × List Char)
  | [] => if separator.isEmpty then some ([], []) else none
  | c :: rest =>
    if separator.isPrefixOf (c :: rest) then some ([], (c :: rest).drop separator.length)
    else (splitAtFirst separator rest).map fun (front, back) => (c :: front, back)

def gpuSeparator : List Char := "-gpu-".toList
def serverfulSeparator : List Char := "-serverful-copy-".toList

/-- A name up to its first GPU separator, else up to its first serverful one. -/
def logicalName (name : String) : String :=
  match splitAtFirst gpuSeparator name.toList with
  | some (front, _) => String.ofList front
  | none =>
    match splitAtFirst serverfulSeparator name.toList with
    | some (front, _) => String.ofList front
    | none => name

/-- The integer a text names, with or without a sign, if it fits 64 bits. -/
def readInt64? (text : List Char) : Option Int :=
  let (negative, digits) : Bool × List Char :=
    match text with
    | '-' :: rest => (true, rest)
    | '+' :: rest => (false, rest)
    | _ => (false, text)
  if digits.isEmpty ∨ digits.any (!·.isDigit) then none
  else
    let magnitude : Int := digits.foldl (fun n c => n * 10 + (c.toNat - '0'.toNat)) 0
    let value := if negative then -magnitude else magnitude
    if -2 ^ 63 ≤ value ∧ value < 2 ^ 63 then some value else none

namespace Function

/-- Invocations requested in a step, none past the end of the trace. -/
def invocationsAt (f : Function) (step : Nat) : Nat :=
  match f.invocationStats[step]? with
  | some count => count.toNat
  | none => 0

def totalInvocations (f : Function) : Nat :=
  (f.invocationStats.map UInt64.toNat).foldr (· + ·) 0

/-- The GPU count in the last part of the name, after its last dash. -/
def gpuCount (f : Function) : Option Int :=
  readInt64? (f.name.toList.reverse.takeWhile (· ≠ '-')).reverse

def logicalName (f : Function) : String := TraceReplay.logicalName f.name

end Function
end TraceReplay
