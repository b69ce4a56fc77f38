import TraceReplay.Function

/-!
# Specifications

The replay schedule of one function: for every step of its trace the gaps between
its invocations and what each of them asks for.
-/

namespace TraceReplay

/-- Statistics a resource-aware training mode attaches to a slot it dispatches. -/
structure ModeStats where
  iterations : Int64
  batchSize : Int64
  deadline : Int64
deriving DecidableEq

/-- Resources requested by one invocation. -/
structure RuntimeSpecification where
  /-- Milliseconds. -/
  runtime : UInt32
  /-- MiB. -/
  memory : UInt32
  stats : Option ModeStats := none
deriving DecidableEq

/-- `gaps[m][i]` is the number of microseconds between slot `i - 1` of step `m`
and slot `i`; the first slot of a step conventionally has none. -/
structure Specification where
  gaps : List (List Float)
  perStepCount : List UInt64
  /-- The samples the gaps were derived from. -/
  rawDuration : List Float
  slots : List (List RuntimeSpecification)

namespace Specification

def empty : Specification := ⟨[], [], [], []⟩

def gap? (s : Specification) (step index : Nat) : Option Float :=
  s.gaps[step]?.bind (·[index]?)

def slot? (s : Specification) (step index : Nat) : Option RuntimeSpecification :=
  s.slots[step]?.bind (·[index]?)

/-- The specification with other statistics at one slot. -/
def attach (s : Specification) (step index : Nat) (stats : ModeStats) : Specification :=
  { s with
    slots := s.slots.modify step (·.modify index fun slot => { slot with stats := some stats }) }

/-- The first step whose gaps or slots are not as many as requested. -/
def firstMismatch : Nat → List (List Float) → List (List RuntimeSpecification) → List UInt64 →
    Option SpecificationFault
  | step, gaps :: gapSteps, slots :: slotSteps, count :: counts =>
    if gaps.length = count.toNat ∧ slots.length = count.toNat then
      firstMismatch (step + 1) gapSteps slotSteps counts
    else some (.slotCounts step gaps.length slots.length count.toNat)
  | _, _, _, _ => none

/-- How the specification fails to have exactly the slots the function requests. -/
def fault? (s : Specification) (f : Function) : Option SpecificationFault :=
  let steps := f.invocationStats.length
  if s.gaps.length ≠ steps ∨ s.slots.length ≠ steps then
    some (.stepCounts s.gaps.length s.slots.length steps)
  else firstMismatch 0 s.gaps s.slots f.invocationStats

def validate (s : Specification) (f : Function) : Except ReplayError Unit :=
  match s.fault? f with
  | some fault => .error (.invalidSpecification f.name fault)
  | none => .ok ()

end Specification
end TraceReplay
