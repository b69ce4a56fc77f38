import TraceReplay.Function
import TraceReplay.Random.Draw

/-!
# Synthetic traces

Functions with random names and equal load: a ramp of request rates, each held for
some minutes.
-/

namespace TraceReplay

structure Ramp where
  functions : Nat
  /-- First and last rate, in requests per second; the last is reached if whole
  steps lead to it. -/
  beginning : Nat
  target : Nat
  step : Nat
  /-- Minutes each rate is held. -/
  duration : Nat
  /-- Execution time in milliseconds. -/
  execution : UInt32
  /-- Memory in MiB. -/
  memory : UInt32
  seed : UInt64

namespace Ramp

/-- The rates from `rate` on, `step` apart, as far as `target`. -/
def climb (target step rate : Nat) : List Nat :=
  if 0 < step ∧ rate ≤ target then rate :: climb target step (rate + step) else []
termination_by target + 1 - rate

/-- The rates from `beginning` to `target`, for a positive step. -/
def rates (r : Ramp) : List Nat := climb r.target r.step r.beginning

/-- Invocations of each minute. -/
def load (r : Ramp) : Except ReplayError (List Nat) :=
  if r.step = 0 then .error (.config .rampStep)
  else .ok (r.rates.flatMap fun rate => List.replicate r.duration (60 * rate))

def nameLength : Nat := 64

/-- A name of lower-case letters and digits. -/
def drawName (g : Generator) : String × Generator :=
  let drawn := g.drawList Generator.alphanumeric nameLength
  (String.ofList (drawn.1.map Char.toLower), drawn.2)

/-- The functions of the ramp. -/
def synthesize (r : Ramp) : Except ReplayError (List Function) := do
  let load ← r.load
  let (names, _) := (Generator.ofSeed r.seed).drawList drawName r.functions
  .ok (names.map fun name => {
    name := name
    invocationStats := load.map UInt64.ofNat
    runtimeStats := .fixed r.execution
    memoryStats := .fixed r.memory })

end Ramp
end TraceReplay
