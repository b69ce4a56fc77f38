import TraceReplay.Config
import TraceReplay.Random.Draw
import TraceReplay.Specification

/-!
# Generation of specifications

From the statistics of a function to a replay schedule that fits it: the arrivals
of each step spread over its unit, and for each slot a runtime and a memory size.
-/

namespace TraceReplay

/-- Draws a value from a table that is well formed; a malformed table draws nothing. -/
def PercentileStats.sample (s : PercentileStats) (g : Generator) : Option UInt32 × Generator :=
  if s.wellFormed then
    let (point, g) := g.uniformBelow 1.0
    (s.valueAt point, g)
  else (none, g)

/-- An order of doubles in which also zeros of different sign, and what is not a
number, have their places. -/
def totalOrderKey (x : Float) : Int :=
  let bits : Int := x.toBits.toNat
  if bits < 2 ^ 63 then bits else 2 ^ 63 - 1 - bits

/-- Differences of neighbours. -/
def gapsBetween : List Float → List Float
  | x :: y :: rest => (y - x) :: gapsBetween (y :: rest)
  | _ => []

namespace Generation

/-- Gaps in microseconds for `count` arrivals in a step of `unit` microseconds, and the
samples they were derived from. -/
def stepGaps (shape : ArrivalShape) (unit : Float) (count : Nat) (g : Generator) :
    (List Float × List Float) × Generator :=
  if count = 0 then (([], []), g)
  else match shape with
    | .equidistant =>
      ((0.0 :: List.replicate (count - 1) (unit / Binary64.ofInt count), []), g)
    | .uniform =>
      let (points, g) := g.drawList (Generator.uniformBelow unit) count
      let sorted := points.mergeSort fun x y => totalOrderKey x ≤ totalOrderKey y
      ((0.0 :: gapsBetween sorted, sorted), g)
    | .exponential =>
      let (samples, g) := g.drawList Generator.exponential count
      let sum := samples.foldl (· + ·) 0.0
      let scale := if sum > 0.0 then unit / sum else 0.0
      ((0.0 :: (samples.take (count - 1)).map (· * scale), samples), g)

/-- What one slot asks for; both tables draw before either is found missing. -/
def slot (f : Function) (g : Generator) : Option RuntimeSpecification × Generator :=
  let (runtime, g) := f.runtimeStats.sample g
  let (memory, g) := f.memoryStats.sample g
  (match runtime, memory with
    | some runtime, some memory => some ⟨runtime, memory, none⟩
    | _, _ => none, g)

/-- Slots up to the first that cannot be drawn. -/
def slots (f : Function) : Nat → Generator → Option (List RuntimeSpecification) × Generator
  | 0, g => (some [], g)
  | count + 1, g =>
    match slot f g with
    | (none, g) => (none, g)
    | (some first, g) =>
      let (rest, g) := slots f count g
      (rest.map (first :: ·), g)

/-- The steps of a schedule, one count each. -/
def steps (f : Function) (shape : ArrivalShape) (unit : Float) :
    List UInt64 → Generator → Option Specification × Generator
  | [], g => (some .empty, g)
  | count :: counts, g =>
    let ((gaps, raw), g) := stepGaps shape unit count.toNat g
    match slots f count.toNat g with
    | (none, g) => (none, g)
    | (some slots, g) =>
      let (rest, g) := steps f shape unit counts g
      (rest.map fun spec => {
        gaps := gaps :: spec.gaps
        perStepCount := count :: spec.perStepCount
        rawDuration := raw ++ spec.rawDuration
        slots := slots :: spec.slots }, g)

end Generation

/-- The schedule of one function.  Also a failed generation uses up the draws it made. -/
def generate (f : Function) (shape : ArrivalShape) (granularity : Granularity) (g : Generator) :
    Except ReplayError Specification × Generator :=
  let unit := Binary64.ofInt (granularity.unitMs * 1000)
  match Generation.steps f shape unit f.invocationStats g with
  | (some spec, g) => (.ok spec, g)
  | (none, g) => (.error (.invalidSpecification f.name .malformedStatistics), g)

end TraceReplay
