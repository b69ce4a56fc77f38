import TraceReplay.Clock
import TraceReplay.Collector
import TraceReplay.Metric

/-!
# Sampling of metrics

The cluster is sampled once a period, the first time after one period.  A sample that
is late is taken at once, and the following ones shift with it.  A stop takes
effect between two samples, so every sample has both its parts.
-/

namespace TraceReplay

/-- A source of metrics: what its `n`-th sample is, and how many milliseconds each of
its two parts takes. -/
structure MetricSource where
  usage : Nat → Nat × ClusterUsage
  platform : Nat → Nat × PlatformStats

structure Sample where
  usage : ClusterUsage
  platform : PlatformStats

namespace Sampling

/-- A sample more than this late shifts the samples after it, in milliseconds. -/
def tolerance : Nat := 5

/-- The `n`-th sample of a source, stamped with the times at which its parts came in,
and the time at which it is complete. -/
def take (source : MetricSource) (n : Nat) (clock : Clock) : Sample × Clock :=
  let (usageDelay, usage) := source.usage n
  let clock := { clock with now := clock.now + usageDelay }
  let usage := { usage with timestamp := clock.wall }
  let (platformDelay, platform) := source.platform n
  let clock := { clock with now := clock.now + platformDelay }
  (⟨usage, { platform with timestamp := clock.wall }⟩, clock)

/-- When the sample after one that was due at `due` and taken at `taken` is due. -/
def nextDue (period due taken : Nat) : Nat :=
  if due + tolerance < taken then taken + period else due + period

/-- All samples taken until `stop`, from the `n`-th on, and when the sampling has
stopped.  The source is free at `clock` and has to give its next sample at `due`; each
sample costs one unit of `fuel`. -/
def samples (source : MetricSource) (period stop : Nat) :
    Nat → Nat → Nat → Clock → List Sample × Nat
  | 0, _, _, clock => ([], max clock.now stop)
  | fuel + 1, n, due, clock =>
    let taken := max due clock.now
    if stop < taken then ([], max clock.now stop)
    else
      let (sample, clock) := take source n { clock with now := taken }
      let (others, stopped) :=
        samples source period stop fuel (n + 1) (nextDue period due taken) clock
      (sample :: others, stopped)

/-- What a sampling that started at `clock` leaves when it is stopped: its samples,
from the `first`-th of the source on, and the time at which it has stopped. -/
def run (source : MetricSource) (period : Nat) (clock : Clock) (first stop : Nat) :
    List Sample × Nat :=
  samples source period stop ((stop - clock.now) / period + 1) first (clock.now + period) clock

/-- A period of no length is no rhythm. -/
def noPeriod : String := "\x60period\x60 must be non-zero."

/-! ## Files -/

def usagePath (configuration : ReplayConfiguration) : String :=
  configuration.outputPath "cluster_usage" "json"

def platformPath (configuration : ReplayConfiguration) : String :=
  configuration.outputPath "kn_stats" "csv"

def paths (configuration : ReplayConfiguration) : List String :=
  [usagePath configuration, platformPath configuration]

def fillFiles (samples : List Sample) (configuration : ReplayConfiguration) (files : Files) :
    Files :=
  (files.fill (usagePath configuration) (Lines.write (samples.map (·.usage.toJson)))).fill
    (platformPath configuration)
    (utf8Bytes (Table.write PlatformStats.header (samples.map (·.platform.row))))

end Sampling
end TraceReplay
