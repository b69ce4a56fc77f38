import TraceReplay.Error

/-!
# Configuration

What an experiment is told: the length of its phases, the unit of its trace, the
training mode, the limits of its health checks and where its files go.
-/

namespace TraceReplay

/-- The length of one step of a trace. -/
inductive Granularity where
  | minute
  | second
deriving Repr, DecidableEq

/-- The name of a granularity in configuration files. -/
def Granularity.tag : Granularity → String
  | .minute => "minute"
  | .second => "second"

def Granularity.all : List Granularity := [.minute, .second]

/-- Length of a step in milliseconds. -/
def Granularity.unitMs : Granularity → Nat
  | .minute => 60000
  | .second => 1000

/-- The word that stands for a step in invocation IDs. -/
def Granularity.word : Granularity → String
  | .minute => "min"
  | .second => "sec"

/-- How arrivals are spread over a step. -/
inductive ArrivalShape where
  /-- Poisson arrivals, rescaled to fill the step. -/
  | exponential
  /-- Points drawn uniformly over the step. -/
  | uniform
  /-- Equal gaps. -/
  | equidistant
deriving Repr, DecidableEq

/-- The name of a shape in configuration files. -/
def ArrivalShape.tag : ArrivalShape → String
  | .exponential => "exponential"
  | .uniform => "uniform"
  | .equidistant => "equidistant"

def ArrivalShape.all : List ArrivalShape := [.exponential, .uniform, .equidistant]

/-- Relative differences at which a check warns, and at which it stops a replay. -/
structure Limits where
  warn : Float
  terminate : Float

/-- The pair describes a warning before a stop, both between nothing and all. -/
def Limits.ordered (l : Limits) : Bool :=
  match Binary64.rank? l.warn, Binary64.rank? l.terminate with
  | some warn, some terminate => 0 ≤ warn ∧ warn ≤ terminate ∧ terminate ≤ Binary64.oneBits
  | _, _ => false

structure Thresholds where
  requestedVsIssued : Limits := ⟨0.1, 0.2⟩
  issuedVsFailed : Limits := ⟨0.5, 0.75⟩

def Thresholds.limits (t : Thresholds) : HealthCheck → Limits
  | .requestedVsIssued => t.requestedVsIssued
  | .issuedVsFailed => t.issuedVsFailed

structure Configuration where
  seed : UInt64 := 0
  /-- What the paths of all output files begin with. -/
  outputStem : String := "data/out/experiment"
  /-- The tag of the training mode. -/
  clientTraining : String := "knative"
  /-- Steps of the measured phase. -/
  experimentDuration : Nat
  warmupDuration : Nat := 0
  granularity : Granularity := .minute
  arrivals : ArrivalShape := .exponential
  scrapingEnabled : Bool := false
  scrapingPeriodSeconds : Nat := 15
  withPromptBank : Bool := false
  /-- The directory of the specification files. -/
  specificationDir : String := "."
  batchPerDevice : Int := 32
  serverfulCopyReplicas : Nat := 4
  thresholds : Thresholds := {}

namespace Configuration

/-- The first rule the configuration breaks. -/
def fault? (c : Configuration) : Option ConfigFault :=
  if c.experimentDuration = 0 then some .experimentDuration
  else if c.batchPerDevice ≤ 0 then some .batchPerDevice
  else if c.serverfulCopyReplicas = 0 then some .serverfulCopyReplicas
  else if c.scrapingEnabled ∧ c.scrapingPeriodSeconds = 0 then some .scrapingPeriod
  else
    [HealthCheck.requestedVsIssued, .issuedVsFailed].findSome? fun check =>
      let limits := c.thresholds.limits check
      if limits.ordered then none else some (.limits check limits.warn limits.terminate)

def validate (c : Configuration) : Except ReplayError Unit :=
  match c.fault? with
  | some fault => .error (.config fault)
  | none => .ok ()

/-- Steps of the whole trace: with a warmup, the profiling step comes before it. -/
def traceDuration (c : Configuration) : Nat :=
  if 0 < c.warmupDuration then c.experimentDuration + c.warmupDuration + 1
  else c.experimentDuration

end Configuration

/-- What the replay of one experiment needs to know. -/
structure ReplayConfiguration where
  loader : Configuration
  /-- Steps to replay. -/
  traceDuration : Nat
  /-- Records every slot as successful without invoking anything. -/
  testMode : Bool
  /-- The platform manifest handed to the deployer. -/
  manifestPath : String

namespace ReplayConfiguration

def ofLoader (loader : Configuration) : ReplayConfiguration where
  loader := loader
  traceDuration := loader.traceDuration
  testMode := false
  manifestPath := "workloads/container/trace_func_go.yaml"

def withWarmup (c : ReplayConfiguration) : Bool := 0 < c.loader.warmupDuration

def granularity (c : ReplayConfiguration) : Granularity := c.loader.granularity

/-- The path of an output stream, such as `out_duration_10_ClientTraining_knative.csv`. -/
def outputPath (c : ReplayConfiguration) (stream extension : String) : String :=
  c.loader.outputStem ++ "_" ++ stream ++ "_" ++ toString c.traceDuration
    ++ "_ClientTraining_" ++ c.loader.clientTraining ++ "." ++ extension

end ReplayConfiguration
end TraceReplay
