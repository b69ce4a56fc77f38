import TraceReplay.Decimal.Style
import TraceReplay.Files.Tree

/-!
# Errors

The conditions that stop an experiment, by their causes.  A failed invocation is
no error: it is recorded like a successful one.
-/

namespace TraceReplay

/-- The two comparisons a running replay is held to. -/
inductive HealthCheck where
  | requestedVsIssued
  | issuedVsFailed
deriving Repr, DecidableEq

/-- What a configuration is refused for. -/
inductive ConfigFault where
  | experimentDuration
  | batchPerDevice
  | serverfulCopyReplicas
  | scrapingPeriod
  | limits (check : HealthCheck) (warn terminate : Float)
  | rampStep

def ConfigFault.message : ConfigFault → String
  | .experimentDuration => "experiment_duration must be positive"
  | .batchPerDevice => "bsz_per_device must be positive"
  | .serverfulCopyReplicas => "serverful_copy_replicas must be positive"
  | .scrapingPeriod => "metric_scraping_period_seconds must be positive"
  | .limits check warn terminate =>
    let name := match check with
      | .requestedVsIssued => "requested_vs_issued"
      | .issuedVsFailed => "failure"
    name ++ " thresholds must satisfy 0 <= warn (" ++ Decimal.plain.write warn
      ++ ") <= terminate (" ++ Decimal.plain.write terminate ++ ") <= 1"
  | .rampStep => "synthesizer step must be positive"

/-- How a specification fails its function. -/
inductive SpecificationFault where
  /-- The numbers of steps differ. -/
  | stepCounts (gapSteps slotSteps traceSteps : Nat)
  /-- The numbers of slots of a step differ. -/
  | slotCounts (step gaps slots expected : Nat)
  | missingSlot (step index : Nat)
  /-- There is no table to draw a runtime or a memory size from. -/
  | malformedStatistics
deriving Repr, DecidableEq

def SpecificationFault.message : SpecificationFault → String
  | .stepCounts gapSteps slotSteps traceSteps =>
    s!"{gapSteps} IAT steps and {slotSteps} runtime steps for a trace of {traceSteps} steps"
  | .slotCounts step gaps slots expected =>
    s!"step {step} has {gaps} IATs and {slots} runtime specifications, expected {expected}"
  | .missingSlot step index => s!"no slot {index} in step {step}"
  | .malformedStatistics => "runtime or memory statistics are missing or malformed"

/-- Causes that stop an experiment. -/
inductive ReplayError where
  | file (path : String) (fault : Files.Fault)
  | json
  | yaml
  | csv
  | config (fault : ConfigFault)
  | invalidSpecification (function : String) (fault : SpecificationFault)
  /-- More was issued, or failed, than was requested. -/
  | invalidRatio (ideal real : Int)
  | deploy (reason : String)
  /-- Fewer records came in than were announced. -/
  | incompleteCollection (expected records jobs : Nat)
  /-- A background task panicked. -/
  | panicked (message : String)
  /-- The replay waits for an answer nobody will give. -/
  | stalled

def Files.Fault.message : Files.Fault → String
  | .notFound => "No such file or directory (os error 2)"
  | .notADirectory => "Not a directory (os error 20)"
  | .isADirectory => "Is a directory (os error 21)"
  | .alreadyExists => "File exists (os error 17)"

def ReplayError.message : ReplayError → String
  | .file path fault => s!"I/O error on {path}: " ++ fault.message
  | .json => "JSON error: the text does not have the expected form"
  | .yaml => "YAML error: the text does not have the expected form"
  | .csv => "CSV error: a field of the record is a list"
  | .config fault => "invalid configuration: " ++ fault.message
  | .invalidSpecification function fault =>
    s!"invalid specification for function {function}: " ++ fault.message
  | .invalidRatio ideal real =>
    "invalid arguments provided to runtime assertion: ideal = " ++ Decimal.intText ideal
      ++ ", real = " ++ Decimal.intText real
  | .deploy reason => s!"deployment failed: {reason}"
  | .incompleteCollection expected records jobs =>
    s!"record streams closed after {records} of {expected} records ({jobs} job records)"
  | .panicked message =>
    s!"background task failed: task # panicked with message \"{message}\""
  | .stalled => "background task failed: the replay waits for an answer nobody will give"

end TraceReplay
