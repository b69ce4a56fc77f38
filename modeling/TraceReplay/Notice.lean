import TraceReplay.Policy.Mode

/-!
# Notices

What a run reports besides its result: each notice is a fact about the run, with
the weight and the wording of its log line.
-/

namespace TraceReplay

inductive Notice.Weight where
  | info
  | warning
  | error
deriving Repr, DecidableEq

inductive Notice where
  | preDeployed (count : Nat)
  | generated (count : Nat) (dir : String)
  | started (functions steps : Nat) (policy : String)
  | enteredExecution (function : String)
  | expecting (total : Nat)
  | collected (records jobs : Nat)
  | finished (issued successful failed : Int)
  | closeToLimit (check : HealthCheck) (ideal real : Int) (ratio : Float)
  | issuedTooFew (function : String) (issued requested : Int) (step : Nat)
  | failedTooMany (function : String) (failed requested : Int) (step : Nat)
  | terminatedEarly (function : String)
  | withoutAdmission (mode : TrainingMode)
  | samplingFailed (cause : ReplayError)
  | erroneousRuntime (runtime : Nat) (id : String)
  | schedulerGone (id : String)
  | unknownMode (tag : String)
  | noBatchSize (function : String) (issued : Nat)
  | recordsLost (id : String)
  | replayFailed (cause : ReplayError)

def HealthCheck.word : HealthCheck → String
  | .requestedVsIssued => "RequestedVsIssued"
  | .issuedVsFailed => "IssuedVsFailed"

/-- What is said of a tag that names no mode. -/
def TrainingMode.unknownMessage (tag : String) : String :=
  s!"Invalid client_training value: {tag}"

namespace Notice

open Decimal (intText)

def weight : Notice → Weight
  | preDeployed .. | generated .. | started .. | enteredExecution .. | expecting .. | collected ..
  | finished .. => .info
  | closeToLimit .. | issuedTooFew .. | failedTooMany .. | terminatedEarly ..
  | withoutAdmission .. | samplingFailed .. | erroneousRuntime .. | schedulerGone .. => .warning
  | unknownMode .. | noBatchSize .. | recordsLost .. | replayFailed .. => .error

def message : Notice → String
  | preDeployed count => s!"Using {count} pre-deployed functions"
  | generated count dir => s!"Generated specifications of {count} functions in {dir}"
  | started functions steps policy =>
    s!"Starting experiment with {functions} functions, {steps} trace minutes, policy {policy}"
  | enteredExecution function => s!"Function {function} entered the execution phase"
  | expecting total => s!"Expecting {total} records"
  | collected records jobs => s!"Collected {records} invocation records and {jobs} job records"
  | finished issued successful failed =>
    "Experiment finished: " ++ intText issued ++ " issued, " ++ intText successful
      ++ " successful, " ++ intText failed ++ " failed"
  | closeToLimit check ideal real ratio =>
    check.word ++ " check is close to its limit: ideal = " ++ intText ideal ++ ", real = "
      ++ intText real ++ ", ratio = " ++ Decimal.fixedText 3 ratio
  | issuedTooFew function issued requested step =>
    s!"Function {function} issued " ++ intText issued ++ " of " ++ intText requested
      ++ s!" invocations in minute {step}, stopping"
  | failedTooMany function failed requested step =>
    s!"Function {function} failed " ++ intText failed ++ " of " ++ intText requested
      ++ s!" invocations in minute {step}, stopping"
  | terminatedEarly function => s!"Function {function} was terminated early"
  | withoutAdmission mode =>
    "Training mode " ++ mode.tag ++ " runs without an admission scheduler"
  | samplingFailed cause => "Metrics scrapper failed: " ++ cause.message
  | erroneousRuntime runtime id => s!"Erroneous execution time {runtime} ms requested by {id}"
  | schedulerGone id => s!"Admission scheduler is gone, invoking {id} anyway"
  | unknownMode tag => TrainingMode.unknownMessage tag
  | noBatchSize function issued =>
    s!"Function {function} has no batch size for invocation {issued}"
  | recordsLost id => s!"Record collector is gone, records of {id} are lost"
  | replayFailed cause => "Replay failed, stopping the experiment: " ++ cause.message

/-- The log line: weight and message. -/
def line (n : Notice) : String :=
  (match n.weight with
    | .info => "INFO "
    | .warning => "WARN "
    | .error => "ERROR ") ++ n.message

end Notice
end TraceReplay
