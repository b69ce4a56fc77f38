import TraceReplay.Function
import TraceReplay.Invoker

/-!
# The emulated invoker

Holds each invocation for the runtime it asks for, with the memory it asks for,
instead of calling a remote function.  A runtime of zero is erroneous data and
fails at once.
-/

namespace TraceReplay

/-- Memory is allocated in whole pages of this size. -/
def pageSize : Nat := 4096

/-- Pages needed to hold some MiB. -/
def pagesFor (memory : Nat) : Nat := (memory * 2 ^ 20 + pageSize - 1) / pageSize

namespace Emulated

def wordMax : Int := 2 ^ 32 - 1

/-- The outcome of an invocation that has not done anything. -/
def untried (r : InvocationRequest) (clock : Clock) : Outcome where
  success := false
  record := {
    invocationId := r.invocationId
    instanceName := r.function.name
    startTime := clock.wall
    requestedDuration := min (r.specification.runtime.toNat * 1000) wordMax }
  job := { invocationId := r.invocationId }

/-- The outcome of an invocation that has run on a replica since `clock`. -/
def completed (r : InvocationRequest) (outcome : Outcome) (replica : Int) (clock : Clock) :
    Outcome :=
  let duration : Int := r.specification.runtime.toNat * 1000
  let stats := r.specification.stats.getD ⟨0, 0, 0⟩
  { success := true
    record := { outcome.record with
      startTime := clock.wall
      responseTime := duration
      actualDuration := min duration wordMax
      actualMemoryUsage := (pagesFor r.specification.memory.toNat * pageSize / 1024) % 2 ^ 32 }
    job := outcome.job.push {
      startTime := clock.wall
      replica := replica
      gpuCount := (r.function.gpuCount.getD 0).bmod (2 ^ 32)
      computeTime := duration
      executionTime := duration
      startIteration := 0
      endIteration := stats.iterations.toInt
      totalIteration := stats.iterations.toInt
      batchSize := stats.batchSize.toInt } }

def execution (r : InvocationRequest) (outcome : Outcome) (notices : List Notice) (replica : Int)
    (clock : Clock) : Execution where
  notices := notices
  delay := r.specification.runtime.toNat
  ending := .returns (completed r outcome replica clock)

/-- The execution after the scheduler has answered, on the first replica of its
answer; without an answer it takes place all the same. -/
def afterConsulting (r : InvocationRequest) (outcome : Outcome) (reply : Option PlacementReply)
    (clock : Clock) : Execution :=
  match reply with
  | some reply => execution r outcome [] (reply.replicas.headD 0) clock
  | none => execution r outcome [.schedulerGone r.invocationId] 0 clock

/-- What an invocation asks the admission scheduler. -/
def placement (r : InvocationRequest) (stats : ModeStats) : PlacementRequest where
  invocationId := r.invocationId
  function := r.function.name
  batchSize := stats.batchSize.toInt
  iterations := stats.iterations.toInt
  deadline := stats.deadline.toInt

def attempt (r : InvocationRequest) (clock : Clock) : Attempt :=
  let outcome := untried r clock
  let runtime := r.specification.runtime.toNat
  if runtime = 0 then
    .execute ⟨[.erroneousRuntime runtime r.invocationId], 0, .returns outcome⟩
  else
    match r.hasAdmission, r.specification.stats with
    | true, some stats => .consult (placement r stats) (afterConsulting r outcome)
    | _, _ => .execute (execution r outcome [] 0 clock)

end Emulated

def Invoker.emulated : Invoker := { name := "EmulatedInvoker", attempt := Emulated.attempt }

end TraceReplay
