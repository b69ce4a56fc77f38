import TraceReplay.Json.Writing

/-!
# Metrics

Samples of the cluster and of the platform, and the two messages of the admission
exchange.
-/

namespace TraceReplay

/-- Resource usage of the cluster nodes at one time. -/
structure ClusterUsage where
  /-- Unix time in microseconds. -/
  timestamp : Int := 0
  cpu : List String := []
  cpuPercentage : List Float := []
  memory : List String := []
  memoryPercentage : List Float := []
  pods : List Int := []
  masterCpuPercentage : Float := 0.0
  masterMemoryPercentage : Float := 0.0

def ClusterUsage.toJson (u : ClusterUsage) : Json :=
  .record [
    ("timestamp", .ofInt u.timestamp),
    ("cpu", .list .ofText u.cpu),
    ("cpuPercentage", .list .ofFloat u.cpuPercentage),
    ("memory", .list .ofText u.memory),
    ("memoryPercentage", .list .ofFloat u.memoryPercentage),
    ("pods", .list .ofInt u.pods),
    ("masterCpuPercentage", .ofFloat u.masterCpuPercentage),
    ("masterMemoryPercentage", .ofFloat u.masterMemoryPercentage)]

/-- Statistics of the platform's autoscaler and activator at one time. -/
structure PlatformStats where
  /-- Unix time in microseconds. -/
  timestamp : Int := 0
  desiredPods : Int := 0
  unreadyPods : Int := 0
  pendingPods : Int := 0
  requestedPods : Int := 0
  runningPods : Int := 0
  activatorQueue : Float := 0.0
  activatorRequestCount : Int := 0
  autoscalerStableQueue : Float := 0.0
  autoscalerPanicQueue : Float := 0.0
  schedulingP99 : Float := 0.0
  schedulingP50 : Float := 0.0
  placementP99 : Float := 0.0
  placementP50 : Float := 0.0

namespace PlatformStats

def header : List String :=
  ["timestamp", "desiredPods", "unreadyPods", "pendingPods", "requestedPods", "runningPods",
    "activatorQueue", "activatorRequestCount", "autoscalerStableQueue", "autoscalerPanicQueue",
    "schedulingP99", "schedulingP50", "e2ePlacementP99", "e2ePlacementP50"]

/-- Doubles in tables: as in JSON texts, but a positive exponent has no sign. -/
def fieldStyle : Decimal.Style :=
  { Json.numberStyle with exponentSign := "", notANumber := "NaN", infinity := "inf" }

def row (s : PlatformStats) : List String :=
  let int := Decimal.intText
  let real := fieldStyle.write
  [int s.timestamp, int s.desiredPods, int s.unreadyPods, int s.pendingPods, int s.requestedPods,
    int s.runningPods, real s.activatorQueue, int s.activatorRequestCount,
    real s.autoscalerStableQueue, real s.autoscalerPanicQueue, real s.schedulingP99,
    real s.schedulingP50, real s.placementP99, real s.placementP50]

end PlatformStats

/-- Asks an admission scheduler to place an invocation. -/
structure PlacementRequest where
  invocationId : String
  function : String
  batchSize : Int
  iterations : Int
  deadline : Int
  previousReplicas : List Int := []
deriving DecidableEq

/-- Where the scheduler puts an invocation. -/
structure PlacementReply where
  invocationId : String
  replicas : List Int
deriving DecidableEq

def PlacementRequest.toJson (r : PlacementRequest) : Json :=
  .record [
    ("invocation_id", .ofText r.invocationId),
    ("function", .ofText r.function),
    ("batch_size", .ofInt r.batchSize),
    ("iterations", .ofInt r.iterations),
    ("deadline", .ofInt r.deadline),
    ("prev_replica", .list .ofInt r.previousReplicas)]

def PlacementReply.toJson (r : PlacementReply) : Json :=
  .record [("invocation_id", .ofText r.invocationId), ("replica", .list .ofInt r.replicas)]

end TraceReplay
