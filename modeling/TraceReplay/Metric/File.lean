import TraceReplay.Document
import TraceReplay.Metric

/-!
# Metrics in files

Samples are read with every field missing or given; the messages of the admission
exchange have to be complete.
-/

namespace TraceReplay

open Document

variable {ν : Type} [Document ν]

def ClusterUsage.read (value : ν) : Option ClusterUsage := do
  match ← fields ["timestamp", "cpu", "cpuPercentage", "memory", "memoryPercentage", "pods",
      "masterCpuPercentage", "masterMemoryPercentage"] value with
  | [timestamp, cpu, cpuPercentage, memory, memoryPercentage, pods, masterCpu, masterMemory] =>
    some {
      timestamp := ← withDefault integer? 0 timestamp
      cpu := ← withDefault (listOf text?) [] cpu
      cpuPercentage := ← withDefault (listOf real?) [] cpuPercentage
      memory := ← withDefault (listOf text?) [] memory
      memoryPercentage := ← withDefault (listOf real?) [] memoryPercentage
      pods := ← withDefault (listOf integer?) [] pods
      masterCpuPercentage := ← withDefault real? 0.0 masterCpu
      masterMemoryPercentage := ← withDefault real? 0.0 masterMemory }
  | _ => none

def PlatformStats.read (value : ν) : Option PlatformStats := do
  match ← fields PlatformStats.header value with
  | [timestamp, desiredPods, unreadyPods, pendingPods, requestedPods, runningPods,
      activatorQueue, activatorRequestCount, stableQueue, panicQueue, schedulingP99,
      schedulingP50, placementP99, placementP50] =>
    let integer := withDefault (integer? (ν := ν)) 0
    let real := withDefault (real? (ν := ν)) 0.0
    some {
      timestamp := ← integer timestamp
      desiredPods := ← integer desiredPods
      unreadyPods := ← integer unreadyPods
      pendingPods := ← integer pendingPods
      requestedPods := ← integer requestedPods
      runningPods := ← integer runningPods
      activatorQueue := ← real activatorQueue
      activatorRequestCount := ← integer activatorRequestCount
      autoscalerStableQueue := ← real stableQueue
      autoscalerPanicQueue := ← real panicQueue
      schedulingP99 := ← real schedulingP99
      schedulingP50 := ← real schedulingP50
      placementP99 := ← real placementP99
      placementP50 := ← real placementP50 }
  | _ => none

def PlacementRequest.read (value : ν) : Option PlacementRequest := do
  match ← fields ["invocation_id", "function", "batch_size", "iterations", "deadline",
      "prev_replica"] value with
  | [invocationId, function, batchSize, iterations, deadline, previousReplicas] =>
    some {
      invocationId := ← required text? invocationId
      function := ← required text? function
      batchSize := ← required integer? batchSize
      iterations := ← required integer? iterations
      deadline := ← required integer? deadline
      previousReplicas := ← required (listOf integer?) previousReplicas }
  | _ => none

def PlacementReply.read (value : ν) : Option PlacementReply := do
  match ← fields ["invocation_id", "replica"] value with
  | [invocationId, replicas] =>
    some ⟨← required text? invocationId, ← required (listOf integer?) replicas⟩
  | _ => none

end TraceReplay
