import TraceReplay.Function
import TraceReplay.Notice

/-!
# Invocation policies

A policy decides whether a slot of the trace is dispatched and which function
receives it.  It is chosen once for an experiment and shared by its drivers.
-/

namespace TraceReplay

/-- What a policy says about a slot. -/
inductive Policy.Verdict where
  /-- The slot is dispatched to `target`; `sibling` is its place among the
  siblings, if it was taken from them. -/
  | fire (target : Function) (sibling : Option Nat)
  | skip
  | panic (message : String)

/-- The state of a driver when it resolves a slot. -/
structure Policy.Context where
  function : Function
  siblings : List Function
  /-- Slots issued so far, this one included. -/
  issued : Nat

structure Policy.Resolution where
  notices : List Notice
  verdict : Policy.Verdict

structure Policy where
  name : String
  kind : PolicyKind
  grouping : SiblingGrouping
  resolve : Policy.Context → Policy.Resolution

namespace Policy

/-- Fires a slot only on the variant whose GPU count is the batch size over the
batch size of one device, truncated. -/
def resolveGpuMatching (batchPerDevice : Int) (ctx : Context) : Resolution :=
  match ctx.function.batchStats[ctx.issued - 1]? with
  | none => ⟨[.noBatchSize ctx.function.name ctx.issued], .skip⟩
  | some batchSize =>
    if batchPerDevice = 0 then ⟨[], .panic "attempt to divide by zero"⟩
    else if batchSize = Int64.minValue ∧ batchPerDevice = -1 then
      ⟨[], .panic "attempt to divide with overflow"⟩
    else if ctx.function.gpuCount = some (batchSize.toInt.tdiv batchPerDevice) then
      ⟨[], .fire ctx.function none⟩
    else ⟨[], .skip⟩

def gpuMatching (batchPerDevice : Int) (grouping : SiblingGrouping) : Policy where
  name := "GpuMatchingPolicy[bsz_per_device=" ++ Decimal.intText batchPerDevice ++ "]"
  kind := .gpuMatching
  grouping := grouping
  resolve := resolveGpuMatching batchPerDevice

/-- Fires every slot on the driven function. -/
def passThrough : Policy where
  name := "PassThroughPolicy"
  kind := .passThrough
  grouping := .all
  resolve ctx := ⟨[], .fire ctx.function none⟩

/-- Fires every slot on one of the first `replicas` siblings, in turn. -/
def resolveReplicaFanOut (replicas : Nat) (ctx : Context) : Resolution :=
  let count := min replicas ctx.siblings.length
  let place := ctx.issued % count
  match ctx.siblings[place]? with
  | some target =>
    if count = 0 then ⟨[], .fire ctx.function none⟩ else ⟨[], .fire target (some place)⟩
  | none => ⟨[], .fire ctx.function none⟩

def replicaFanOut (replicas : Nat) : Policy where
  name := s!"ReplicaFanOutPolicy[replicas={replicas}]"
  kind := .replicaFanOut
  grouping := .serverfulCopies replicas
  resolve := resolveReplicaFanOut replicas

/-- The policy of a training mode. -/
def ofMode (mode : TrainingMode) (c : Configuration) : Policy :=
  match mode.policyKind with
  | .gpuMatching => gpuMatching c.batchPerDevice (mode.grouping c.serverfulCopyReplicas)
  | .passThrough => passThrough
  | .replicaFanOut => replicaFanOut c.serverfulCopyReplicas

/-- The policy of the configured mode; a tag that names no mode is reported and
passes everything through. -/
def ofConfiguration (c : Configuration) : List Notice × Policy :=
  match TrainingMode.ofTag? c.clientTraining with
  | some mode => ([], ofMode mode c)
  | none => ([.unknownMode c.clientTraining], passThrough)

/-- The class of behaviour a tag stands for. -/
def kindOfTag (tag : String) : List Notice × PolicyKind :=
  match TrainingMode.ofTag? tag with
  | some mode => ([], mode.policyKind)
  | none => ([.unknownMode tag], .passThrough)

end Policy
end TraceReplay
