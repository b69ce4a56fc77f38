import TraceReplay.Config

/-!
# Training modes

The modes an experiment can be run in, the class of behaviour each belongs to and
how it groups functions.
-/

namespace TraceReplay

inductive TrainingMode where
  | multi
  | hived
  | infless
  | elastic
  | caerus
  | batchPriority
  | pipelineBatchPriority
  | knative
  | elasticFlow
deriving Repr, DecidableEq

/-- Classes of behaviour. -/
inductive PolicyKind where
  /-- Only the variant whose GPU count fits the batch size fires. -/
  | gpuMatching
  /-- Every slot fires on its own function. -/
  | passThrough
  /-- Every slot fires, in turn over serverful copies of the function. -/
  | replicaFanOut
deriving Repr, DecidableEq

def PolicyKind.tag : PolicyKind → String
  | .gpuMatching => "gpu_matching"
  | .passThrough => "pass_through"
  | .replicaFanOut => "replica_fan_out"

/-- How functions are grouped into a driver with its siblings. -/
inductive SiblingGrouping where
  /-- Every function has a driver, all functions are siblings. -/
  | all
  /-- Every function has a driver, its siblings are the variants of its logical function. -/
  | gpuVariants
  /-- Every `replicas`-th function has a driver, its siblings are the copies. -/
  | serverfulCopies (replicas : Nat)
deriving Repr, DecidableEq

namespace TrainingMode

def tag : TrainingMode → String
  | .multi => "multi"
  | .hived => "hived"
  | .infless => "infless"
  | .elastic => "elastic"
  | .caerus => "caerus"
  | .batchPriority => "batch_priority"
  | .pipelineBatchPriority => "pipeline_batch_priority"
  | .knative => "knative"
  | .elasticFlow => "elasticflow"

def all : List TrainingMode :=
  [.multi, .hived, .infless, .elastic, .caerus, .batchPriority, .pipelineBatchPriority, .knative,
    .elasticFlow]

/-- The mode a tag names. -/
def ofTag? (tag : String) : Option TrainingMode := all.find? (·.tag = tag)

def policyKind : TrainingMode → PolicyKind
  | .multi | .hived | .infless | .elastic => .gpuMatching
  | .caerus | .batchPriority | .pipelineBatchPriority | .knative => .passThrough
  | .elasticFlow => .replicaFanOut

def grouping (replicas : Nat) : TrainingMode → SiblingGrouping
  | .hived | .infless | .elastic => .gpuVariants
  | .elasticFlow => .serverfulCopies replicas
  | _ => .all

/-- Whether invocations ask an admission scheduler first. -/
def requiresAdmission : TrainingMode → Bool
  | .elastic | .infless | .elasticFlow => true
  | _ => false

end TrainingMode
end TraceReplay
