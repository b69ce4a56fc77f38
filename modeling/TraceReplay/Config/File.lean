import TraceReplay.Config
import TraceReplay.Document

/-!
# Configuration files

The fields of a configuration and their defaults; only the duration has to be
given.  The same rules read every format.
-/

namespace TraceReplay

open Document

variable {ν : Type} [Document ν]

def Granularity.read (value : ν) : Option Granularity := do
  let name ← variant? (Granularity.all.map (·.tag)) value
  Granularity.all.find? (·.tag = name)

def ArrivalShape.read (value : ν) : Option ArrivalShape := do
  let name ← variant? (ArrivalShape.all.map (·.tag)) value
  ArrivalShape.all.find? (·.tag = name)

def Thresholds.read (value : ν) : Option Thresholds := do
  let fallback : Thresholds := {}
  match ← fields ["requested_vs_issued_warn", "requested_vs_issued_terminate", "failure_warn",
      "failure_terminate"] value with
  | [issueWarn, issueTerminate, failureWarn, failureTerminate] =>
    some {
      requestedVsIssued := {
        warn := ← withDefault real? fallback.requestedVsIssued.warn issueWarn
        terminate := ← withDefault real? fallback.requestedVsIssued.terminate issueTerminate }
      issuedVsFailed := {
        warn := ← withDefault real? fallback.issuedVsFailed.warn failureWarn
        terminate := ← withDefault real? fallback.issuedVsFailed.terminate failureTerminate } }
  | _ => none

/-- A configuration, not yet validated. -/
def Configuration.read (value : ν) : Option Configuration := do
  let fallback : Configuration := { experimentDuration := 1 }
  match ← fields ["seed", "output_path_prefix", "client_training", "experiment_duration",
      "warmup_duration", "granularity", "iat_distribution", "enable_metrics_scrapping",
      "metric_scraping_period_seconds", "with_prompt_bank", "specification_dir",
      "bsz_per_device", "serverful_copy_replicas", "thresholds"] value with
  | [seed, outputStem, clientTraining, experimentDuration, warmupDuration, granularity, arrivals,
      scrapingEnabled, scrapingPeriod, withPromptBank, specificationDir, batchPerDevice, replicas,
      thresholds] =>
    some {
      seed := ← withDefault uint64? fallback.seed seed
      outputStem := ← withDefault text? fallback.outputStem outputStem
      clientTraining := ← withDefault text? fallback.clientTraining clientTraining
      experimentDuration := ← required (naturalBelow (2 ^ 64)) experimentDuration
      warmupDuration := ←
        withDefault (naturalBelow (2 ^ 64)) fallback.warmupDuration warmupDuration
      granularity := ← withDefault Granularity.read fallback.granularity granularity
      arrivals := ← withDefault ArrivalShape.read fallback.arrivals arrivals
      scrapingEnabled := ← withDefault truth? fallback.scrapingEnabled scrapingEnabled
      scrapingPeriodSeconds := ←
        withDefault (naturalBelow (2 ^ 64)) fallback.scrapingPeriodSeconds scrapingPeriod
      withPromptBank := ← withDefault truth? fallback.withPromptBank withPromptBank
      specificationDir := ← withDefault text? fallback.specificationDir specificationDir
      batchPerDevice := ←
        withDefault (integerIn (-2 ^ 63) (2 ^ 63)) fallback.batchPerDevice batchPerDevice
      serverfulCopyReplicas := ←
        withDefault (naturalBelow (2 ^ 64)) fallback.serverfulCopyReplicas replicas
      thresholds := ← withDefault Thresholds.read fallback.thresholds thresholds }
  | _ => none

end TraceReplay
