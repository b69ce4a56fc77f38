import TraceReplay.Health

/-!
# Valid configurations

What can be relied on once a configuration has been validated: nothing is divided by zero,
something is replayed, and the limits of the checks are proportions in their order.
-/

namespace TraceReplay

namespace Configuration

structure Valid (c : Configuration) : Prop where
  duration : 0 < c.experimentDuration
  device : 0 < c.batchPerDevice
  replicas : 0 < c.serverfulCopyReplicas
  period : c.scrapingEnabled = true → 0 < c.scrapingPeriodSeconds
  limits : ∀ check, (c.thresholds.limits check).ordered = true

theorem fault?_eq_none_iff {c : Configuration} : c.fault? = none ↔ c.Valid := by
  unfold fault?
  constructor
  · intro hnone
    split at hnone
    · exact absurd hnone (by simp)
    rename_i hduration
    split at hnone
    · exact absurd hnone (by simp)
    rename_i hdevice
    split at hnone
    · exact absurd hnone (by simp)
    rename_i hreplicas
    split at hnone
    · exact absurd hnone (by simp)
    rename_i hperiod
    have hordered (check : HealthCheck) : (c.thresholds.limits check).ordered = true := by
      have hmem : check ∈ [HealthCheck.requestedVsIssued, .issuedVsFailed] := by
        cases check <;> simp
      simpa using List.findSome?_eq_none_iff.mp hnone check hmem
    exact ⟨by omega, by omega, by omega, fun henabled => by
      have hzero := not_and.mp hperiod henabled
      omega, hordered⟩
  · intro hvalid
    have hperiod : ¬(c.scrapingEnabled = true ∧ c.scrapingPeriodSeconds = 0) := by
      rintro ⟨henabled, hzero⟩
      exact Nat.ne_of_gt (hvalid.period henabled) hzero
    simp [Nat.ne_of_gt hvalid.duration, Int.not_le.mpr hvalid.device,
      Nat.ne_of_gt hvalid.replicas, hperiod, hvalid.limits]

theorem validate_ok_iff {c : Configuration} : c.validate = .ok () ↔ c.Valid := by
  rw [← fault?_eq_none_iff, validate]
  cases c.fault? <;> simp

end Configuration

namespace Limits

/-- The limit at which a replay stops is zero. -/
def Zero (l : Limits) : Prop := Binary64.rank? l.terminate = some 0

/-- A limit that is in order is reached by a difference of nothing only if it is zero. -/
theorem reaches_zero_iff {l : Limits} (hordered : l.ordered = true) :
    Health.reaches 0 l.terminate = true ↔ l.Zero := by
  unfold ordered at hordered
  unfold Zero Health.reaches
  cases hwarn : Binary64.rank? l.warn with
  | none => simp [hwarn] at hordered
  | some warn =>
    cases hterminate : Binary64.rank? l.terminate with
    | none => simp [hwarn, hterminate] at hordered
    | some terminate =>
      simp only [hwarn, hterminate, decide_eq_true_eq] at hordered
      simp only [Option.any_some, decide_eq_true_eq, Option.some.injEq]
      omega

end Limits
end TraceReplay
