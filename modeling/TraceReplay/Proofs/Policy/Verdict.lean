import TraceReplay.Policy
import TraceReplay.Proofs.Config.Valid

/-!
# Verdicts of the policies

A policy that is chosen by a valid configuration has a verdict on every slot, whatever the
training mode is, and also where its tag names none.  No batch is divided among devices that
hold nothing, and no turn is taken among no copies.
-/

namespace TraceReplay.Policy

variable {c : Configuration} {context : Context} {message : String}

/-- A batch can be divided among devices that hold something. -/
theorem gpuMatching_decides {batchPerDevice : Int} (hdevice : 0 < batchPerDevice) :
    (resolveGpuMatching batchPerDevice context).verdict ≠ .panic message := by
  unfold resolveGpuMatching
  split
  · exact Verdict.noConfusion
  · rename_i batchSize _
    have hsome : batchPerDevice ≠ 0 := by omega
    have hsmall : ¬(batchSize = Int64.minValue ∧ batchPerDevice = -1) := by
      rintro ⟨-, hnegative⟩
      omega
    rw [if_neg hsome, if_neg hsmall]
    split <;> exact Verdict.noConfusion

/-- Where there are no copies the function itself has its turn. -/
theorem replicaFanOut_decides {replicas : Nat} :
    (resolveReplicaFanOut replicas context).verdict ≠ .panic message := by
  unfold resolveReplicaFanOut
  simp only
  split
  · split <;> exact Verdict.noConfusion
  · exact Verdict.noConfusion

theorem ofMode_decides (hvalid : c.Valid) (mode : TrainingMode) :
    ((ofMode mode c).resolve context).verdict ≠ .panic message := by
  unfold ofMode
  split
  · exact gpuMatching_decides hvalid.device
  · exact Verdict.noConfusion
  · exact replicaFanOut_decides

/-- The policy of a valid configuration never panics. -/
theorem ofConfiguration_decides (hvalid : c.Valid) :
    ((ofConfiguration c).2.resolve context).verdict ≠ .panic message := by
  unfold ofConfiguration
  split
  · exact ofMode_decides hvalid _
  · exact Verdict.noConfusion

end TraceReplay.Policy
