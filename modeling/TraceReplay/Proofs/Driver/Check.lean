import TraceReplay.Driver
import TraceReplay.Proofs.Decimal.Ratio

/-!
# Checks at the end of a step

As long as no more is issued and no more has failed than was requested, the checks
never find the books wrong, and they stop the replay exactly when one of the ratios
reaches its upper limit.
-/

namespace TraceReplay

namespace Health

theorem check_zero (real : Int) (kind : HealthCheck) (thresholds : Thresholds) :
    check 0 real kind thresholds = .fine [] := by
  simp [check]

/-- A part of the whole is compared with the upper limit first. -/
theorem check_part (ideal real : Int) (hreal : 0 ≤ real) (hle : real ≤ ideal)
    (hideal : ideal ≠ 0) (kind : HealthCheck) (thresholds : Thresholds) :
    if reaches (Binary64.ratioRank (ideal - real) ideal) (thresholds.limits kind).terminate then
      check ideal real kind thresholds = .stop
    else ∃ notices, check ideal real kind thresholds = .fine notices := by
  have hpart : 0 ≤ ideal - real ∧ ideal - real ≤ ideal ∧ 0 < ideal := by omega
  obtain ⟨hnonneg, hone⟩ := Binary64.ratioRank_mem hpart.1 hpart.2.1 hpart.2.2
  have hvalid : ¬(Binary64.ratioRank (ideal - real) ideal < 0 ∨
      (Binary64.oneBits : Int) < Binary64.ratioRank (ideal - real) ideal) := by omega
  simp only [check, hideal, hvalid, if_false]
  by_cases hreaches : reaches (Binary64.ratioRank (ideal - real) ideal)
      (thresholds.limits kind).terminate
  · simp only [hreaches, if_true]
  · simp only [hreaches, Bool.false_eq_true, if_false]
    split
    · exact ⟨_, rfl⟩
    · exact ⟨_, rfl⟩

theorem reaches_mono {ratio more : Int} (hle : ratio ≤ more) {limit : Float}
    (hreaches : reaches ratio limit) : reaches more limit := by
  unfold reaches at hreaches ⊢
  cases hrank : Binary64.rank? limit with
  | none => simp [hrank] at hreaches
  | some rank =>
    simp only [hrank, Option.any_some, decide_eq_true_eq] at hreaches ⊢
    exact hreaches.trans hle

end Health

namespace Driver

variable {plan : Plan} {counters : Counters} {s : State}

/-- So large a part of what was requested in a step has failed that the replay stops. -/
def FailedTooMany (plan : Plan) (failed step : Nat) : Prop :=
  plan.function.invocationsAt step ≠ 0 ∧
    Health.reaches (Binary64.ratioRank failed (plan.function.invocationsAt step))
      plan.configuration.loader.thresholds.issuedVsFailed.terminate

/-- So large a part of what was requested in a step was not issued that the replay stops. -/
def IssuedTooFew (plan : Plan) (issued step : Nat) : Prop :=
  plan.function.invocationsAt step ≠ 0 ∧
    Health.reaches (Binary64.ratioRank ((plan.function.invocationsAt step : Int) - issued)
        (plan.function.invocationsAt step))
      plan.configuration.loader.thresholds.requestedVsIssued.terminate

/-- More failures do not keep a replay from stopping. -/
theorem FailedTooMany.mono {failed more step : Nat} (htooMany : FailedTooMany plan failed step)
    (hle : failed ≤ more) (hmore : more ≤ plan.function.invocationsAt step) :
    FailedTooMany plan more step := by
  obtain ⟨hrequested, hreaches⟩ := htooMany
  refine ⟨hrequested, Health.reaches_mono ?_ hreaches⟩
  apply Binary64.ratioRank_mono <;> omega

theorem checkFailures_cases (steps : List Nat) (notices : List Notice)
    (hfailed : ∀ step ∈ steps, counters.failedAt step ≤ plan.function.invocationsAt step) :
    ((∃ step ∈ steps, FailedTooMany plan (counters.failedAt step) step) ∧
      ∃ more, checkFailures plan counters steps notices = .stopped more) ∨
    ((∀ step ∈ steps, ¬FailedTooMany plan (counters.failedAt step) step) ∧
      ∃ more, checkFailures plan counters steps notices = .passed more) := by
  induction steps generalizing notices with
  | nil => exact .inr ⟨by simp, notices, rfl⟩
  | cons step steps ih =>
    have hstep := hfailed step List.mem_cons_self
    have hrest (more : List Notice) :=
      ih (notices ++ more) fun other hmem => hfailed other (List.mem_cons_of_mem _ hmem)
    have hgoesOn (hfine : ¬FailedTooMany plan (counters.failedAt step) step) (more : List Notice)
        (hcheck : Health.check (plan.function.invocationsAt step)
          ((plan.function.invocationsAt step : Int) - counters.failedAt step) .issuedVsFailed
          plan.configuration.loader.thresholds = .fine more) :
        ((∃ other ∈ step :: steps, FailedTooMany plan (counters.failedAt other) other) ∧
          ∃ more, checkFailures plan counters (step :: steps) notices = .stopped more) ∨
        ((∀ other ∈ step :: steps, ¬FailedTooMany plan (counters.failedAt other) other) ∧
          ∃ more, checkFailures plan counters (step :: steps) notices = .passed more) := by
      simp only [checkFailures, hcheck]
      rcases hrest more with ⟨⟨other, hmem, htooMany⟩, hstopped⟩ | ⟨hnone, hpassed⟩
      · exact .inl ⟨⟨other, List.mem_cons_of_mem _ hmem, htooMany⟩, hstopped⟩
      · exact .inr ⟨List.forall_mem_cons.mpr ⟨hfine, hnone⟩, hpassed⟩
    by_cases hempty : plan.function.invocationsAt step = 0
    · refine hgoesOn (fun htooMany => htooMany.1 hempty) [] ?_
      rw [hempty]
      exact Health.check_zero _ _ _
    have hcheck := Health.check_part (plan.function.invocationsAt step)
      ((plan.function.invocationsAt step : Int) - counters.failedAt step) (by omega)
      (by omega) (by omega) .issuedVsFailed plan.configuration.loader.thresholds
    rw [sub_sub_cancel] at hcheck
    split at hcheck
    · rename_i hreaches
      refine .inl ⟨⟨step, List.mem_cons_self, hempty, hreaches⟩, ?_⟩
      simp only [checkFailures, hcheck]
      exact ⟨_, rfl⟩
    · rename_i hbelow
      obtain ⟨more, hfine⟩ := hcheck
      exact hgoesOn (fun htooMany => hbelow htooMany.2) more hfine

/-- Steps of a second are not judged. -/
theorem checkStep_second (hsecond : plan.configuration.granularity = .second) :
    checkStep plan counters s = .passed [] := by
  simp [checkStep, hsecond]

/-- Too few slots of the step were issued, or too many of a step so far have failed. -/
def Unhealthy (plan : Plan) (step issued : Nat) (failed : Nat → Nat) : Prop :=
  IssuedTooFew plan issued step ∨
    ∃ earlier ≤ step, FailedTooMany plan (failed earlier) earlier

theorem Unhealthy.mono {step issued : Nat} {failed more : Nat → Nat}
    (hunhealthy : Unhealthy plan step issued failed)
    (hle : ∀ earlier ≤ step, failed earlier ≤ more earlier)
    (hmore : ∀ earlier ≤ step, more earlier ≤ plan.function.invocationsAt earlier) :
    Unhealthy plan step issued more := by
  rcases hunhealthy with htooFew | ⟨earlier, hearlier, htooMany⟩
  · exact .inl htooFew
  · exact .inr ⟨earlier, hearlier, htooMany.mono (hle earlier hearlier) (hmore earlier hearlier)⟩

/-- The condition under which a replay stops at the end of a step. -/
structure Stops (plan : Plan) (counters : Counters) (s : State) : Prop where
  minute : plan.configuration.granularity = .minute
  judged : Unhealthy plan s.step s.slot counters.failedAt

/-- The checks stop the replay or let it pass. -/
theorem checkStep_cases (hslot : s.slot ≤ plan.function.invocationsAt s.step)
    (hfailed : ∀ step ≤ s.step, counters.failedAt step ≤ plan.function.invocationsAt step) :
    (Stops plan counters s ∧ ∃ notices, checkStep plan counters s = .stopped notices) ∨
    (¬Stops plan counters s ∧ ∃ notices, checkStep plan counters s = .passed notices) := by
  cases hunit : plan.configuration.granularity with
  | second =>
    exact .inr ⟨fun hstops => Granularity.noConfusion (hunit.symm.trans hstops.minute), [],
      checkStep_second hunit⟩
  | minute =>
    have hfailures (notices : List Notice) := checkFailures_cases (List.range (s.step + 1)) notices
      fun step hstep => hfailed step (by simpa [Nat.lt_succ_iff] using hstep)
    have hfine (notices : List Notice) (hissued : ¬IssuedTooFew plan s.slot s.step)
        (hcheck : Health.check (plan.function.invocationsAt s.step) s.slot .requestedVsIssued
          plan.configuration.loader.thresholds = .fine notices) :
        (Stops plan counters s ∧ ∃ notices, checkStep plan counters s = .stopped notices) ∨
        (¬Stops plan counters s ∧ ∃ notices, checkStep plan counters s = .passed notices) := by
      simp only [checkStep, hunit, hcheck]
      rcases hfailures notices with ⟨⟨step, hmem, htooMany⟩, hstopped⟩ | ⟨hnone, hpassed⟩
      · exact .inl ⟨⟨hunit, .inr ⟨step, by simpa [Nat.lt_succ_iff] using hmem, htooMany⟩⟩, hstopped⟩
      · refine .inr ⟨fun hstops => ?_, hpassed⟩
        rcases hstops.judged with htooFew | ⟨step, hstep, htooMany⟩
        · exact hissued htooFew
        · exact hnone step (by simpa [Nat.lt_succ_iff] using hstep) htooMany
    by_cases hempty : plan.function.invocationsAt s.step = 0
    · refine hfine [] (fun htooFew => htooFew.1 hempty) ?_
      rw [hempty]
      exact Health.check_zero _ _ _
    have hcheck := Health.check_part (plan.function.invocationsAt s.step) s.slot (by omega)
      (by omega) (by omega) .requestedVsIssued plan.configuration.loader.thresholds
    split at hcheck
    · rename_i hreaches
      refine .inl ⟨⟨hunit, .inl ⟨hempty, hreaches⟩⟩, ?_⟩
      simp only [checkStep, hunit, hcheck]
      exact ⟨_, rfl⟩
    · rename_i hbelow
      obtain ⟨notices, hcheck⟩ := hcheck
      exact hfine notices (fun htooFew => hbelow htooFew.2) hcheck

theorem checkStep_stopped (hslot : s.slot ≤ plan.function.invocationsAt s.step)
    (hfailed : ∀ step ≤ s.step, counters.failedAt step ≤ plan.function.invocationsAt step) :
    (∃ notices, checkStep plan counters s = .stopped notices) ↔ Stops plan counters s := by
  rcases checkStep_cases hslot hfailed with ⟨hstops, hstopped⟩ | ⟨hgoesOn, _, hpassed⟩
  · exact iff_of_true hstopped hstops
  · apply iff_of_false _ hgoesOn
    rintro ⟨notices, hstopped⟩
    exact StepEnd.noConfusion (hpassed.symm.trans hstopped)

end Driver
end TraceReplay
