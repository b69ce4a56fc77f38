import TraceReplay.Sampling
import Mathlib

/-!
# The course of a sampling

If nobody stops it a sampling goes on for ever, one sample after the other, each when it is
due or when the source is free, whichever comes later.  A sampling that is stopped has taken
exactly the samples that begin until then, each of them whole.
-/

namespace TraceReplay.Sampling

/-- Where a sampling is: which sample of its source comes next, when it is due, and when the
source is free. -/
structure Position where
  next : Nat
  due : Nat
  clock : Clock

/-- A sampling that starts; its first sample is due after one period. -/
def Position.start (period : Nat) (clock : Clock) (first : Nat) : Position where
  next := first
  due := clock.now + period
  clock := clock

namespace Position

/-- When the next sample begins. -/
def begins (position : Position) : Nat := max position.due position.clock.now

section Source

variable (source : MetricSource)

/-- The next sample. -/
def sample (position : Position) : Sample :=
  (take source position.next { position.clock with now := position.begins }).1

/-- The time at which the next sample is complete. -/
def ends (position : Position) : Clock :=
  (take source position.next { position.clock with now := position.begins }).2

variable (period : Nat)

/-- Where the sampling is after its next sample. -/
def advance (position : Position) : Position where
  next := position.next + 1
  due := nextDue period position.due position.begins
  clock := position.ends source

/-- Where the sampling is after some more samples. -/
def after (position : Position) (count : Nat) : Position := (advance source period)^[count] position

end Source

variable {source : MetricSource} {period stop : Nat} {position : Position}

theorem after_succ (position : Position) (count : Nat) :
    position.after source period (count + 1) =
      (position.advance source period).after source period count :=
  Function.iterate_succ_apply _ _ _

theorem after_succ' (position : Position) (count : Nat) :
    position.after source period (count + 1) =
      (position.after source period count).advance source period :=
  Function.iterate_succ_apply' _ _ _

/-! ## Time -/

theorem begins_le_ends (position : Position) : position.begins ≤ (position.ends source).now := by
  simp only [ends, take]
  omega

/-- Samples follow one another. -/
theorem begins_le_advance (position : Position) :
    position.begins ≤ (position.advance source period).begins :=
  (begins_le_ends position).trans (le_max_right _ _)

theorem begins_mono (source : MetricSource) (period : Nat) (position : Position) :
    Monotone fun count => (position.after source period count).begins := by
  apply monotone_nat_of_le_succ
  intro count
  rw [after_succ']
  exact begins_le_advance _

theorem clock_mono (source : MetricSource) (period : Nat) (position : Position) :
    Monotone fun count => (position.after source period count).clock.now := by
  apply monotone_nat_of_le_succ
  intro count
  rw [after_succ']
  exact (le_max_right _ _).trans (begins_le_ends _)

/-- A sample is due a period after the one before, or later. -/
theorem add_le_nextDue (period due taken : Nat) : due + period ≤ nextDue period due taken := by
  unfold nextDue
  split <;> omega

/-- No two samples are due in one period. -/
theorem add_mul_le_due (source : MetricSource) (period : Nat) (position : Position) (count : Nat) :
    position.due + count * period ≤ (position.after source period count).due := by
  induction count with
  | zero => simp [after]
  | succ count ih =>
    calc position.due + (count + 1) * period
        = position.due + count * period + period := by ring
      _ ≤ (position.after source period count).due + period := Nat.add_le_add_right ih period
      _ ≤ (position.after source period (count + 1)).due := by
        rw [after_succ']
        exact add_le_nextDue _ _ _

/-- In every period there is a moment at which a sampling is stopped in time. -/
theorem exists_late (hperiod : 0 < period) (clock : Clock) (first stop : Nat) :
    stop < ((start period clock first).after source period
      ((stop - clock.now) / period + 1)).begins := by
  have hdue := add_mul_le_due source period (start period clock first)
    ((stop - clock.now) / period + 1)
  have hlate : stop - clock.now < ((stop - clock.now) / period + 1) * period := by
    rw [mul_comm]
    exact Nat.lt_mul_div_succ _ hperiod
  have hbegins := le_max_left
    ((start period clock first).after source period ((stop - clock.now) / period + 1)).due
    ((start period clock first).after source period ((stop - clock.now) / period + 1)).clock.now
  simp only [start] at hdue hbegins hlate ⊢
  unfold begins
  omega

end Position

/-! ## Stopping -/

section Stopping

variable {source : MetricSource} {period stop : Nat}

/-- The number of samples that begin until a sampling is stopped. -/
def Position.Takes (source : MetricSource) (period : Nat) (position : Position)
    (stop count : Nat) : Prop :=
  ∀ k, k < count ↔ (position.after source period k).begins ≤ stop

/-- A sampling that is stopped has taken the samples that begin until then. -/
theorem samples_eq {fuel : Nat} {position : Position}
    (hlate : stop < (position.after source period fuel).begins) :
    ∃ count, position.Takes source period stop count ∧
      samples source period stop fuel position.next position.due position.clock =
        ((List.range count).map fun k => (position.after source period k).sample source,
          max (position.after source period count).clock.now stop) := by
  have hnone {position : Position} (hlate : stop < position.begins) :
      position.Takes source period stop 0 := by
    intro k
    have hmono := Position.begins_mono source period position (Nat.zero_le k)
    have hbegins : position.begins ≤ (position.after source period k).begins := hmono
    omega
  induction fuel generalizing position with
  | zero => exact ⟨0, hnone hlate, rfl⟩
  | succ fuel ih =>
    by_cases hnow : stop < position.begins
    · refine ⟨0, hnone hnow, ?_⟩
      have htaken : stop < max position.due position.clock.now := hnow
      simp only [samples, htaken, if_true]
      rfl
    · rw [Position.after_succ] at hlate
      obtain ⟨count, htakes, hsamples⟩ := ih hlate
      refine ⟨count + 1, fun k => ?_, ?_⟩
      · cases k with
        | zero => exact iff_of_true (Nat.succ_pos count) (Nat.le_of_not_lt hnow)
        | succ k =>
          rw [Position.after_succ, ← htakes k]
          exact Nat.succ_lt_succ_iff
      · have htaken : ¬stop < max position.due position.clock.now := hnow
        rw [List.range_succ_eq_map, List.map_cons, List.map_map]
        simp only [samples, htaken, if_false]
        exact congrArg (fun rest => (position.sample source :: rest.1, rest.2)) hsamples

/-- What a sampling leaves that is stopped: the samples that begin until then, and the time at
which the last of them is complete, if that comes later. -/
theorem run_eq (source : MetricSource) (hperiod : 0 < period) (clock : Clock) (first stop : Nat) :
    ∃ count, (Position.start period clock first).Takes source period stop count ∧
      run source period clock first stop =
        ((List.range count).map fun k =>
            ((Position.start period clock first).after source period k).sample source,
          max ((Position.start period clock first).after source period count).clock.now stop) :=
  samples_eq (Position.exists_late hperiod clock first stop)

/-- Every sample that was taken is complete when the sampling is. -/
theorem ends_le {position : Position} {count k : Nat} (hk : k < count) :
    ((position.after source period k).ends source).now ≤
      (position.after source period count).clock.now := by
  have hmono := Position.clock_mono source period position (Nat.succ_le_of_lt hk)
  simp only [Position.after_succ'] at hmono
  exact hmono

end Stopping
end TraceReplay.Sampling
