import TraceReplay.Proofs.Driver.Check
import TraceReplay.Proofs.Driver.Turn

/-!
# The schedule of a replay

When a driver issues its slots can be read off the gaps of its trace, with no regard to
how it gets there.  A slot is due when the gaps up to it have passed, in whole
milliseconds, and no slot is issued before the one ahead of it.  A step is cut after
the first slot that is due later than the step is long; the next step begins with its
last slot, or after the step's length if it has none.

This file says so in closed form; that a driver keeps to it is shown in
`TraceReplay.Proofs.Driver.Course`.
-/

namespace TraceReplay.Driver

/-! ## One step -/

/-- Microseconds in whole milliseconds, rounded up, and none before nothing. -/
def ceilMs (micros : Int) : Nat := (micros.toNat + 999) / 1000

/-- The integer parts of the first gaps of a step, summed up. -/
def nominal (gaps : List Float) (count : Nat) : Int :=
  ((gaps.take count).map Binary64.toInt64Range).sum

/-- Milliseconds from the start of a step until its first slots are issued. -/
def reach (gaps : List Float) (count : Nat) : Nat :=
  (Finset.range count).sup fun slot => ceilMs (nominal gaps (slot + 1))

/-- Milliseconds from the start of a step until a slot is issued. -/
def delay (gaps : List Float) (slot : Nat) : Nat := reach gaps (slot + 1)

/-- Slots of a step that are issued, out of those requested: up to the first that is
issued after the step's length. -/
def issuedIn (gaps : List Float) (unit requested : Nat) : Nat :=
  match (List.range requested).find? (unit < delay gaps ·) with
  | some slot => slot + 1
  | none => requested

theorem nominal_succ {gaps : List Float} {count : Nat} {gap : Float}
    (hgap : gaps[count]? = some gap) :
    nominal gaps (count + 1) = nominal gaps count + Binary64.toInt64Range gap := by
  simp [nominal, List.take_add_one, hgap]

@[simp]
theorem nominal_zero (gaps : List Float) : nominal gaps 0 = 0 := rfl

@[simp]
theorem reach_zero (gaps : List Float) : reach gaps 0 = 0 := rfl

theorem reach_succ (gaps : List Float) (count : Nat) :
    reach gaps (count + 1) = max (ceilMs (nominal gaps (count + 1))) (reach gaps count) := by
  simp [reach, Finset.range_add_one, Finset.sup_insert]

theorem reach_mono (gaps : List Float) {count more : Nat} (hle : count ≤ more) :
    reach gaps count ≤ reach gaps more :=
  Finset.sup_mono (Finset.range_mono hle)

/-- A slot is issued if the trace requests it and all slots before it come in time. -/
theorem lt_issuedIn {gaps : List Float} {unit requested slot : Nat} :
    slot < issuedIn gaps unit requested ↔ slot < requested ∧ reach gaps slot ≤ unit := by
  unfold issuedIn
  cases hfind : (List.range requested).find? (unit < delay gaps ·) with
  | none =>
    have hnone : ∀ other < requested, delay gaps other ≤ unit := by
      simpa [List.find?_range_eq_none] using hfind
    refine ⟨fun hlt => ⟨hlt, ?_⟩, And.left⟩
    cases slot with
    | zero => simp
    | succ slot => exact hnone slot (Nat.lt_of_succ_lt hlt)
  | some late =>
    obtain ⟨hlate, hmem, hfirst⟩ := List.find?_range_eq_some.mp hfind
    simp only [decide_eq_true_eq, List.mem_range, Bool.not_eq_eq_eq_not, Bool.not_true,
      decide_eq_false_iff_not, Nat.not_lt] at hlate hmem hfirst
    constructor
    · intro hlt
      have hle : slot ≤ late := Nat.le_of_lt_succ hlt
      refine ⟨hle.trans_lt hmem, ?_⟩
      cases slot with
      | zero => simp
      | succ slot => exact hfirst slot hle
    · rintro ⟨-, hreach⟩
      by_contra hlt
      have hle : late + 1 ≤ slot := Nat.le_of_not_lt hlt
      exact absurd (hlate.trans_le (reach_mono gaps hle)) (Nat.not_lt.mpr hreach)

theorem issuedIn_le {gaps : List Float} {unit requested : Nat} :
    issuedIn gaps unit requested ≤ requested := by
  by_contra hlt
  exact absurd (lt_issuedIn.mp (Nat.lt_of_not_le hlt)).1 (lt_irrefl _)

@[simp]
theorem issuedIn_zero (gaps : List Float) (unit : Nat) : issuedIn gaps unit 0 = 0 := rfl

/-- A step ends after its last slot and after one that came too late. -/
theorem issuedIn_eq_succ {gaps : List Float} {unit requested slot : Nat}
    (hslot : slot < issuedIn gaps unit requested)
    (hover : slot + 1 = requested ∨ unit < reach gaps (slot + 1)) :
    issuedIn gaps unit requested = slot + 1 := by
  have hnext : ¬slot + 1 < issuedIn gaps unit requested := by
    rw [lt_issuedIn]
    omega
  omega

/-! ## All steps -/

/-- A slot and when it is issued. -/
structure Entry where
  step : Nat
  slot : Nat
  time : Nat
deriving Repr, DecidableEq

def Issue.entry (issue : Issue) : Entry := ⟨issue.step, issue.slot, issue.time⟩

/-- A plan with the gaps of its trace and the time at which the replay starts. -/
structure Schedule where
  plan : Plan
  trace : List (List Float)
  start : Nat

namespace Schedule

variable (schedule : Schedule)

/-- With warmup the replay leaves the first step out. -/
def firstStep : Nat := if schedule.plan.configuration.withWarmup then 1 else 0

/-- Steps that are replayed if no check stops the replay. -/
def steps : Nat := schedule.plan.configuration.traceDuration - schedule.firstStep

def unit : Nat := schedule.plan.configuration.granularity.unitMs

def requested (step : Nat) : Nat := schedule.plan.function.invocationsAt step

def gaps (step : Nat) : List Float := schedule.trace.getD step []

/-- Slots of a step that are issued. -/
def issued (step : Nat) : Nat :=
  issuedIn (schedule.gaps step) schedule.unit (schedule.requested step)

/-- Milliseconds a step takes. -/
def duration (step : Nat) : Nat :=
  if schedule.requested step = 0 then schedule.unit
  else reach (schedule.gaps step) (schedule.issued step)

/-- When the step after the first `count` replayed steps begins. -/
def begins : Nat → Nat
  | 0 => schedule.start
  | count + 1 => begins count + schedule.duration (schedule.firstStep + count)

/-- The slots of the step after the first `count` replayed steps. -/
def entriesOf (count : Nat) : List Entry :=
  (List.range (schedule.issued (schedule.firstStep + count))).map fun slot =>
    ⟨schedule.firstStep + count, slot,
      schedule.begins count + delay (schedule.gaps (schedule.firstStep + count)) slot⟩

/-- The slots of the first `count` replayed steps. -/
def entries (count : Nat) : List Entry := (List.range count).flatMap schedule.entriesOf

@[simp]
theorem entries_zero : schedule.entries 0 = [] := rfl

theorem entries_succ (count : Nat) :
    schedule.entries (count + 1) = schedule.entries count ++ schedule.entriesOf count := by
  simp [entries, List.range_succ]

@[simp]
theorem length_entriesOf (count : Nat) :
    (schedule.entriesOf count).length = schedule.issued (schedule.firstStep + count) := by
  simp [entriesOf]

theorem entriesOf_getElem? {count slot : Nat}
    (hslot : slot < schedule.issued (schedule.firstStep + count)) :
    (schedule.entriesOf count)[slot]? = some ⟨schedule.firstStep + count, slot,
      schedule.begins count + delay (schedule.gaps (schedule.firstStep + count)) slot⟩ := by
  simp [entriesOf, hslot]

theorem issued_le (step : Nat) : schedule.issued step ≤ schedule.requested step := issuedIn_le

/-- What is issued depends on the function, what the loader is told, the gaps and the start. -/
theorem entries_congr {schedule other : Schedule}
    (hfunction : other.plan.function = schedule.plan.function)
    (hloader : other.plan.configuration.loader = schedule.plan.configuration.loader)
    (htrace : other.trace = schedule.trace) (hstart : other.start = schedule.start) (count : Nat) :
    other.entries count = schedule.entries count := by
  have hfirst : other.firstStep = schedule.firstStep := by
    rw [firstStep, firstStep, ReplayConfiguration.withWarmup, ReplayConfiguration.withWarmup,
      hloader]
  have hunit : other.unit = schedule.unit := by
    rw [unit, unit, ReplayConfiguration.granularity, ReplayConfiguration.granularity, hloader]
  have hgaps (step : Nat) : other.gaps step = schedule.gaps step := by rw [gaps, gaps, htrace]
  have hrequested (step : Nat) : other.requested step = schedule.requested step := by
    rw [requested, requested, hfunction]
  have hissued (step : Nat) : other.issued step = schedule.issued step := by
    rw [issued, issued, hgaps, hunit, hrequested]
  have hbegins (before : Nat) : other.begins before = schedule.begins before := by
    induction before with
    | zero => exact hstart
    | succ before ih =>
      rw [begins, begins, ih, duration, duration, hfirst, hrequested, hunit, hgaps, hissued]
  have hentriesOf (before : Nat) : other.entriesOf before = schedule.entriesOf before := by
    rw [entriesOf, entriesOf, hfirst, hissued, hbegins, hgaps]
  rw [entries, entries, funext hentriesOf]

end Schedule
end TraceReplay.Driver
