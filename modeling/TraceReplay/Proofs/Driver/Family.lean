import TraceReplay.Proofs.Driver.Content
import TraceReplay.Proofs.Function.Variant

/-!
# Drivers of GPU variants

The GPU variants of a function share its trace, and each has a driver of its own.  If no
step takes longer than the trace says, all drivers issue the same slots under the same
numbers.  The driver of a variant dispatches the slots whose batches its GPUs are for, and
no others.
-/

namespace TraceReplay.Driver

/-- The GPU variants of a function, as they are replayed together. -/
structure Family where
  /-- The names of the variants begin with its name, and its trace is theirs. -/
  function : Function
  batchPerDevice : Int
  grouping : SiblingGrouping
  configuration : ReplayConfiguration

namespace Family

/-- How many GPUs the slot with a number is for, if it has a batch. -/
def gpusFor (family : Family) (number : Nat) : Option Int :=
  family.function.batchStats[number - 1]?.map (·.toInt.tdiv family.batchPerDevice)

/-- With warmup the replay leaves the first step out. -/
def firstStep (family : Family) : Nat := if family.configuration.withWarmup then 1 else 0

/-- The steps and slots of the trace that are replayed, in their order. -/
def slots (family : Family) : List (Nat × Nat) :=
  (List.range (family.configuration.traceDuration - family.firstStep)).flatMap fun count =>
    (List.range (family.function.invocationsAt (family.firstStep + count))).map
      (family.firstStep + count, ·)

/-- A driver is that of the variant for some GPUs, and no step of what it was given takes
longer than the trace says. -/
structure Variant (family : Family) (gpus : Nat) (plan : Plan) (given : Specification) : Prop where
  name : plan.function.name = gpuVariant family.function.name gpus
  fits : gpus < 2 ^ 63
  invocations : plan.function.invocationStats = family.function.invocationStats
  batches : plan.function.batchStats = family.function.batchStats
  policy : plan.policy = .gpuMatching family.batchPerDevice family.grouping
  configuration : plan.configuration = family.configuration
  valid : given.validate plan.function = .ok ()
  punctual : ∀ step slot, slot < plan.function.invocationsAt step →
    nominal (given.gaps.getD step []) (slot + 1) ≤ plan.configuration.granularity.unitMs * 1000

/-- What the driver of a variant makes of a slot: it dispatches the slot if its GPUs are
those the slot is for, to its own function and with the statistics of the function, if
there are any. -/
structure Handles (family : Family) (gpus : Nat) (plan : Plan) (given : Specification)
    (number : Nat) (issue : Issue) : Prop where
  numbered : issue.number = number
  named : issue.invocationId = invocationId (gpuVariant family.function.name gpus)
    family.configuration.granularity issue.step issue.slot
  fires : issue.dispatch.isSome ↔ family.gpusFor number = some (gpus : Int)
  target : ∀ dispatch, issue.dispatch = some dispatch → dispatch.target = plan.function
  attached : ∀ dispatch, issue.dispatch = some dispatch → ∀ stats,
    modeStats plan.function number = some stats → dispatch.specification.stats = some stats ∧
      dispatch.target.gpuCount = some (stats.batchSize.toInt.tdiv family.batchPerDevice)
  unattached : ∀ dispatch, issue.dispatch = some dispatch →
    modeStats plan.function number = none →
      given.slot? issue.step issue.slot = some dispatch.specification

end Family

/-! ## Steps that take no longer than the trace says -/

/-- A slot that is due within the step is issued within it. -/
theorem delay_le {gaps : List Float} {unit slot : Nat}
    (hpunctual : ∀ before ≤ slot, nominal gaps (before + 1) ≤ unit * 1000) :
    delay gaps slot ≤ unit := by
  rw [delay, reach]
  refine Finset.sup_le fun before hbefore => ?_
  have hdue := hpunctual before (Nat.le_of_lt_succ (Finset.mem_range.mp hbefore))
  rw [ceilMs]
  omega

/-- All slots of a step are issued if none is due after the step. -/
theorem issuedIn_of_punctual {gaps : List Float} {unit requested : Nat}
    (hpunctual : ∀ slot < requested, nominal gaps (slot + 1) ≤ unit * 1000) :
    issuedIn gaps unit requested = requested := by
  refine le_antisymm issuedIn_le ?_
  by_contra hcut
  have hless := Nat.lt_of_not_le hcut
  have hlast : ¬issuedIn gaps unit requested < issuedIn gaps unit requested := lt_irrefl _
  rw [lt_issuedIn] at hlast
  refine hlast ⟨hless, ?_⟩
  generalize issuedIn gaps unit requested = issued at hless
  cases issued with
  | zero => exact Nat.zero_le _
  | succ slot => exact delay_le fun before hbefore => hpunctual before (by omega)

namespace Family.Variant

variable {family : Family} {gpus : Nat} {plan : Plan} {given : Specification}

theorem invocationsAt (hvariant : family.Variant gpus plan given) (step : Nat) :
    plan.function.invocationsAt step = family.function.invocationsAt step := by
  rw [Function.invocationsAt, Function.invocationsAt, hvariant.invocations]

/-- The schedule of a variant has all slots of the trace. -/
theorem map_entries (hvariant : family.Variant gpus plan given) (start : Nat) :
    ((⟨plan, given.gaps, start⟩ : Schedule).entries (⟨plan, given.gaps, start⟩ : Schedule).steps).map
      (fun entry => (entry.step, entry.slot)) = family.slots := by
  have hfirst : (⟨plan, given.gaps, start⟩ : Schedule).firstStep = family.firstStep := by
    rw [Schedule.firstStep, Family.firstStep, hvariant.configuration]
  have hissued (step : Nat) : (⟨plan, given.gaps, start⟩ : Schedule).issued step =
      family.function.invocationsAt step := by
    refine (issuedIn_of_punctual fun slot hslot => ?_).trans (hvariant.invocationsAt step)
    exact hvariant.punctual step slot hslot
  simp only [Schedule.entries, Schedule.entriesOf, Schedule.steps, Family.slots, hfirst, hissued,
    hvariant.configuration, List.map_flatMap, List.map_map]
  rfl

/-! ## Dispatched slots -/

theorem gpuCount (hvariant : family.Variant gpus plan given) :
    plan.function.gpuCount = some (gpus : Int) :=
  Function.gpuCount_variant hvariant.name hvariant.fits

/-- The policy has a variant fire the slots that its GPUs are for. -/
theorem verdict (hvariant : family.Variant gpus plan given) (hdevice : 0 < family.batchPerDevice)
    (number : Nat) : (plan.policy.resolve ⟨plan.function, plan.siblings, number⟩).verdict =
      if family.gpusFor number = some (gpus : Int) then .fire plan.function none else .skip := by
  have hzero : family.batchPerDevice ≠ 0 := hdevice.ne'
  have hone : family.batchPerDevice ≠ -1 := by omega
  rw [hvariant.policy]
  change (Policy.resolveGpuMatching _ _).verdict = _
  simp only [Policy.resolveGpuMatching, hvariant.batches, hvariant.gpuCount]
  cases hbatch : family.function.batchStats[number - 1]? with
  | none =>
    have hnone : family.gpusFor number = none := by rw [gpusFor, hbatch, Option.map_none]
    rw [hnone, if_neg (by simp)]
  | some batch =>
    have hgpus : family.gpusFor number = some (batch.toInt.tdiv family.batchPerDevice) := by
      rw [gpusFor, hbatch, Option.map_some]
    simp only [if_neg hzero, hone, and_false, if_false, hgpus, eq_comm (a := some (gpus : Int))]
    split <;> rfl

theorem decides (hvariant : family.Variant gpus plan given) (hdevice : 0 < family.batchPerDevice) :
    plan.Decides := by
  intro number message
  rw [hvariant.verdict hdevice]
  split <;> exact Policy.Verdict.noConfusion

/-- The batch in the statistics of a slot is the one that the slot is for. -/
theorem gpusFor_of_modeStats (hvariant : family.Variant gpus plan given) {number : Nat}
    {stats : ModeStats} (hstats : modeStats plan.function number = some stats) :
    family.gpusFor number = some (stats.batchSize.toInt.tdiv family.batchPerDevice) := by
  unfold modeStats at hstats
  split at hstats
  · exact absurd hstats (by simp)
  · simp only [Option.bind_eq_bind, Option.bind_eq_some_iff, Option.some.injEq] at hstats
    obtain ⟨iterations, -, batch, hbatch, deadline, -, rfl⟩ := hstats
    rw [gpusFor, ← hvariant.batches, hbatch, Option.map_some]

/-- A variant leaves the slots that its GPUs are not for to others. -/
theorem dispatch_of_ne (hvariant : family.Variant gpus plan given)
    (hdevice : 0 < family.batchPerDevice) (entry : Entry) {number : Nat}
    (hgpus : family.gpusFor number ≠ some (gpus : Int)) :
    (plan.issueAt given entry number).dispatch = none := by
  simp only [Plan.issueAt, Plan.dispatch, hvariant.verdict hdevice, if_neg hgpus]

/-- A variant dispatches the slots that its GPUs are for. -/
theorem dispatch_of_eq (hvariant : family.Variant gpus plan given)
    (hdevice : 0 < family.batchPerDevice) (htest : family.configuration.testMode = false)
    {entry : Entry} {found : RuntimeSpecification}
    (hfound : given.slot? entry.step entry.slot = some found) {number : Nat}
    (hgpus : family.gpusFor number = some (gpus : Int)) :
    ∃ dispatch, (plan.issueAt given entry number).dispatch = some dispatch ∧
      dispatch.target = plan.function ∧
      (∀ stats, modeStats plan.function number = some stats →
        dispatch.specification.stats = some stats) ∧
      (modeStats plan.function number = none → dispatch.specification = found) := by
  have htest' : plan.configuration.testMode = false := by rw [hvariant.configuration, htest]
  simp only [Plan.issueAt, Plan.dispatch, hvariant.verdict hdevice, if_pos hgpus, htest', hfound,
    Bool.false_eq_true, if_false, Option.map_some]
  refine ⟨_, rfl, rfl, fun stats hstats => ?_, fun hnone => ?_⟩
  · simp only [hstats]
  · simp only [hnone]

/-- What a variant makes of a slot. -/
theorem handles_issueAt (hvariant : family.Variant gpus plan given) (hdevice : 0 < family.batchPerDevice)
    (htest : family.configuration.testMode = false) {entry : Entry}
    (hslot : entry.slot < plan.function.invocationsAt entry.step) (number : Nat) :
    family.Handles gpus plan given number (plan.issueAt given entry number) := by
  obtain ⟨found, hfound⟩ := (Specification.fits_of_validate hvariant.valid).slot _ _ hslot
  have hnamed : (plan.issueAt given entry number).invocationId = invocationId
      (gpuVariant family.function.name gpus) family.configuration.granularity entry.step
        entry.slot := by
    rw [← hvariant.name, ← hvariant.configuration]
    rfl
  by_cases hgpus : family.gpusFor number = some (gpus : Int)
  · obtain ⟨dispatch, hdispatch, htarget, hattached, hkept⟩ :=
      hvariant.dispatch_of_eq hdevice htest hfound hgpus
    have hone {other : Dispatch} (hother : (plan.issueAt given entry number).dispatch = some other) :
        other = dispatch := Option.some.inj (hother.symm.trans hdispatch)
    refine ⟨rfl, hnamed, by simp [hdispatch, hgpus], fun other hother => ?_, fun other hother stats hstats => ?_,
      fun other hother hnone => ?_⟩
    · rw [hone hother, htarget]
    · rw [hone hother, htarget, hvariant.gpuCount, ← hvariant.gpusFor_of_modeStats hstats, hgpus]
      exact ⟨hattached stats hstats, rfl⟩
    · rw [hone hother, hkept hnone]
      exact hfound
  · have hnone : (plan.issueAt given entry number).dispatch = none :=
      hvariant.dispatch_of_ne hdevice entry hgpus
    exact ⟨rfl, hnamed, by simp [hnone, hgpus], by simp [hnone], by simp [hnone], by simp [hnone]⟩

/-- What a variant makes of the slots it issues. -/
theorem handles (hvariant : family.Variant gpus plan given) (hdevice : 0 < family.batchPerDevice)
    (htest : family.configuration.testMode = false) {start count place : Nat} {issue : Issue}
    (hissue : ((⟨plan, given.gaps, start⟩ : Schedule).issues given count)[place]? = some issue) :
    family.Handles gpus plan given (place + 1) issue := by
  rw [Schedule.issues, List.getElem?_mapIdx] at hissue
  obtain ⟨entry, hentry, rfl⟩ := Option.map_eq_some_iff.mp hissue
  obtain ⟨before, -, hmem⟩ := List.mem_flatMap.mp (List.mem_of_getElem? hentry)
  obtain ⟨slot, hslot, rfl⟩ := List.mem_map.mp hmem
  exact hvariant.handles_issueAt hdevice htest
    ((List.mem_range.mp hslot).trans_le (Schedule.issued_le _ _)) (place + 1)

/-- A variant issues all slots of the trace. -/
theorem map_issues (hvariant : family.Variant gpus plan given) (start : Nat) :
    ((⟨plan, given.gaps, start⟩ : Schedule).issues given
      (⟨plan, given.gaps, start⟩ : Schedule).steps).map (fun issue => (issue.step, issue.slot)) =
        family.slots := by
  rw [← hvariant.map_entries start]
  apply List.ext_getElem?
  intro place
  simp only [Schedule.issues, List.getElem?_map, List.getElem?_mapIdx, Option.map_map]
  rfl

end Family.Variant

namespace Family

/-- No slot is replayed twice. -/
theorem nodup_slots (family : Family) : family.slots.Nodup := by
  refine List.nodup_flatMap.mpr ⟨fun count _ => ?_, ?_⟩
  · exact List.nodup_range.map fun slot other heq => (Prod.mk.inj heq).2
  · refine List.nodup_range.pairwise_of_forall_ne fun count _ other _ hne => ?_
    intro slot hslot hother
    obtain ⟨_, -, rfl⟩ := List.mem_map.mp hslot
    obtain ⟨_, -, heq⟩ := List.mem_map.mp hother
    have hstep := (Prod.mk.inj heq).1
    omega

/-- A batch for one GPU and one for two. -/
def bert : Family where
  function := {
    name := "bert", invocationStats := [2], batchStats := [32, 64], iterationStats := [10, 20]
    deadlineStats := [5, 5] }
  batchPerDevice := 32
  grouping := .gpuVariants
  configuration := .ofLoader { experimentDuration := 1, granularity := .second }

end Family
end TraceReplay.Driver
