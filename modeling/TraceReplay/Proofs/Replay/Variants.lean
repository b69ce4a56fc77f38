import TraceReplay.Proofs.Driver.Family
import TraceReplay.Proofs.Replay.Credit

/-!
# GPU variants that share a trace

The drivers of the GPU variants of a function are replayed side by side.  If no check stops
them they issue the same slots under the same numbers, and each slot goes to the invoker
once at most: from the driver of the variant whose GPUs the slot is for, if there is one.
The other drivers count the slot as a success and leave one record and one job record of it.
-/

namespace TraceReplay.Replay

open Driver (Family)

/-- The slot at a place among those the lane has issued has gone to the invoker. -/
def World.Dispatches (w : World) (index place : Nat) : Prop :=
  ∃ issue, (w.view.issuesOf index)[place]? = some issue ∧ issue.dispatch.isSome

/-- Slots of the lane that nothing was invoked for. -/
def World.skippedIn (w : World) (index : Nat) : Nat :=
  (w.view.issuesOf index).countP (·.dispatch.isNone)

/-- What the lane of a variant has come to when the replay is over. -/
structure World.Shares (w : World) (index : Nat) (family : Family) (gpus : Nat) (start : Start) :
    Prop where
  slots : (w.view.issuesOf index).map (fun issue => (issue.step, issue.slot)) = family.slots
  handles : ∀ place issue, (w.view.issuesOf index)[place]? = some issue →
    family.Handles gpus start.plan start.specification (place + 1) issue
  recorded : ∀ issue ∈ w.view.issuesOf index, issue.dispatch = none →
    (w.collector.records.map (·.invocationId)).count issue.invocationId = 1 ∧
      (w.collector.jobs.map (·.invocationId)).count issue.invocationId = 1
  counted : ∃ lane, w.lanes[index]? = some lane ∧
    w.skippedIn index ≤ lane.counters.successful ∧
      lane.counters.successful + lane.counters.failed ≤ family.slots.length
  reported : ∀ finish ∈ w.finished, finish.lane = index → ∃ r, finish.result = .ok r ∧
    r.issued = family.slots.length ∧ w.skippedIn index ≤ r.successful ∧
      r.successful + r.failed ≤ r.issued

/-! ## One lane -/

section Lanes

variable {w : World} {starts : List Start} {place : Nat} {start : Start} {family : Family}
  {gpus : Nat}

/-- A lane that no check stops issues its whole schedule. -/
theorem Unmanned.issuesOf_runToEnd (hunmanned : Unmanned w) (hstart : starts[place]? = some start)
    (hfits : start.specification.Fits start.plan.function) (hpolicy : start.plan.Decides)
    (hcalm : ∀ step, ¬(w.startAll starts).WillStopAt (w.lanes.length + place) step) :
    (w.startAll starts).runToEnd.view.issuesOf (w.lanes.length + place) =
      (start.schedule w.clock).issues start.specification (start.schedule w.clock).steps := by
  have hfounded := hunmanned.toFounded
  have hpasses := World.runToEnd_passes (w.startAll starts)
  have hover := (hfounded.sound hpasses).over_of_end (hunmanned.runToEnd_ends starts)
    (hfounded.onSchedule hpasses hstart hfits hpolicy)
  obtain ⟨lane, -, hfollows⟩ := hfounded.follows hpasses hstart hfits
  obtain ⟨_ | _, hover⟩ := hover
  · exact hfollows.settled.issues_eq hover
  · obtain ⟨step, hstops, -⟩ := hover
    exact absurd hstops (hcalm step)

/-- What the lane of a variant has issued in the end. -/
theorem Unmanned.handles_runToEnd (hunmanned : Unmanned w) (hdevice : 0 < family.batchPerDevice)
    (htest : family.configuration.testMode = false) (hstart : starts[place]? = some start)
    (hvariant : family.Variant gpus start.plan start.specification)
    (hcalm : ∀ step, ¬(w.startAll starts).WillStopAt (w.lanes.length + place) step) :
    ((w.startAll starts).runToEnd.view.issuesOf (w.lanes.length + place)).map
        (fun issue => (issue.step, issue.slot)) = family.slots ∧
      ∀ number issue,
        ((w.startAll starts).runToEnd.view.issuesOf (w.lanes.length + place))[number]? =
          some issue →
        family.Handles gpus start.plan start.specification (number + 1) issue := by
  rw [hunmanned.issuesOf_runToEnd hstart (Specification.fits_of_validate hvariant.valid)
    (hvariant.decides hdevice) hcalm]
  exact ⟨hvariant.map_issues _, fun _ _ hissue => hvariant.handles hdevice htest hissue⟩

/-- The lane of a driver counts each slot nothing was invoked for as a success, and no slot
twice, and so says its report. -/
theorem Unmanned.counted_runToEnd (hunmanned : Unmanned w) (hstart : starts[place]? = some start)
    (hfits : start.specification.Fits start.plan.function) (hpolicy : start.plan.Decides) :
    ∃ lane, (w.startAll starts).runToEnd.lanes[w.lanes.length + place]? = some lane ∧
      (w.startAll starts).runToEnd.skippedIn (w.lanes.length + place) ≤ lane.counters.successful ∧
      lane.counters.successful + lane.counters.failed ≤
        ((w.startAll starts).runToEnd.view.issuesOf (w.lanes.length + place)).length ∧
      ∀ finish ∈ (w.startAll starts).runToEnd.finished, finish.lane = w.lanes.length + place →
        ∃ r, finish.result = .ok r ∧ r.successful = lane.counters.successful ∧
          r.failed = lane.counters.failed ∧
          r.issued = ((w.startAll starts).runToEnd.view.issuesOf (w.lanes.length + place)).length := by
  have hfounded := hunmanned.toFounded
  have hpasses := World.runToEnd_passes (w.startAll starts)
  have hend := hunmanned.runToEnd_ends starts
  obtain ⟨lane, hlane, hcredited, hmanned, -, honschedule⟩ :=
    (hfounded.credited hpasses hstart).and (hfounded.onSchedule hpasses hstart hfits hpolicy)
  obtain ⟨own, hown, rfl⟩ := Option.map_eq_some_iff.mp hlane
  have hskipped := (hfounded.sound hpasses).skipped_le_of_end hend hcredited
  refine ⟨own, hown, hskipped, ?_, ?_⟩
  · have houtcomes := hcredited.outcomes
    rw [Nat.add_assoc] at houtcomes
    exact Nat.le_of_add_right_le houtcomes
  · intro finish hmem hindex
    have hfinish : finish ∈ ((w.startAll starts).runToEnd.view.track (w.lanes.length + place)
        own.unparked).finished := List.mem_filter.mpr ⟨hmem, by simp [hindex]⟩
    obtain ⟨r, hresult, -⟩ := honschedule.ended finish hfinish
    obtain ⟨-, hsuccessful, hfailed, hissued⟩ := hmanned.ended finish hfinish r hresult
    exact ⟨r, hresult, hsuccessful, hfailed, hissued⟩

end Lanes

/-! ## All lanes -/

/-- When nothing is left to do, the collector has taken everything. -/
theorem Sound.collected_of_end {w : World} (hsound : Sound w) (hend : w.step? = none)
    (own : Finset Nat) :
    (w.view.books own).records = (w.collector.records.map (·.invocationId) : List String) ∧
      (w.view.books own).jobs = (w.collector.jobs.map (·.invocationId) : List String) := by
  obtain ⟨hrecords, hjobs⟩ := hsound.toKept.drained (World.ready_of_end hend)
  simp only [View.books, World.view, hrecords, hjobs, List.map_nil, List.append_nil,
    Multiset.map_coe, and_self]

/-- Slots that are issued under different IDs in each lane, and in different lanes. -/
theorem View.nodup_issued {own : Finset Nat} {v : View}
    (hlane : ∀ index ∈ own, ((v.issuesOf index).map (·.invocationId)).Nodup)
    (hlanes : ∀ index ∈ own, ∀ other ∈ own, index ≠ other →
      ∀ issue ∈ v.issuesOf index, ∀ issue' ∈ v.issuesOf other,
        issue.invocationId ≠ issue'.invocationId) : (v.books own).issued.Nodup := by
  rw [View.issued_books]
  change (own.val.bind fun index => ((v.issuesOf index).map (·.invocationId) : Multiset String)).Nodup
  refine Multiset.nodup_bind.mpr ⟨fun index hindex => Multiset.coe_nodup.mpr (hlane index hindex), ?_⟩
  refine Multiset.Nodup.pairwise (fun index hindex other hother hne => ?_) own.nodup
  refine Multiset.disjoint_left.mpr fun hmem hmem' => ?_
  obtain ⟨issue, hissue, rfl⟩ := List.mem_map.mp hmem
  obtain ⟨issue', hissue', heq⟩ := List.mem_map.mp hmem'
  exact hlanes index hindex other hother hne issue hissue issue' hissue' heq.symm

/-- A slot nothing was invoked for has one record and one job record in the end, if no other
slot has its ID. -/
theorem Attentive.recorded_runToEnd {w : World} (hattentive : Attentive w) {starts : List Start}
    {index : Nat} (hindex : index ∈ w.newLanes starts)
    (hnodup : ((w.startAll starts).runToEnd.view.books (w.newLanes starts)).issued.Nodup)
    {issue : Driver.Issue} (hissue : issue ∈ (w.startAll starts).runToEnd.view.issuesOf index)
    (hnone : issue.dispatch = none) :
    ((w.startAll starts).runToEnd.collector.records.map (·.invocationId)).count
        issue.invocationId = 1 ∧
      ((w.startAll starts).runToEnd.collector.jobs.map (·.invocationId)).count
        issue.invocationId = 1 := by
  have hpasses := World.runToEnd_passes (w.startAll starts)
  have hend := hattentive.toUnmanned.runToEnd_ends starts
  have hsound := hattentive.toFounded.sound hpasses
  have hcovered := (hattentive.covers hpasses).covered
  have hbalanced := (hattentive.balances hpasses).2
  obtain ⟨hrecords, hjobs⟩ := hsound.collected_of_end hend (w.newLanes starts)
  generalize (w.startAll starts).runToEnd = last at *
  have hskipped : 1 ≤ (last.view.books (w.newLanes starts)).skipped.count issue.invocationId := by
    refine Multiset.one_le_count_iff_mem.mpr (List.mem_map.mpr ⟨(index, issue), ?_, rfl⟩)
    have hissued := View.mem_issuesOf.mp hissue
    simp [View.issuedIn, hissued, World.mem_newLanes.mp hindex, hnone]
  have honce := Multiset.nodup_iff_count_le_one.mp hnodup issue.invocationId
  have hrecord := hcovered.records issue.invocationId
  have hjob := hcovered.jobs issue.invocationId
  rw [hsound.count_books_of_end hend _ (by simp)] at hrecord hjob
  have hleRecords := hbalanced.records issue.invocationId
  have hleJobs := hbalanced.jobs issue.invocationId
  rw [hrecords, Multiset.coe_count] at hrecord hleRecords
  rw [hjobs, Multiset.coe_count] at hjob hleJobs
  omega


section Variants

variable {w : World} {starts : List Start} {family : Family} {counts : List Nat}

/-- The IDs of all slots that variants have issued are different. -/
theorem World.nodup_variants (family : Family) (hdistinct : counts.Nodup)
    (hlength : counts.length = starts.length) {last : World}
    (hlanes : ∀ place gpus start, counts[place]? = some gpus → starts[place]? = some start →
        (last.view.issuesOf (w.lanes.length + place)).map (fun issue => (issue.step, issue.slot)) =
          family.slots ∧
        ∀ issue ∈ last.view.issuesOf (w.lanes.length + place), issue.invocationId =
          invocationId (gpuVariant family.function.name gpus) family.configuration.granularity
            issue.step issue.slot) :
    (last.view.books (w.newLanes starts)).issued.Nodup := by
  have hplace {index : Nat} (hindex : index ∈ w.newLanes starts) :
      ∃ place gpus start, index = w.lanes.length + place ∧ counts[place]? = some gpus ∧
        starts[place]? = some start := by
    obtain ⟨hle, hlt⟩ := World.mem_newLanes.mp hindex
    obtain ⟨place, rfl⟩ := Nat.exists_eq_add_of_le hle
    exact ⟨place, _, _, rfl, List.getElem?_eq_getElem (by omega),
      List.getElem?_eq_getElem (by omega)⟩
  apply View.nodup_issued
  · intro index hindex
    obtain ⟨place, gpus, start, rfl, hgpus, hstart⟩ := hplace hindex
    obtain ⟨hslots, hnamed⟩ := hlanes place gpus start hgpus hstart
    have hids : (last.view.issuesOf (w.lanes.length + place)).map (·.invocationId) =
        family.slots.map fun slot => invocationId (gpuVariant family.function.name gpus)
          family.configuration.granularity slot.1 slot.2 := by
      rw [← hslots, List.map_map]
      exact List.map_congr_left hnamed
    rw [hids]
    refine family.nodup_slots.map fun slot other heq => ?_
    obtain ⟨-, hstep, hslot⟩ := invocationId_variant_inj heq
    exact Prod.ext hstep hslot
  · intro index hindex other hother hne issue hissue issue' hissue' heq
    obtain ⟨place, gpus, start, rfl, hgpus, hstart⟩ := hplace hindex
    obtain ⟨place', gpus', start', rfl, hgpus', hstart'⟩ := hplace hother
    rw [(hlanes place gpus start hgpus hstart).2 issue hissue,
      (hlanes place' gpus' start' hgpus' hstart').2 issue' hissue'] at heq
    obtain ⟨rfl, -⟩ := invocationId_variant_inj heq
    have hless := (List.getElem?_eq_some_iff.mp hgpus).1
    obtain rfl := (List.getElem?_inj hless hdistinct).mp (hgpus.trans hgpus'.symm)
    exact hne rfl

/-- The lane of a variant issues all slots of the trace, as its driver handles them. -/
theorem Unmanned.variant_runToEnd (hunmanned : Unmanned w) (hdevice : 0 < family.batchPerDevice)
    (htest : family.configuration.testMode = false)
    (hvariants : List.Forall₂ (fun gpus start =>
      family.Variant gpus start.plan start.specification) counts starts)
    (hcalm : ∀ place < starts.length, ∀ step,
      ¬(w.startAll starts).WillStopAt (w.lanes.length + place) step) {place gpus : Nat}
    {start : Start} (hgpus : counts[place]? = some gpus) (hstart : starts[place]? = some start) :
    family.Variant gpus start.plan start.specification ∧
      ((w.startAll starts).runToEnd.view.issuesOf (w.lanes.length + place)).map
          (fun issue => (issue.step, issue.slot)) = family.slots ∧
      ∀ number issue,
        ((w.startAll starts).runToEnd.view.issuesOf (w.lanes.length + place))[number]? =
            some issue →
          family.Handles gpus start.plan start.specification (number + 1) issue := by
  obtain ⟨hcount, rfl⟩ := List.getElem?_eq_some_iff.mp hgpus
  obtain ⟨hplace, rfl⟩ := List.getElem?_eq_some_iff.mp hstart
  have hvariant := hvariants.get hcount hplace
  exact ⟨hvariant,
    hunmanned.handles_runToEnd hdevice htest hstart hvariant (hcalm place hplace)⟩

/-- A variant has a slot go to the invoker if its GPUs are those the slot is for. -/
theorem World.dispatches_iff {last : World} {index gpus number : Nat} {start : Start}
    (hslots : (last.view.issuesOf index).map (fun issue => (issue.step, issue.slot)) =
      family.slots)
    (hhandles : ∀ number issue, (last.view.issuesOf index)[number]? = some issue →
      family.Handles gpus start.plan start.specification (number + 1) issue)
    (hnumber : number < family.slots.length) :
    last.Dispatches index number ↔ family.gpusFor (number + 1) = some (gpus : Int) := by
  rw [← hslots, List.length_map] at hnumber
  have hissue := List.getElem?_eq_getElem hnumber
  constructor
  · rintro ⟨issue, hsome, hdispatch⟩
    exact (hhandles number issue hsome).fires.mp hdispatch
  · intro hgpus
    exact ⟨_, hissue, (hhandles number _ hissue).fires.mpr hgpus⟩

/-- Variants of a function that share its trace have no slot go to the invoker twice, or to
the wrong variant.  Each driver issues all slots of the trace, under the same numbers, and
has a slot dispatched if its GPUs are those the slot is for; no two drivers have the same
slot dispatched.  Slots that a driver does not dispatch are counted as issued and as
successes, and have one record and one job record each. -/
theorem Attentive.variants_share (hattentive : Attentive w) (hdevice : 0 < family.batchPerDevice)
    (htest : family.configuration.testMode = false) (hdistinct : counts.Nodup)
    (hvariants : List.Forall₂ (fun gpus start =>
      family.Variant gpus start.plan start.specification) counts starts)
    (hcalm : ∀ place < starts.length, ∀ step,
      ¬(w.startAll starts).WillStopAt (w.lanes.length + place) step) :
    (∀ place gpus start, counts[place]? = some gpus → starts[place]? = some start →
      (w.startAll starts).runToEnd.Shares (w.lanes.length + place) family gpus start) ∧
    ∀ number < family.slots.length, ∀ (place gpus : Nat), counts[place]? = some gpus →
      ((w.startAll starts).runToEnd.Dispatches (w.lanes.length + place) number ↔
        family.gpusFor (number + 1) = some (gpus : Int)) ∧
      ((w.startAll starts).runToEnd.Dispatches (w.lanes.length + place) number →
        ∀ other < counts.length,
          (w.startAll starts).runToEnd.Dispatches (w.lanes.length + other) number →
            other = place) := by
  have hlength := hvariants.length_eq
  have hlane {place gpus : Nat} {start : Start} (hgpus : counts[place]? = some gpus)
      (hstart : starts[place]? = some start) :=
    hattentive.toUnmanned.variant_runToEnd hdevice htest hvariants hcalm hgpus hstart
  have hfires {number place gpus : Nat} (hnumber : number < family.slots.length)
      (hgpus : counts[place]? = some gpus) :
      (w.startAll starts).runToEnd.Dispatches (w.lanes.length + place) number ↔
        family.gpusFor (number + 1) = some (gpus : Int) := by
    have hplace := (List.getElem?_eq_some_iff.mp hgpus).1
    obtain ⟨-, hslots, hhandles⟩ := hlane hgpus (List.getElem?_eq_getElem (hlength ▸ hplace))
    exact World.dispatches_iff hslots hhandles hnumber
  have hnodup : ((w.startAll starts).runToEnd.view.books (w.newLanes starts)).issued.Nodup := by
    refine World.nodup_variants family hdistinct hlength fun place gpus start hgpus hstart => ?_
    obtain ⟨-, hslots, hhandles⟩ := hlane hgpus hstart
    refine ⟨hslots, fun issue hissue => ?_⟩
    obtain ⟨number, hnumber⟩ := List.getElem?_of_mem hissue
    exact (hhandles number issue hnumber).named
  refine ⟨fun place gpus start hgpus hstart => ?_, fun number hnumber place gpus hgpus =>
    ⟨hfires hnumber hgpus, fun hdispatches other hother hdispatches' => ?_⟩⟩
  · obtain ⟨hvariant, hslots, hhandles⟩ := hlane hgpus hstart
    obtain ⟨lane, hown, hskipped, houtcomes, hreported⟩ := hattentive.toUnmanned.counted_runToEnd
      hstart (Specification.fits_of_validate hvariant.valid) (hvariant.decides hdevice)
    have hissued : ((w.startAll starts).runToEnd.view.issuesOf (w.lanes.length + place)).length =
        family.slots.length := by
      rw [← hslots, List.length_map]
    rw [hissued] at houtcomes hreported
    have hplace := (List.getElem?_eq_some_iff.mp hstart).1
    refine ⟨hslots, hhandles, fun issue hissue hnone => ?_, ⟨lane, hown, hskipped, houtcomes⟩,
      fun finish hmem hindex => ?_⟩
    · exact hattentive.recorded_runToEnd (World.mem_newLanes.mpr ⟨by omega, by omega⟩) hnodup
        hissue hnone
    · obtain ⟨r, hresult, hsuccessful, hfailed, hcount⟩ := hreported finish hmem hindex
      refine ⟨r, hresult, hcount, ?_, ?_⟩
      · rwa [hsuccessful]
      · rwa [hsuccessful, hfailed, hcount]
  · obtain ⟨more, hmore⟩ : ∃ more, counts[other]? = some more :=
      ⟨_, List.getElem?_eq_getElem hother⟩
    have hboth := ((hfires hnumber hmore).mp hdispatches').symm.trans
      ((hfires hnumber hgpus).mp hdispatches)
    obtain rfl : more = gpus := by exact_mod_cast Option.some.inj hboth
    exact (List.getElem?_inj hother hdistinct).mp (hmore.trans hgpus.symm)

end Variants

/-! ## Two variants -/

/-- The driver of one of the variants. -/
def Start.bert (gpus : Nat) : Start where
  plan := {
    index := 0
    function := { Family.bert.function with name := gpuVariant "bert" gpus }
    siblings := []
    policy := .gpuMatching 32 .gpuVariants
    configuration := Family.bert.configuration }
  context := { invoker := .scripted fun _ => {} }
  specification := {
    gaps := [[0, 500000]], perStepCount := [2], rawDuration := []
    slots := [[{ runtime := 100, memory := 64 }, { runtime := 100, memory := 64 }]] }

theorem Start.bert_variant {gpus : Nat} (hfits : gpus < 2 ^ 63) :
    Family.bert.Variant gpus (Start.bert gpus).plan (Start.bert gpus).specification where
  name := rfl
  fits := hfits
  invocations := rfl
  batches := rfl
  policy := rfl
  configuration := rfl
  valid := rfl
  punctual step slot hslot := by
    cases step with
    | zero =>
      have hslot : slot < 2 := hslot
      change Driver.nominal [0, 500000] (slot + 1) ≤ 1000 * 1000
      interval_cases slot <;> decide +kernel
    | succ step => exact absurd hslot (Nat.not_lt_zero slot)

theorem Start.bert_forall₂ : List.Forall₂ (fun gpus (start : Start) =>
    Family.bert.Variant gpus start.plan start.specification) [1, 2] [.bert 1, .bert 2] :=
  .cons (Start.bert_variant (by decide)) (.cons (Start.bert_variant (by decide)) .nil)

/-- The first slot goes to the invoker from the first driver only, the second from the second. -/
theorem variants_share_bert :
    0 < Family.bert.batchPerDevice ∧ Family.bert.configuration.testMode = false ∧
      [1, 2].Nodup ∧
      List.Forall₂ (fun gpus (start : Start) =>
        Family.bert.Variant gpus start.plan start.specification) [1, 2] [.bert 1, .bert 2] ∧
      (∀ place < 2, ∀ step, ¬(({} : World).startAll [.bert 1, .bert 2]).WillStopAt place step) ∧
      (({} : World).startAll [.bert 1, .bert 2]).runToEnd.Shares 0 .bert 1 (.bert 1) ∧
      (({} : World).startAll [.bert 1, .bert 2]).runToEnd.Shares 1 .bert 2 (.bert 2) ∧
      ∀ place < 2, ∀ number < 2,
        (({} : World).startAll [.bert 1, .bert 2]).runToEnd.Dispatches place number ↔
          number = place := by
  have hstart {place : Nat} (hplace : place < 2) :
      [Start.bert 1, .bert 2][place]? = some (.bert (place + 1)) := by
    interval_cases place <;> rfl
  have hcalm : ∀ place < 2, ∀ step,
      ¬(({} : World).startAll [.bert 1, .bert 2]).WillStopAt (0 + place) step :=
    fun place hplace => Unmanned.empty.toFounded.not_willStopAt (hstart hplace) rfl
  obtain ⟨hshares, hdispatches⟩ := Attentive.empty.variants_share (by decide) rfl (by decide)
    Start.bert_forall₂ hcalm
  have hfires (place : Nat) (hplace : place < 2) (number : Nat) (hnumber : number < 2) :
      (({} : World).startAll [.bert 1, .bert 2]).runToEnd.Dispatches (0 + place) number ↔
        Family.bert.gpusFor (number + 1) = some ((place + 1 : Nat) : Int) :=
    (hdispatches number hnumber place (place + 1) (by interval_cases place <;> rfl)).1
  simp only [Nat.zero_add] at hcalm hfires
  refine ⟨by decide, rfl, by decide, Start.bert_forall₂, hcalm, hshares 0 1 _ rfl rfl,
    hshares 1 2 _ rfl rfl, fun place hplace number hnumber => ?_⟩
  rw [hfires place hplace number hnumber]
  interval_cases place <;> interval_cases number <;> decide

end TraceReplay.Replay
