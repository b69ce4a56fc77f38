import TraceReplay.Invoker.Scripted
import TraceReplay.Proofs.Experiment.Replay
import TraceReplay.Proofs.Replay.Conservation
import TraceReplay.Proofs.Replay.Refinement

/-!
# Conservation over a run

A run that succeeds has lost nothing: the slots its drivers issued, the outcomes they
counted and the records in both of its files are the same in number, and the records carry
the IDs of the slots.  An invocation that ends without a record would be missed when the
collector is told the total, so no run that has one succeeds.
-/

namespace TraceReplay

/-- Nobody hears of the lanes that were there before a run, and its collector has nothing. -/
theorem Replay.Unmanned.attentive_renewed {w : Replay.World}
    (hunmanned : Replay.Unmanned w.renewed) : Replay.Attentive w.renewed where
  toUnmanned := hunmanned
  noRecords := rfl
  noJobs := rfl
  recordsOpen := rfl
  jobsOpen := rfl
  deaf lane hlane := by
    obtain ⟨before, -, rfl⟩ := List.mem_map.mp hlane
    rfl

namespace Experiment

open Replay (Ended World Start Unmanned View)

/-! ## Totals -/

/-- What one driver adds to the totals. -/
def tallyOf (finish : Replay.Finish) : Summary :=
  match finish.result with
  | .ok r => ⟨r.successful, r.failed, r.issued⟩
  | .error _ => {}

/-- The totals with what one more driver adds to them. -/
def addTally (total : Summary) (finish : Replay.Finish) : Summary :=
  total.add (tallyOf finish).successful (tallyOf finish).failed (tallyOf finish).issued

theorem totals_eq (w : World) : totals w = w.finished.reverse.foldl addTally {} := by
  unfold totals
  congr 1
  funext total finish
  unfold addTally tallyOf
  cases finish.result with
  | ok r => rfl
  | error error => simp [Summary.add]

/-- Whatever adds up over totals adds up over the drivers that ended. -/
theorem totals_sum {g : Summary → Int} (hzero : g {} = 0)
    (hadd : ∀ total successful failed issued,
      g (total.add successful failed issued) = g total + g ⟨successful, failed, issued⟩)
    (w : World) : g (totals w) = (w.finished.map fun finish => g (tallyOf finish)).sum := by
  have hfold (finishes : List Replay.Finish) (total : Summary) :
      g (finishes.foldl addTally total) =
        g total + (finishes.map fun finish => g (tallyOf finish)).sum := by
    induction finishes generalizing total with
    | nil => simp
    | cons finish finishes ih =>
      rw [List.foldl_cons, ih, List.map_cons, List.sum_cons, addTally, hadd, add_assoc]
  rw [totals_eq, hfold, hzero, zero_add, List.map_reverse, List.sum_reverse]

section Ended

variable {w last rested : World} {starts : List Start}

/-- The slots that are summed up are those that were issued. -/
theorem issued_totals (hended : Ended w starts last rested) : (totals last).issued =
    (Multiset.card (rested.view.books (w.newLanes starts)).issued : Int) := by
  have hdriver : ∀ finish ∈ last.finished,
      (tallyOf finish).issued = ((rested.view.issuesOf finish.lane).length : Int) := by
    intro finish hmem
    obtain ⟨r, hresult, hreported⟩ := hended.reported hmem
    rw [tallyOf, hresult]
    exact congrArg Nat.cast hreported.issued
  have hissued := totals_sum (g := Summary.issued) rfl (fun _ _ _ _ => rfl) last
  rw [List.map_congr_left hdriver,
    hended.sum_lanes fun index => (rested.view.issuesOf index).length] at hissued
  rw [hissued, View.issued_books, Multiset.card_sum]
  simp

/-- The outcomes that are summed up are those that were counted. -/
theorem outcomes_totals (hended : Ended w starts last rested) :
    (totals last).successful + (totals last).failed =
      ((rested.view.books (w.newLanes starts)).counted : Int) := by
  have hdriver : ∀ finish ∈ last.finished, (tallyOf finish).successful + (tallyOf finish).failed =
      ((rested.view.lane finish.lane).elim 0 Replay.Lane.outcomes : Nat) := by
    intro finish hmem
    obtain ⟨r, hresult, hreported⟩ := hended.reported hmem
    rw [tallyOf, hresult, ← hreported.outcomes]
    exact (Nat.cast_add _ _).symm
  have houtcomes := totals_sum (g := fun total => total.successful + total.failed) rfl
    (fun total successful failed _ => by simp only [Summary.add]; omega) last
  rw [List.map_congr_left hdriver, hended.sum_lanes fun index =>
    (rested.view.lane index).elim 0 Replay.Lane.outcomes] at houtcomes
  exact houtcomes

/-- No driver has a success to count when the replay has ended. -/
theorem count_success (hended : Ended w starts last rested) :
    (rested.view.books (w.newLanes starts)).due.count .success = 0 := by
  apply View.count_success
  intro x hx index hown hlane
  exact absurd hlane (hended.gone hown hx)

end Ended

/-! ## Collectors that are closed -/

theorem accept_recordsClosed_same (c : Collector) :
    (c.accept .recordsClosed).records = c.records ∧ (c.accept .recordsClosed).jobs = c.jobs ∧
      (c.accept .recordsClosed).expected = c.expected := by
  unfold Collector.accept
  split <;> exact ⟨rfl, rfl, rfl⟩

theorem accept_jobsClosed_same (c : Collector) :
    (c.accept .jobsClosed).records = c.records ∧ (c.accept .jobsClosed).jobs = c.jobs ∧
      (c.accept .jobsClosed).expected = c.expected := by
  unfold Collector.accept
  split <;> exact ⟨rfl, rfl, rfl⟩

/-- A collector that is closed keeps what it has, and expects the total if there is one. -/
theorem closing_same {c : Collector} (hhears : c.announcementOpen = true) (summary : Summary) :
    (closing c summary).records = c.records ∧ (closing c summary).jobs = c.jobs ∧
      (closing c summary).expected =
        if 0 < summary.issued then summary.issued.toNat else c.expected := by
  have hopen := Collector.not_finished_of_open hhears
  obtain ⟨hrecords, hjobs, hexpected⟩ := accept_jobsClosed_same ((c.accept
    (if 0 < summary.issued then .announced summary.issued.toNat else .unannounced)).accept
      .recordsClosed)
  obtain ⟨hrecords', hjobs', hexpected'⟩ := accept_recordsClosed_same (c.accept
    (if 0 < summary.issued then .announced summary.issued.toNat else .unannounced))
  rw [closing, hrecords, hjobs, hexpected, hrecords', hjobs', hexpected']
  split
  · rw [Collector.accept_announced hopen]
    exact ⟨rfl, rfl, rfl⟩
  · rw [Collector.accept_unannounced hopen]
    exact ⟨rfl, rfl, rfl⟩

/-- A collector that met its total has it in both streams. -/
theorem length_of_result_ok {c : Collector} {collection : Collection}
    (hresult : c.result = .ok collection) (hknown : c.expected ≠ Collector.unknownTotal) :
    c.records.length = c.expected ∧ c.jobs.length = c.expected := by
  unfold Collector.result at hresult
  simp only at hresult
  split at hresult
  · exact absurd hresult (by simp)
  · rename_i hmet
    simp only [ne_eq, not_and, not_or, not_not] at hmet
    exact hmet hknown

/-! ## Successful runs -/

namespace Succeeded

variable {e : Experiment} {site : Site} {generated : Bool} {summary : Summary}
  {last rested : World} {p : Progress}

/-- The lanes of the drivers of a run. -/
abbrev lanesOf (e : Experiment) (site : Site) (generated : Bool) : Finset Nat :=
  site.world.renewed.newLanes (e.prepared site generated).drivers

/-- The books of the run balance in the end. -/
theorem balances (hsucceeded : Succeeded e site generated summary last rested p)
    (hunmanned : Unmanned site.world.renewed) :
    rested.view.Balances (lanesOf e site generated) := by
  obtain ⟨notices, hended⟩ := hsucceeded.ended hunmanned
  apply hended.view
  · intro v v' who horderly hstep hbalances
    exact hbalances.step horderly hstep
  · exact (hunmanned.attentive_renewed.report notices).balances .refl

theorem issued_eq (hsucceeded : Succeeded e site generated summary last rested p)
    (hunmanned : Unmanned site.world.renewed) : summary.issued =
      (Multiset.card (rested.view.books (lanesOf e site generated)).issued : Int) := by
  obtain ⟨notices, hended⟩ := hsucceeded.ended hunmanned
  have hissued := issued_totals hended
  rw [hsucceeded.replayed.total]
  exact hissued

theorem outcomes_eq (hsucceeded : Succeeded e site generated summary last rested p)
    (hunmanned : Unmanned site.world.renewed) : summary.successful + summary.failed =
      ((rested.view.books (lanesOf e site generated)).counted : Int) := by
  obtain ⟨notices, hended⟩ := hsucceeded.ended hunmanned
  have houtcomes := outcomes_totals hended
  rw [hsucceeded.replayed.total]
  exact houtcomes

/-- The collector has as many records as slots were issued. -/
theorem length_collected (hsucceeded : Succeeded e site generated summary last rested p)
    (hunmanned : Unmanned site.world.renewed)
    (htotal : summary.issued ≠ Collector.unknownTotal) :
    (rested.collector.records.length : Int) = summary.issued ∧
      (rested.collector.jobs.length : Int) = summary.issued := by
  obtain ⟨notices, hended⟩ := hsucceeded.ended hunmanned
  obtain ⟨collection, hresult⟩ := hsucceeded.replayed.complete
  obtain ⟨hrecords, hjobs, hexpected⟩ := closing_same hended.sound.hears summary
  by_cases hsome : 0 < summary.issued
  · rw [if_pos hsome] at hexpected
    obtain ⟨hlength, hlengthJobs⟩ := length_of_result_ok hresult (by omega)
    rw [hrecords] at hlength
    rw [hjobs] at hlengthJobs
    omega
  · -- Nothing was issued, so there is no record in the books.
    have hissued := hsucceeded.issued_eq hunmanned
    have hbalanced := (hsucceeded.balances hunmanned).2
    obtain ⟨hle, hleJobs⟩ := World.collected_le (lanesOf e site generated) rested
    have hcard := Multiset.card_le_card (hle.trans hbalanced.records_le)
    have hcardJobs := Multiset.card_le_card (hleJobs.trans hbalanced.jobs_le)
    simp only [Multiset.coe_card, List.length_map] at hcard hcardJobs
    omega

/-- Slots are issued under the IDs that are composed for them. -/
theorem issuedIds_eq (hsucceeded : Succeeded e site generated summary last rested p)
    (hunmanned : Unmanned site.world.renewed) :
    (p.site.world.issuedIds site.world.lanes.length (e.prepared site generated).drivers :
      Multiset String) = (rested.view.books (lanesOf e site generated)).issued := by
  obtain ⟨notices, hworld⟩ := hsucceeded.replayed.world
  have hissued : (p.site.world.view.books (lanesOf e site generated)).issued =
      (rested.view.books (lanesOf e site generated)).issued := by
    rw [hworld]
    rfl
  have hlanes : lanesOf e site generated =
      (List.range' site.world.lanes.length (e.prepared site generated).drivers.length).toFinset := by
    rw [lanesOf, World.newLanes, World.renewed, List.length_map]
  rw [← hissued, hlanes]
  refine World.coe_issuedIds fun place start hstart issue hmem => ?_
  obtain ⟨count, hissues, -⟩ := hsucceeded.issuesOf hunmanned hstart
  rw [hissues] at hmem
  obtain ⟨number, hnumber, rfl⟩ := List.mem_mapIdx.mp hmem
  rfl

end Succeeded

/-- A run that succeeds has counted every slot it issued and has a record and a job record of
each of them, under its ID, in its files. -/
theorem run_conserves {e : Experiment} {site : Site} {generated : Bool} {summary : Summary}
    {p : Progress} (hrun : e.run site false generated = (.ok summary, p))
    (hunmanned : Unmanned site.world.renewed)
    (htotal : summary.issued ≠ Collector.unknownTotal) :
    summary.issued = summary.successful + summary.failed ∧
    ∃ (records : List ExecutionRecord) (jobs : List JobRecord),
      p.site.files.read (Collector.durationPath e.configuration) = .ok (some (utf8Bytes
        (Table.write ExecutionRecord.header (records.map (·.row))))) ∧
      p.site.files.read (Collector.joblogsPath e.configuration) = .ok (some
        (Lines.write (jobs.map (·.toJson)))) ∧
      records.length = summary.issued ∧ jobs.length = summary.issued ∧
      (records.map (·.invocationId)).Perm (p.site.world.issuedIds site.world.lanes.length
        (e.prepared site generated).drivers) ∧
      (jobs.map (·.invocationId)).Perm (p.site.world.issuedIds site.world.lanes.length
        (e.prepared site generated).drivers) := by
  obtain ⟨last, rested, hsucceeded⟩ := succeeded_of_run hrun
  obtain ⟨notices, hended⟩ := hsucceeded.ended hunmanned
  have hbalanced := (hsucceeded.balances hunmanned).2
  have hissued := hsucceeded.issued_eq hunmanned
  have hids := hsucceeded.issuedIds_eq hunmanned
  obtain ⟨hlength, hlengthJobs⟩ := hsucceeded.length_collected hunmanned htotal
  obtain ⟨hle, hleJobs⟩ := World.collected_le (Succeeded.lanesOf e site generated) rested
  -- As many records as slots, and none but those of slots: one of each slot.
  have hrecords := Multiset.eq_of_le_of_card_le (hle.trans hbalanced.records_le)
    (by simp only [Multiset.coe_card, List.length_map]; omega)
  have hjobs := Multiset.eq_of_le_of_card_le (hleJobs.trans hbalanced.jobs_le)
    (by simp only [Multiset.coe_card, List.length_map]; omega)
  have hnone := count_success hended
  have hcounted := hbalanced.counted_eq hnone (hrecords ▸ Multiset.card_le_card hle)
  have houtcomes := hsucceeded.outcomes_eq hunmanned
  obtain ⟨hsame, hsameJobs, -⟩ := closing_same hended.sound.hears summary
  obtain ⟨files, houtputs, hfiles⟩ := hsucceeded.replayed.files
  rw [hsucceeded.configuration] at houtputs hfiles
  obtain ⟨hduration, hjoblogs⟩ :=
    Collector.read_fillFiles houtputs (closing rested.collector summary)
  rw [Collector.durationText, hsame] at hduration
  rw [Collector.joblogsText, hsameJobs] at hjoblogs
  refine ⟨by omega, rested.collector.records.reverse, rested.collector.jobs.reverse,
    hfiles ▸ hduration, hfiles ▸ hjoblogs, ?_, ?_, ?_, ?_⟩
  · rwa [List.length_reverse]
  · rwa [List.length_reverse]
  · rw [List.map_reverse]
    exact (List.reverse_perm _).trans (Multiset.coe_eq_coe.mp (hrecords.trans hids.symm))
  · rw [List.map_reverse]
    exact (List.reverse_perm _).trans (Multiset.coe_eq_coe.mp (hjobs.trans hids.symm))

end Experiment

/-- Its first invocation fits one device, its second does not. -/
def Function.resnet : Function where
  name := "resnet-gpu-1"
  endpoint := "resnet-gpu-1.default"
  invocationStats := [2]
  batchStats := [1, 2]
  iterationStats := [10, 20]
  deadlineStats := [5, 5]
  runtimeStats := .fixed 10
  memoryStats := .fixed 64

namespace Experiment

/-- One function on its own, whose invocations succeed at once. -/
def alone : Experiment where
  configuration := .ofLoader
    { experimentDuration := 1, granularity := .second, arrivals := .equidistant }
  functions := [.resnet]
  generator := .ofSeed 42
  invoker := .scripted fun _ => {}
  policy := .gpuMatching 1 .gpuVariants

theorem exists_of_isSome (result : Except ReplayError Summary × Progress)
    (hsome : result.1.toOption.isSome = true) : ∃ summary, result = (.ok summary, result.2) := by
  obtain ⟨_ | summary, p⟩ := result
  · exact absurd hsome (by simp [Except.toOption])
  · exact ⟨summary, rfl⟩

theorem run_conserves_alone : ∃ summary,
    alone.run {} false false = (.ok summary, (alone.run {} false false).2) ∧
    summary.issued = 2 ∧ summary.successful + summary.failed = 2 ∧
    ∃ (records : List ExecutionRecord) (jobs : List JobRecord),
      records.length = 2 ∧ jobs.length = 2 ∧
      (records.map (·.invocationId)).Perm ((alone.run {} false false).2.site.world.issuedIds 0
        (alone.prepared {} false).drivers) ∧
      (jobs.map (·.invocationId)).Perm ((alone.run {} false false).2.site.world.issuedIds 0
        (alone.prepared {} false).drivers) := by
  obtain ⟨summary, hrun⟩ := exists_of_isSome (alone.run {} false false) (by decide +kernel)
  have hissued : summary.issued = 2 := by
    have htwo : (alone.run {} false false).1.toOption.map (·.issued) = some 2 := by decide +kernel
    rw [hrun] at htwo
    exact Option.some.inj htwo
  obtain ⟨hcounted, records, jobs, -, -, hrecords, hjobs, hids, hjobIds⟩ :=
    run_conserves hrun Replay.Unmanned.empty (by rw [hissued]; decide)
  exact ⟨summary, hrun, hissued, by omega, records, jobs, by omega, by omega, hids, hjobIds⟩

end Experiment
end TraceReplay
