import TraceReplay.Proofs.Replay.Calls
import TraceReplay.Proofs.Replay.Ended
import TraceReplay.Proofs.Replay.Safety

/-!
# Complete collections

Where no record can be lost, every slot that is counted has its record and its job record,
with the collector or on their way.  So when the drivers have ended and no invocation has
panicked, the collector has as many records as slots were issued.
-/

namespace TraceReplay.Replay

namespace Books

/-- Every slot that is counted, or is a success that is yet to be counted, has its record and
its job record, here or on their way. -/
structure Whole (b : Books) : Prop where
  records : Multiset.card b.records + b.due.countP (·.kind = .record) =
    b.counted + b.due.count .success
  jobs : Multiset.card b.jobs + b.due.countP (·.kind = .job) = b.counted + b.due.count .success

/-- Where nothing is lost the books stay whole. -/
theorem Whole.entry {complete : Prop} {b b' : Books} (hwhole : b.Whole) (hcomplete : complete)
    (hentry : Entry complete b b') : b'.Whole where
  records := by
    have hrecords := hwhole.records
    cases hentry <;> simp [owe, issue, count, Books.storeRecord, Books.storeJob,
      Multiset.countP_cons] at hrecords ⊢ <;>
      first | omega | exact absurd hcomplete ‹_›
  jobs := by
    have hjobs := hwhole.jobs
    cases hentry <;> simp [owe, issue, count, Books.storeRecord, Books.storeJob,
      Multiset.countP_cons] at hjobs ⊢ <;>
      first | omega | exact absurd hcomplete ‹_›

end Books

namespace View

variable {own : Finset Nat} {v v' : View}

/-- The collector loses nothing of some lanes and hears no others, and their books are whole. -/
structure Keeps (own : Finset Nat) (v : View) : Prop where
  hears : v.Hears own
  lossless : v.Lossless own
  whole : (v.books own).Whole

theorem Keeps.step {who : Option Nat} (hkeeps : v.Keeps own) (horderly : v.Orderly)
    (hstep : Step who v v') : v'.Keeps own := by
  refine ⟨hkeeps.hears.step hstep, hkeeps.lossless.step hstep, ?_⟩
  rcases Relation.reflGen_iff _ _ _ |>.mp (hstep.books horderly hkeeps.hears) with hsame | hentry
  · exact hsame ▸ hkeeps.whole
  · exact hkeeps.whole.entry hkeeps.lossless hentry

/-- Nothing stands in the lane any more, and all its slots are counted. -/
structure Done (v : View) (index : Nat) : Prop where
  standing : ∀ x ∈ v.standing, x.2.lane? ≠ some index
  outcomes : (v.lane index).elim 0 Lane.outcomes = (v.issuesOf index).length

/-- Where all lanes are done with the collector has a record and a job record for each slot. -/
theorem Keeps.card_eq (hkeeps : v.Keeps own) (hdone : ∀ index ∈ own, v.Done index) :
    Multiset.card (v.books own).records = Multiset.card (v.books own).issued ∧
      Multiset.card (v.books own).jobs = Multiset.card (v.books own).issued := by
  have hnone : (v.books own).due = 0 := by
    apply Multiset.eq_zero_of_forall_notMem
    intro due hdue
    obtain ⟨x, hx, index, hown, hlane, -⟩ := mem_duesOf hdue
    exact (hdone index hown).standing x hx hlane
  have hcounted : (v.books own).counted = Multiset.card (v.books own).issued := by
    calc (v.books own).counted
        = ∑ index ∈ own, (v.lane index).elim 0 Lane.outcomes := rfl
      _ = ∑ index ∈ own, (v.issuesOf index).length :=
          Finset.sum_congr rfl fun index hown => (hdone index hown).outcomes
      _ = Multiset.card (v.books own).issued := by
          rw [issued_books, Multiset.card_sum]
          simp
  have hrecords := hkeeps.whole.records
  have hjobs := hkeeps.whole.jobs
  rw [hnone] at hrecords hjobs
  simp only [Multiset.countP_zero, Multiset.count_zero, Nat.add_zero] at hrecords hjobs
  exact ⟨hrecords.trans hcounted, hjobs.trans hcounted⟩

end View

/-- When nobody is ready any more the collector has all that was sent to it. -/
theorem Kept.collected {w : World} (hkept : Kept w) (hready : w.ready = []) (own : Finset Nat) :
    w.collector.records.length = Multiset.card (w.view.books own).records ∧
      w.collector.jobs.length = Multiset.card (w.view.books own).jobs := by
  obtain ⟨hrecords, hjobs⟩ := hkept.drained hready
  simp [View.books, World.view, hrecords, hjobs]

/-- Nothing of a replay is lost. -/
theorem Attentive.keeps {w : World} (hattentive : Attentive w) (starts : List Start) :
    (w.startAll starts).view.Keeps (w.newLanes starts) := by
  refine ⟨hattentive.hears_startAll starts, hattentive.lossless_startAll starts, ?_⟩
  rw [hattentive.books_startAll]
  constructor <;> simp

theorem World.startAll_collector (w : World) (starts : List Start) :
    (w.startAll starts).collector = w.collector := by
  induction starts generalizing w with
  | nil => rfl
  | cons start starts ih => exact ih (w.begun start)

/-! ## Reliable drivers -/

/-- The driver has a specification that fits and a policy with a verdict on every slot, and its
invocations do not panic. -/
structure Start.Reliable (start : Start) : Prop where
  valid : start.specification.validate start.plan.function = .ok ()
  decides : start.plan.Decides
  returns : start.context.invoker.EndsIn (· ≠ .panics)

section Replays

variable {w u last rested : World} {starts : List Start}

/-- Reliable drivers do not fail. -/
theorem Unmanned.reports (hunmanned : Unmanned w) (hfresh : w.finished = [])
    (hpasses : (w.startAll starts).Passes u) (hreliable : ∀ start ∈ starts, start.Reliable)
    {finish : Finish} (hfinish : finish ∈ u.finished) : ∃ r, finish.result = .ok r := by
  obtain ⟨place, start, hstart, hplace⟩ := hunmanned.exists_start hfresh hpasses hfinish
  have hdriver := hreliable start (List.mem_of_getElem? hstart)
  have hfits := Specification.fits_of_validate hdriver.valid
  obtain ⟨lane, -, -, -, honschedule⟩ :=
    hunmanned.toFounded.onSchedule hpasses hstart hfits hdriver.decides
  obtain ⟨r, hresult, -⟩ :=
    honschedule.ended finish (List.mem_filter.mpr ⟨hfinish, by simp [hplace]⟩)
  exact ⟨r, hresult⟩

/-- When nothing is left to do all drivers have ended, if no invocation waits for an answer. -/
theorem Unmanned.length_of_end (hunmanned : Unmanned w) (hfresh : w.finished = [])
    (hpasses : (w.startAll starts).Passes u) (hend : u.step? = none)
    (hanswered : ∀ place < starts.length, u.Answered (w.lanes.length + place)) :
    u.finished.length = starts.length := by
  apply hunmanned.length_ended hfresh hpasses
  intro place hplace
  exact hunmanned.toFounded.finishes hpasses (List.getElem?_eq_getElem hplace) hend
    (hanswered place hplace)

/-- Reliable drivers that have ended are done with their lanes. -/
theorem Ended.done (hended : Ended w starts last rested)
    (hreliable : ∀ start ∈ starts, start.Reliable) {index : Nat}
    (hindex : index ∈ w.newLanes starts) : rested.view.Done index := by
  refine ⟨fun x hx => hended.gone hindex hx, ?_⟩
  rw [World.newLanes, List.mem_toFinset, ← hended.lanes_ended.mem_iff] at hindex
  obtain ⟨finish, hfinish, rfl⟩ := List.mem_map.mp hindex
  obtain ⟨place, start, hstart, hplace⟩ := hended.exists_start hfinish
  obtain ⟨r, hresult, hreported⟩ := hended.reported hfinish
  have hreturns := (hreliable start (List.mem_of_getElem? hstart)).returns
  obtain ⟨lane, hlane, ⟨-, hcomplete⟩, -⟩ := hended.hasTrack hstart hfinish hplace
    (P := fun t => t.EndsIn (· ≠ .panics) ∧ t.Complete)
    ⟨start.track_endsIn _ _ hreturns, start.track_complete _ _⟩
    fun horderly hboth hstep =>
      ⟨hboth.1.step horderly hstep, hboth.2.step hboth.1 id hstep⟩
  have hempty : (rested.view.track (w.lanes.length + place) lane).standing = 0 := by
    apply Multiset.eq_zero_of_forall_notMem
    intro x hx
    obtain ⟨hmem, howner⟩ := mem_ofLane.mp hx
    exact hreported.gone x hmem (hplace ▸ howner)
  have hsettled : (rested.view.track (w.lanes.length + place) lane).settled =
      (rested.view.issuesOf (w.lanes.length + place)).length := hcomplete
  rw [Track.settled, Track.dues, hempty] at hsettled
  rw [hplace, hlane]
  exact hsettled

/-- The collector has a record and a job record of each slot, once the drivers have ended and
nobody is ready any more. -/
theorem Ended.collected (hended : Ended w starts last rested) (hattentive : Attentive w)
    (hreliable : ∀ start ∈ starts, start.Reliable) (hready : rested.ready = []) :
    rested.collector.records.length =
        Multiset.card (rested.view.books (w.newLanes starts)).issued ∧
      rested.collector.jobs.length =
        Multiset.card (rested.view.books (w.newLanes starts)).issued := by
  have hkeeps : rested.view.Keeps (w.newLanes starts) :=
    hended.view (fun horderly hstep hkeeps => hkeeps.step horderly hstep) (hattentive.keeps starts)
  obtain ⟨hrecords, hjobs⟩ := hkeeps.card_eq fun index hindex => hended.done hreliable hindex
  obtain ⟨hcollected, hcollectedJobs⟩ :=
    hended.sound.toKept.collected hready (w.newLanes starts)
  exact ⟨hcollected.trans hrecords, hcollectedJobs.trans hjobs⟩

/-- No total was announced while the world went on. -/
theorem Ended.expected (hended : Ended w starts last rested) :
    rested.collector.expected = w.collector.expected := by
  obtain ⟨notices, hrests⟩ := hended.rests
  calc rested.collector.expected
      = (last.report notices).collector.expected := hrests.expected
    _ = (w.startAll starts).collector.expected := hended.passes.expected
    _ = w.collector.expected := by rw [World.startAll_collector]

end Replays
end TraceReplay.Replay
