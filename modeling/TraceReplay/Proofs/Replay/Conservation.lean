import TraceReplay.Proofs.Replay.Books
import TraceReplay.Proofs.Replay.Ending
import TraceReplay.Proofs.Replay.Refinement

/-!
# Conservation of records

Books that balance show no record that was not owed for a slot, and count no slot twice.
So when the collector has as many records as slots were issued, it has the record of each
of them and all of them are counted: a record that is lost, or an invocation that ends
without one, is missed.
-/

namespace TraceReplay.Replay

inductive Due.Kind where
  | outcome
  | record
  | job
  | success
deriving DecidableEq

namespace Due

def kind : Due → Kind
  | .outcome _ => .outcome
  | .record _ => .record
  | .job _ => .job
  | .success => .success

@[simp]
theorem kind_outcome (id : String) : (Due.outcome id).kind = .outcome := rfl

@[simp]
theorem kind_record (id : String) : (Due.record id).kind = .record := rfl

@[simp]
theorem kind_job (id : String) : (Due.job id).kind = .job := rfl

@[simp]
theorem kind_success : Due.success.kind = .success := rfl

end Due

namespace Books

/-- No record has been made up: each slot has one record and one job record at most, here or
on their way. -/
structure Attributed (b : Books) : Prop where
  records : ∀ id, b.records.count id + b.due.count (.record id) + b.due.count (.outcome id) ≤
    b.issued.count id
  jobs : ∀ id, b.jobs.count id + b.due.count (.job id) + b.due.count (.outcome id) ≤
    b.issued.count id

/-- Nothing has been made up: besides, each slot is counted at most once. -/
structure Balanced (b : Books) : Prop extends Attributed b where
  stored : Multiset.card b.records + b.due.countP (·.kind = .record) ≤
    b.counted + b.due.count .success
  counted : b.counted + b.due.count .success + b.due.countP (·.kind = .outcome) ≤
    Multiset.card b.issued

/-- The records of the slots nothing was invoked for are here or on their way. -/
structure Covered (b : Books) : Prop where
  records : ∀ id, b.skipped.count id ≤ b.records.count id + b.due.count (.record id)
  jobs : ∀ id, b.skipped.count id ≤ b.jobs.count id + b.due.count (.job id)

variable {complete : Prop} {b b' : Books}

/-- What an entry takes from what is due it puts elsewhere, or it is lost. -/
theorem Attributed.entry (hattributed : b.Attributed) (hentry : Entry complete b b') :
    b'.Attributed where
  records id := by
    have hrecords := hattributed.records id
    cases hentry <;> simp [owe, issue, count, Books.storeRecord, Books.storeJob,
      Multiset.count_cons] at hrecords ⊢ <;> omega
  jobs id := by
    have hjobs := hattributed.jobs id
    cases hentry <;> simp [owe, issue, count, Books.storeRecord, Books.storeJob,
      Multiset.count_cons] at hjobs ⊢ <;> omega

theorem Balanced.entry (hbalanced : b.Balanced) (hentry : Entry complete b b') : b'.Balanced where
  toAttributed := hbalanced.toAttributed.entry hentry
  stored := by
    have hstored := hbalanced.stored
    cases hentry <;> simp [owe, issue, count, Books.storeRecord, Books.storeJob,
      Multiset.countP_cons] at hstored ⊢ <;> omega
  counted := by
    have hcounted := hbalanced.counted
    cases hentry <;> simp [owe, issue, count, Books.storeRecord, Books.storeJob,
      Multiset.countP_cons] at hcounted ⊢ <;> omega

/-- Records stay attributed to their slots when some of them will not arrive any more. -/
theorem Attributed.forgo (hattributed : b.Attributed) (hissued : b'.issued = b.issued)
    (hdue : b'.due ≤ b.due) (hrecords : b'.records = b.records) (hjobs : b'.jobs = b.jobs) :
    b'.Attributed where
  records id := by
    have hrecord := Multiset.count_le_of_le (.record id) hdue
    have houtcome := Multiset.count_le_of_le (.outcome id) hdue
    have hbefore := hattributed.records id
    rw [hrecords, hissued]
    omega
  jobs id := by
    have hjob := Multiset.count_le_of_le (.job id) hdue
    have houtcome := Multiset.count_le_of_le (.outcome id) hdue
    have hbefore := hattributed.jobs id
    rw [hjobs, hissued]
    omega

/-- Where nothing is lost, what is skipped is on its way from then on. -/
theorem Covered.entry (hcovered : b.Covered) (hcomplete : complete)
    (hentry : Entry complete b b') : b'.Covered where
  records id := by
    have hrecords := hcovered.records id
    cases hentry <;> simp [owe, issue, count, Books.storeRecord, Books.storeJob,
      Multiset.count_cons] at hrecords ⊢ <;>
      first | omega | exact absurd hcomplete ‹_›
  jobs id := by
    have hjobs := hcovered.jobs id
    cases hentry <;> simp [owe, issue, count, Books.storeRecord, Books.storeJob,
      Multiset.count_cons] at hjobs ⊢ <;>
      first | omega | exact absurd hcomplete ‹_›

theorem Attributed.records_le (hattributed : b.Attributed) : b.records ≤ b.issued :=
  Multiset.le_iff_count.mpr fun id => by
    have hrecords := hattributed.records id
    omega

theorem Attributed.jobs_le (hattributed : b.Attributed) : b.jobs ≤ b.issued :=
  Multiset.le_iff_count.mpr fun id => by
    have hjobs := hattributed.jobs id
    omega

/-- Once the collector has as many records as slots were issued, and no driver has a success
to count, each slot was counted. -/
theorem Balanced.counted_eq (hbalanced : b.Balanced) (hnone : b.due.count .success = 0)
    (hall : Multiset.card b.issued ≤ Multiset.card b.records) :
    b.counted = Multiset.card b.issued := by
  have hstored := hbalanced.stored
  have hcounted := hbalanced.counted
  omega

end Books

namespace View

variable {v v' : View} {who : Option Nat} {own : Finset Nat}

theorem opens_step (hstep : Step who v v') :
    v'.recordsOpen = v.recordsOpen ∧ v'.jobsOpen = v.jobsOpen := by
  cases hstep with
  | @drive _ index point s lane rest =>
    simp only [View.drive]
    cases (Driver.turn lane.plan v.clock lane.counters point s).move <;> exact ⟨rfl, rfl⟩
  | _ => exact ⟨rfl, rfl⟩

/-- Nobody stops listening to a lane, or starts to. -/
theorem sinkOpen_step (hstep : Step who v v') {index : Nat} {lane : Lane}
    (hlane : v'.lane index = some lane) :
    ∃ before, v.lane index = some before ∧ before.sinkOpen = lane.sinkOpen := by
  have hsetup := setup_step hstep index
  simp only [setup, hlane, Option.map_some] at hsetup
  obtain ⟨before, hbefore, hsame⟩ := Option.map_eq_some_iff.mp hsetup.symm
  simp only [Prod.mk.injEq] at hsame
  exact ⟨before, hbefore, hsame.2.2⟩

theorem Hears.step (hhears : v.Hears own) (hstep : Step who v v') : v'.Hears own := by
  intro index lane hlane hsink
  obtain ⟨before, hbefore, hsame⟩ := sinkOpen_step hstep hlane
  exact hhears index before hbefore (hsame.trans hsink)

theorem Lossless.step (hlossless : v.Lossless own) (hstep : Step who v v') : v'.Lossless own := by
  obtain ⟨hrecords, hjobs⟩ := opens_step hstep
  refine ⟨hrecords.trans hlossless.recordsOpen, hjobs.trans hlossless.jobsOpen, ?_⟩
  intro index hown lane hlane
  obtain ⟨before, hbefore, hsame⟩ := sinkOpen_step hstep hlane
  exact hsame.symm.trans (hlossless.sinks index hown before hbefore)

/-- What every entry of the books keeps is kept by every step. -/
theorem keeps_books {P : Books → Prop} (horderly : v.Orderly) (hhears : v.Hears own)
    (hstep : Step who v v')
    (hkeeps : ∀ {b b' : Books}, Books.Entry (v.Lossless own) b b' → P b → P b')
    (hP : P (v.books own)) : P (v'.books own) := by
  rcases Relation.reflGen_iff _ _ _ |>.mp (hstep.books horderly hhears) with hsame | hentry
  · exact hsame ▸ hP
  · exact hkeeps hentry hP

/-- The collector hears some lanes only, and its records are those of their slots. -/
def Attributes (own : Finset Nat) (v : View) : Prop := v.Hears own ∧ (v.books own).Attributed

theorem Attributes.step (hattributes : v.Attributes own) (horderly : v.Orderly)
    (hstep : Step who v v') : v'.Attributes own :=
  ⟨hattributes.1.step hstep,
    keeps_books horderly hattributes.1 hstep (fun hentry hbooks => hbooks.entry hentry)
      hattributes.2⟩

/-- The collector hears some lanes only, and their books balance. -/
def Balances (own : Finset Nat) (v : View) : Prop := v.Hears own ∧ (v.books own).Balanced

theorem Balances.step (hbalances : v.Balances own) (horderly : v.Orderly) (hstep : Step who v v') :
    v'.Balances own :=
  ⟨hbalances.1.step hstep,
    keeps_books horderly hbalances.1 hstep (fun hentry hbooks => hbooks.entry hentry) hbalances.2⟩

theorem Balances.attributes (hbalances : v.Balances own) : v.Attributes own :=
  ⟨hbalances.1, hbalances.2.toAttributed⟩

/-- All that is skipped in some lanes reaches the collector, who hears no other lanes. -/
structure Covers (own : Finset Nat) (v : View) : Prop where
  hears : v.Hears own
  lossless : v.Lossless own
  covered : (v.books own).Covered

theorem Covers.step (hcovers : v.Covers own) (horderly : v.Orderly) (hstep : Step who v v') :
    v'.Covers own where
  hears := hcovers.hears.step hstep
  lossless := hcovers.lossless.step hstep
  covered := keeps_books horderly hcovers.hears hstep
    (fun hentry hbooks => hbooks.entry hcovers.lossless hentry) hcovers.covered

/-! ## Books of lanes in which nothing has happened -/

theorem mem_issuesOf {index : Nat} {issue : Driver.Issue} :
    issue ∈ v.issuesOf index ↔ (index, issue) ∈ v.issues := by
  rw [issuesOf, List.mem_reverse, List.mem_filterMap]
  constructor
  · rintro ⟨⟨lane, issue'⟩, hmem, hsome⟩
    obtain ⟨rfl, hsame⟩ := Option.ite_none_right_eq_some.mp hsome
    exact Option.some.inj hsame ▸ hmem
  · exact fun hmem => ⟨(index, issue), hmem, if_pos rfl⟩

/-- The IDs of the slots some lanes have issued, lane after lane. -/
theorem issued_books (own : Finset Nat) (v : View) : (v.books own).issued =
    ∑ index ∈ own, ((v.issuesOf index).map (·.invocationId) : Multiset String) := by
  induction hissues : v.issues generalizing v with
  | nil => simp [books, issuedIn, issuesOf, hissues]
  | cons x issues ih =>
    have hrest := ih { v with issues := issues } rfl
    have hfirst (index : Nat) : ((v.issuesOf index).map (·.invocationId) : Multiset String) =
        (if x.1 = index then {x.2.invocationId} else 0) +
          (({ v with issues := issues } : View).issuesOf index).map (·.invocationId) := by
      simp only [issuesOf, hissues, List.map_reverse, Multiset.coe_reverse]
      by_cases heq : x.1 = index <;> simp [heq]
    rw [Finset.sum_congr rfl fun index _ => hfirst index, Finset.sum_add_distrib, ← hrest,
      Finset.sum_ite_eq]
    by_cases hown : x.1 ∈ own <;> simp [books, issuedIn, hissues, hown]

/-- The lane has a driver that has had no turn. -/
def Fresh (v : View) (index : Nat) : Prop :=
  ∃ start : Start, v.lane index = some start.lane ∧
    v.track index start.lane = start.track v.clock index

theorem Fresh.dues (hfresh : ∀ index ∈ own, v.Fresh index) : duesOf own v.standing = 0 := by
  refine Multiset.eq_zero_iff_forall_notMem.mpr fun due hdue => ?_
  obtain ⟨x, hx, index, hown, hlane, hmem⟩ := mem_duesOf hdue
  obtain ⟨start, -, htrack⟩ := hfresh index hown
  have hstanding : x ∈ (v.track index start.lane).standing := mem_ofLane.mpr ⟨hx, hlane⟩
  rw [htrack] at hstanding
  obtain rfl := Multiset.mem_singleton.mp hstanding
  exact absurd hmem (Multiset.notMem_zero _)

/-- Nothing is booked before the drivers have had their first turns. -/
theorem Fresh.books (hfresh : ∀ index ∈ own, v.Fresh index) :
    v.books own = {
      issued := 0, skipped := 0, due := 0
      records := v.records.map (·.invocationId), jobs := v.jobs.map (·.invocationId)
      counted := 0 } := by
  have hnone (x : Nat × Driver.Issue) (hx : x ∈ v.issues) : x.1 ∉ own := by
    intro hown
    obtain ⟨start, -, htrack⟩ := hfresh x.1 hown
    have hissues : v.issuesOf x.1 = [] := congrArg Track.issues htrack
    have hmem : x.2 ∈ v.issuesOf x.1 := mem_issuesOf.mpr hx
    rw [hissues] at hmem
    exact absurd hmem List.not_mem_nil
  have hissued : v.issuedIn own = [] := List.filter_eq_nil_iff.mpr fun x hx => by
    simpa using hnone x hx
  have hcounted : v.counted own = 0 := Finset.sum_eq_zero fun index hown => by
    obtain ⟨start, hlane, -⟩ := hfresh index hown
    rw [hlane]
    rfl
  simp only [View.books, hissued, hcounted, Fresh.dues hfresh]
  rfl

end View

/-- Only drivers owe successes. -/
theorem Task.driving?_of_success {task : Task} (hdue : .success ∈ task.dues) :
    task.driving? ≠ none := by
  induction task with
  | drive => simp [driving?]
  | storeRecord index pair next ih => exact ih (by simpa [dues] using hdue)
  | storeJob index pair next ih => exact ih (by simpa [dues] using hdue)
  | _ => simp [dues] at hdue

/-- Where the drivers have ended no success is due. -/
theorem View.count_success {own : Finset Nat} {v : View}
    (hgone : ∀ x ∈ v.standing, ∀ index ∈ own, x.2.lane? = some index → x.2.driving? = none) :
    (v.books own).due.count .success = 0 := by
  refine Multiset.count_eq_zero.mpr fun hdue => ?_
  obtain ⟨x, hx, index, hown, hlane, hmem⟩ := mem_duesOf hdue
  exact Task.driving?_of_success hmem (hgone x hx index hown hlane)

/-! ## Whole replays -/

/-- The IDs that are composed for the slots some drivers have issued, driver after driver;
`first` is the lane of the first of them. -/
def World.issuedIds (w : World) (first : Nat) (starts : List Start) : List String :=
  starts.zipIdx.flatMap fun (start, place) => (w.view.issuesOf (first + place)).map fun issue =>
    invocationId start.plan.function.name start.plan.configuration.granularity issue.step
      issue.slot

theorem coe_flatMap {α β : Type} (f : α → List β) (xs : List α) :
    (xs.flatMap f : Multiset β) = (xs.map fun x => (f x : Multiset β)).sum := by
  induction xs with
  | nil => rfl
  | cons x xs ih => rw [List.flatMap_cons, ← Multiset.coe_add, ih, List.map_cons, List.sum_cons]

/-- Slots are booked under the IDs that are composed for them. -/
theorem World.coe_issuedIds {w : World} {first : Nat} {starts : List Start}
    (hids : ∀ place start, starts[place]? = some start →
      ∀ issue ∈ w.view.issuesOf (first + place), issue.invocationId =
        invocationId start.plan.function.name start.plan.configuration.granularity issue.step
          issue.slot) :
    (w.issuedIds first starts : Multiset String) =
      (w.view.books (List.range' first starts.length).toFinset).issued := by
  have hown : w.issuedIds first starts = (List.range' first starts.length).flatMap fun index =>
      (w.view.issuesOf index).map (·.invocationId) := by
    have hplaces : List.range' first starts.length =
        (starts.zipIdx.map Prod.snd).map (first + ·) := by
      rw [List.zipIdx_map_snd, List.map_add_range', Nat.add_zero]
    rw [World.issuedIds, hplaces, List.map_map, List.flatMap_map]
    refine List.flatMap_congr fun x hx => List.map_congr_left fun issue hissue => ?_
    exact (hids x.2 x.1 (List.mem_zipIdx_iff_getElem?.mp hx) issue hissue).symm
  rw [hown, coe_flatMap, View.issued_books, List.sum_toFinset _ (List.nodup_range' 1 Nat.one_pos)]

/-- The lanes of drivers that are started in a world. -/
def World.newLanes (w : World) (starts : List Start) : Finset Nat :=
  (List.range' w.lanes.length starts.length).toFinset

@[simp]
theorem World.mem_newLanes {w : World} {starts : List Start} {index : Nat} :
    index ∈ w.newLanes starts ↔
      w.lanes.length ≤ index ∧ index < w.lanes.length + starts.length := by
  rw [newLanes, List.mem_toFinset, List.mem_range'_1]

section Replays

variable {w w' : World} {starts : List Start}

/-- The collector has what it has taken, and what is left in its mailboxes. -/
theorem World.collected_le (own : Finset Nat) (w : World) :
    (w.collector.records.map (·.invocationId) : Multiset String) ≤ (w.view.books own).records ∧
      (w.collector.jobs.map (·.invocationId) : Multiset String) ≤ (w.view.books own).jobs := by
  constructor <;>
    exact Multiset.coe_le.mpr
      ((List.sublist_append_left _ _).map _ : List.Sublist _ _).subperm

/-- If no two slots have the same ID, the collector has taken no two records of one ID. -/
theorem World.nodup_collected {own : Finset Nat} (hattributed : (w.view.books own).Attributed)
    (hissued : (w.view.books own).issued.Nodup) :
    (w.collector.records.map (·.invocationId)).Nodup ∧
      (w.collector.jobs.map (·.invocationId)).Nodup := by
  obtain ⟨hrecords, hjobs⟩ := World.collected_le own w
  exact ⟨Multiset.coe_nodup.mp (Multiset.nodup_of_le (hrecords.trans hattributed.records_le) hissued),
    Multiset.coe_nodup.mp (Multiset.nodup_of_le (hjobs.trans hattributed.jobs_le) hissued)⟩

theorem Founded.fresh_startAll (hfounded : Founded w) (starts : List Start) :
    ∀ index ∈ w.newLanes starts, (w.startAll starts).view.Fresh index := by
  intro index hindex
  obtain ⟨hle, hlt⟩ := World.mem_newLanes.mp hindex
  obtain ⟨place, rfl⟩ := Nat.exists_eq_add_of_le hle
  have hplace : place < starts.length := by omega
  obtain ⟨-, -, hnew⟩ := hfounded.startAll starts
  obtain ⟨hlane, htrack⟩ := hnew place starts[place] (List.getElem?_eq_getElem hplace)
  refine ⟨starts[place], hlane, htrack.trans ?_⟩
  rw [show (w.startAll starts).view.clock = w.clock from w.startAll_clock starts]

theorem World.startAll_records (w : World) (starts : List Start) :
    (w.startAll starts).view.records = w.view.records ∧
      (w.startAll starts).view.jobs = w.view.jobs ∧
      (w.startAll starts).view.recordsOpen = w.view.recordsOpen ∧
      (w.startAll starts).view.jobsOpen = w.view.jobsOpen := by
  induction starts generalizing w with
  | nil => exact ⟨rfl, rfl, rfl, rfl⟩
  | cons start starts ih => exact ih (w.begun start)

/-- Nobody is driven, and the collector has nothing and hears only lanes to come. -/
structure Attentive (w : World) : Prop extends Unmanned w where
  noRecords : w.view.records = 0
  noJobs : w.view.jobs = 0
  recordsOpen : w.records.isOpen = true
  jobsOpen : w.jobs.isOpen = true
  deaf : ∀ lane ∈ w.lanes, lane.sinkOpen = false

namespace Attentive

theorem empty : Attentive {} where
  toUnmanned := Unmanned.empty
  noRecords := rfl
  noJobs := rfl
  recordsOpen := rfl
  jobsOpen := rfl
  deaf := by simp

theorem report (hattentive : Attentive w) (notices : List Notice) :
    Attentive (w.report notices) :=
  { hattentive.toUnmanned.report notices with
    noRecords := hattentive.noRecords
    noJobs := hattentive.noJobs
    recordsOpen := hattentive.recordsOpen
    jobsOpen := hattentive.jobsOpen
    deaf := hattentive.deaf }

/-- The collector hears the lanes that are started and no others. -/
theorem hears_startAll (hattentive : Attentive w) (starts : List Start) :
    (w.startAll starts).view.Hears (w.newLanes starts) := by
  intro index lane hlane hsink
  obtain ⟨own, hown, rfl⟩ := Option.map_eq_some_iff.mp hlane
  obtain ⟨hindex, hget⟩ := List.getElem?_eq_some_iff.mp hown
  rw [World.startAll_lanes, List.length_append, List.length_map] at hindex
  refine World.mem_newLanes.mpr ⟨?_, hindex⟩
  by_contra hold
  rw [World.startAll_lanes, List.getElem?_append_left (by omega)] at hown
  have hclosed := hattentive.deaf own (List.mem_of_getElem? hown)
  rw [Lane.unparked] at hsink
  exact absurd (hclosed.symm.trans hsink) (by simp)

/-- The lanes that are started can send all their records. -/
theorem lossless_startAll (hattentive : Attentive w) (starts : List Start) :
    (w.startAll starts).view.Lossless (w.newLanes starts) := by
  obtain ⟨-, -, hrecords, hjobs⟩ := w.startAll_records starts
  refine ⟨hrecords.trans hattentive.recordsOpen, hjobs.trans hattentive.jobsOpen,
    fun index hindex lane hlane => ?_⟩
  obtain ⟨start, hfresh, -⟩ := hattentive.toFounded.fresh_startAll starts index hindex
  obtain rfl : start.lane = lane := Option.some.inj (hfresh.symm.trans hlane)
  rfl

/-- Nothing is booked before the drivers have had their first turns. -/
theorem books_startAll (hattentive : Attentive w) (starts : List Start) :
    (w.startAll starts).view.books (w.newLanes starts) =
      { issued := 0, skipped := 0, due := 0, records := 0, jobs := 0, counted := 0 } := by
  obtain ⟨hrecords, hjobs, -⟩ := w.startAll_records starts
  rw [View.Fresh.books (hattentive.toFounded.fresh_startAll starts), hrecords, hjobs,
    hattentive.noRecords, hattentive.noJobs, Multiset.map_zero, Multiset.map_zero]

/-- The books of a replay balance at any time. -/
theorem balances (hattentive : Attentive w) (hpasses : (w.startAll starts).Passes w') :
    w'.view.Balances (w.newLanes starts) := by
  refine (hattentive.toUnmanned.startAll starts).1.toSound.view_passes
    (fun horderly hstep hbalances => hbalances.step horderly hstep) ?_ hpasses
  refine ⟨hattentive.hears_startAll starts, ?_⟩
  rw [hattentive.books_startAll]
  exact { records := by simp, jobs := by simp, stored := by simp, counted := by simp }

/-- What is skipped in a replay is on its way to the collector, or there. -/
theorem covers (hattentive : Attentive w) (hpasses : (w.startAll starts).Passes w') :
    w'.view.Covers (w.newLanes starts) := by
  refine (hattentive.toUnmanned.startAll starts).1.toSound.view_passes
    (fun horderly hstep hcovers => hcovers.step horderly hstep) ?_ hpasses
  refine ⟨hattentive.hears_startAll starts, hattentive.lossless_startAll starts, ?_⟩
  rw [hattentive.books_startAll]
  constructor <;> simp

end Attentive

end Replays
end TraceReplay.Replay
