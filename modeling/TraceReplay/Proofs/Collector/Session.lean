import TraceReplay.Proofs.Collector.Intake
import TraceReplay.Proofs.Collector.Stream

/-!
# Sessions of a collector

A session is a collector between its sources: the two streams of records, and the total
that is announced or never will be.  Everything that can happen is an action, and any
action that is possible may be the next, so a list of actions is one of the orders in
which everything can happen.
-/

namespace TraceReplay.Collector

structure Session where
  collector : Collector := {}
  records : Stream ExecutionRecord
  jobs : Stream JobRecord
  /-- The total that is to be announced; without one its sender goes away. -/
  total : Option Nat
  /-- The total has been announced, or its sender has gone away. -/
  settled : Bool := false

inductive Action where
  | sendRecord
  | sendJob
  | closeRecords
  | closeJobs
  | settle
  /-- The collector takes a record. -/
  | takeRecord
  | takeJob
  /-- The collector notices that there will be no more records. -/
  | endRecords
  | endJobs
  /-- The collector hears the total, or that there will be none. -/
  | hear
deriving Repr, DecidableEq

/-- The senders of a stream go away. -/
def Action.closes : Action → Bool
  | .closeRecords => true
  | .closeJobs => true
  | _ => false

namespace Session

def begin (capacity : Nat) (records : List ExecutionRecord) (jobs : List JobRecord)
    (total : Option Nat) : Session where
  records := .begin capacity records
  jobs := .begin capacity jobs
  total := total

/-- The collector takes in an event. -/
def tell (s : Session) (event : Event) : Session :=
  { s with collector := s.collector.accept event }

/-- What the collector hears about the total. -/
def announcement (s : Session) : Event :=
  match s.total with
  | some total => .announced total
  | none => .unannounced

/-- One action, if it is possible.  The collector acts until it has finished, and on each
of its sources until that has ended. -/
def act (s : Session) : Action → Option Session
  | .sendRecord => s.records.send?.map ({ s with records := · })
  | .sendJob => s.jobs.send?.map ({ s with jobs := · })
  | .closeRecords => s.records.close?.map ({ s with records := · })
  | .closeJobs => s.jobs.close?.map ({ s with jobs := · })
  | .settle => if s.settled then none else some { s with settled := true }
  | .takeRecord =>
    if s.collector.finished || !s.collector.recordsOpen then none
    else s.records.take?.map fun (record, records) =>
      { s with records := records }.tell (.record record)
  | .takeJob =>
    if s.collector.finished || !s.collector.jobsOpen then none
    else s.jobs.take?.map fun (job, jobs) => { s with jobs := jobs }.tell (.job job)
  | .endRecords =>
    if s.collector.finished || !s.collector.recordsOpen || !s.records.isOver then none
    else some (s.tell .recordsClosed)
  | .endJobs =>
    if s.collector.finished || !s.collector.jobsOpen || !s.jobs.isOver then none
    else some (s.tell .jobsClosed)
  | .hear =>
    if s.collector.finished || !s.collector.announcementOpen || !s.settled then none
    else some (s.tell s.announcement)

/-- Actions one after the other, if all are possible. -/
def run (s : Session) : List Action → Option Session
  | [] => some s
  | action :: actions => (s.act action).bind (·.run actions)

variable {records : List ExecutionRecord} {jobs : List JobRecord} {total : Option Nat}
  {s s' : Session}

/-- What an action needs and what it does, as long as the collector has not finished. -/
inductive Does (s : Session) : Action → Session → Prop
  | sendRecord {stream} (hsend : s.records.send? = some stream) :
      Does s .sendRecord { s with records := stream }
  | sendJob {stream} (hsend : s.jobs.send? = some stream) :
      Does s .sendJob { s with jobs := stream }
  | closeRecords {stream} (hclose : s.records.close? = some stream) :
      Does s .closeRecords { s with records := stream }
  | closeJobs {stream} (hclose : s.jobs.close? = some stream) :
      Does s .closeJobs { s with jobs := stream }
  | settle (hopen : s.settled = false) : Does s .settle { s with settled := true }
  | takeRecord {record stream} (hopen : s.collector.recordsOpen = true)
      (htake : s.records.take? = some (record, stream)) :
      Does s .takeRecord { s with
        records := stream
        collector := { s.collector with records := record :: s.collector.records } }
  | takeJob {job stream} (hopen : s.collector.jobsOpen = true)
      (htake : s.jobs.take? = some (job, stream)) :
      Does s .takeJob { s with
        jobs := stream
        collector := { s.collector with jobs := job :: s.collector.jobs } }
  | endRecords (hopen : s.collector.recordsOpen = true) (hover : s.records.isOver = true) :
      Does s .endRecords { s with collector := { s.collector with recordsOpen := false } }
  | endJobs (hopen : s.collector.jobsOpen = true) (hover : s.jobs.isOver = true) :
      Does s .endJobs { s with collector := { s.collector with jobsOpen := false } }
  | hear (hopen : s.collector.announcementOpen = true) (hsettled : s.settled = true) :
      Does s .hear { s with
        collector := { s.collector with
          expected := s.total.getD s.collector.expected, announcementOpen := false } }

theorem tell_announcement (hfinished : s.collector.finished = false) :
    s.tell s.announcement = { s with
      collector := { s.collector with
        expected := s.total.getD s.collector.expected, announcementOpen := false } } := by
  rw [tell, announcement]
  cases htotal : s.total with
  | some total => rw [accept_announced hfinished]; rfl
  | none => rw [accept_unannounced hfinished]; rfl

theorem does_of_act {action : Action} (hact : s.act action = some s') : s.Does action s' := by
  cases action with
  | sendRecord =>
    obtain ⟨stream, hsend, rfl⟩ := Option.map_eq_some_iff.mp hact
    exact .sendRecord hsend
  | sendJob =>
    obtain ⟨stream, hsend, rfl⟩ := Option.map_eq_some_iff.mp hact
    exact .sendJob hsend
  | closeRecords =>
    obtain ⟨stream, hclose, rfl⟩ := Option.map_eq_some_iff.mp hact
    exact .closeRecords hclose
  | closeJobs =>
    obtain ⟨stream, hclose, rfl⟩ := Option.map_eq_some_iff.mp hact
    exact .closeJobs hclose
  | settle =>
    simp only [act, Option.ite_none_left_eq_some, Bool.not_eq_true, Option.some.injEq] at hact
    obtain ⟨hopen, rfl⟩ := hact
    exact .settle hopen
  | takeRecord =>
    simp only [act, Option.ite_none_left_eq_some, Bool.or_eq_true, not_or, Bool.not_eq_true,
      Option.map_eq_some_iff, Bool.not_eq_false'] at hact
    obtain ⟨⟨hfinished, hopen⟩, ⟨record, stream⟩, htake, rfl⟩ := hact
    rw [tell, accept_record hfinished]
    exact .takeRecord hopen htake
  | takeJob =>
    simp only [act, Option.ite_none_left_eq_some, Bool.or_eq_true, not_or, Bool.not_eq_true,
      Option.map_eq_some_iff, Bool.not_eq_false'] at hact
    obtain ⟨⟨hfinished, hopen⟩, ⟨job, stream⟩, htake, rfl⟩ := hact
    rw [tell, accept_job hfinished]
    exact .takeJob hopen htake
  | endRecords =>
    simp only [act, Option.ite_none_left_eq_some, Bool.or_eq_true, not_or, Bool.not_eq_true,
      Option.some.injEq, Bool.not_eq_false'] at hact
    obtain ⟨⟨⟨hfinished, hopen⟩, hover⟩, rfl⟩ := hact
    rw [tell, accept_recordsClosed hfinished]
    exact .endRecords hopen hover
  | endJobs =>
    simp only [act, Option.ite_none_left_eq_some, Bool.or_eq_true, not_or, Bool.not_eq_true,
      Option.some.injEq, Bool.not_eq_false'] at hact
    obtain ⟨⟨⟨hfinished, hopen⟩, hover⟩, rfl⟩ := hact
    rw [tell, accept_jobsClosed hfinished]
    exact .endJobs hopen hover
  | hear =>
    simp only [act, Option.ite_none_left_eq_some, Bool.or_eq_true, not_or, Bool.not_eq_true,
      Option.some.injEq, Bool.not_eq_false'] at hact
    obtain ⟨⟨⟨hfinished, hopen⟩, hsettled⟩, rfl⟩ := hact
    rw [tell_announcement hfinished]
    exact .hear hopen hsettled

/-! ## What holds on the way -/

/-- What holds of every session on its way. -/
structure Faithful (records : List ExecutionRecord) (jobs : List JobRecord) (total : Option Nat)
    (s : Session) : Prop where
  records : s.records.Carries records s.collector.records
  jobs : s.jobs.Carries jobs s.collector.jobs
  recordsEnded : s.collector.recordsOpen = false → s.records.rest = [] ∧ s.records.box.isOpen = false
  jobsEnded : s.collector.jobsOpen = false → s.jobs.rest = [] ∧ s.jobs.box.isOpen = false
  expected : s.collector.expected =
    if s.collector.announcementOpen then unknownTotal else total.getD unknownTotal
  promise : s.total = total

theorem faithful_begin {capacity : Nat} (hcapacity : 0 < capacity) :
    (begin capacity records jobs total).Faithful records jobs total where
  records := Stream.carries_begin hcapacity records
  jobs := Stream.carries_begin hcapacity jobs
  recordsEnded hended := absurd hended (by simp [begin])
  jobsEnded hended := absurd hended (by simp [begin])
  expected := rfl
  promise := rfl

theorem Faithful.act (hfaithful : s.Faithful records jobs total) {action : Action}
    (hact : s.act action = some s') : s'.Faithful records jobs total := by
  cases does_of_act hact with
  | sendRecord hsend =>
    exact { hfaithful with
      records := hfaithful.records.send hsend
      recordsEnded := fun hended =>
        absurd hsend (by simp [Stream.send?_eq_none (hfaithful.recordsEnded hended).1]) }
  | sendJob hsend =>
    exact { hfaithful with
      jobs := hfaithful.jobs.send hsend
      jobsEnded := fun hended =>
        absurd hsend (by simp [Stream.send?_eq_none (hfaithful.jobsEnded hended).1]) }
  | closeRecords hclose =>
    obtain ⟨hrest, hclosed⟩ := Stream.rest_close hclose
    exact { hfaithful with
      records := hfaithful.records.close hclose
      recordsEnded := fun hended => ⟨hrest.trans (hfaithful.recordsEnded hended).1, hclosed⟩ }
  | closeJobs hclose =>
    obtain ⟨hrest, hclosed⟩ := Stream.rest_close hclose
    exact { hfaithful with
      jobs := hfaithful.jobs.close hclose
      jobsEnded := fun hended => ⟨hrest.trans (hfaithful.jobsEnded hended).1, hclosed⟩ }
  | settle => exact { hfaithful with }
  | takeRecord hopen htake =>
    exact { hfaithful with
      records := hfaithful.records.take htake
      recordsEnded := fun hended => absurd (hopen.symm.trans hended) (by simp) }
  | takeJob hopen htake =>
    exact { hfaithful with
      jobs := hfaithful.jobs.take htake
      jobsEnded := fun hended => absurd (hopen.symm.trans hended) (by simp) }
  | endRecords _ hover =>
    exact { hfaithful with recordsEnded := fun _ => hfaithful.records.ended hover }
  | endJobs _ hover =>
    exact { hfaithful with jobsEnded := fun _ => hfaithful.jobs.ended hover }
  | hear hopen =>
    have hexpected := hfaithful.expected
    rw [if_pos hopen] at hexpected
    exact { hfaithful with
      expected := by
        rw [hfaithful.promise, hexpected]
        rfl }

/-! ## Every session comes to its end -/

/-- What can still happen. -/
def left (s : Session) : Nat :=
  s.records.left + s.jobs.left + (if s.settled then 0 else 1) +
    (if s.collector.recordsOpen then 1 else 0) + (if s.collector.jobsOpen then 1 else 0) +
    if s.collector.announcementOpen then 1 else 0

/-- Every action is one of those that could still happen. -/
theorem left_act {action : Action} (hact : s.act action = some s') : s'.left + 1 = s.left := by
  cases does_of_act hact with
  | sendRecord hsend =>
    have hleft := Stream.left_send hsend
    simp only [left]
    omega
  | sendJob hsend =>
    have hleft := Stream.left_send hsend
    simp only [left]
    omega
  | closeRecords hclose =>
    have hleft := Stream.left_close hclose
    simp only [left]
    omega
  | closeJobs hclose =>
    have hleft := Stream.left_close hclose
    simp only [left]
    omega
  | settle hopen =>
    simp only [left, hopen, Bool.false_eq_true, if_false, if_true]
    omega
  | takeRecord _ htake =>
    have hleft := Stream.left_take htake
    simp only [left]
    omega
  | takeJob _ htake =>
    have hleft := Stream.left_take htake
    simp only [left]
    omega
  | endRecords hopen =>
    simp only [left, hopen, Bool.false_eq_true, if_false, if_true]
    omega
  | endJobs hopen =>
    simp only [left, hopen, Bool.false_eq_true, if_false, if_true]
    omega
  | hear hopen => simp only [left, hopen, Bool.false_eq_true, if_false, if_true, Nat.add_zero]

end Session
end TraceReplay.Collector
