import TraceReplay.Proofs.Collector.Session

/-!
# What a session comes to

Whatever the order of events, a collector finishes with the same records, the same files
and the same result.  It needs the senders to go away only if no total is announced, or
one that is not met.
-/

namespace TraceReplay.Collector

/-- What is returned for so many records and jobs. -/
def outcome (records jobs : Nat) : Option Nat → Except ReplayError Collection
  | some total =>
    if records = total ∧ jobs = total then .ok ⟨total, total⟩
    else .error (.incompleteCollection total records jobs)
  | none => .ok ⟨records, jobs⟩

/-- A total is announced, and both streams have so many messages. -/
def Met (records jobs : Nat) (total : Option Nat) : Prop := total = some records ∧ jobs = records

/-- The collector can count the messages, and they do not exceed an announced total that
they do not meet. -/
structure Foreseen (records jobs : Nat) (total : Option Nat) : Prop where
  recordsCount : records < unknownTotal
  jobsCount : jobs < unknownTotal
  known : ∀ announced, total = some announced → announced < unknownTotal
  missed : ∀ announced, total = some announced →
    Met records jobs total ∨ records < announced ∨ jobs < announced

namespace Session

variable {records : List ExecutionRecord} {jobs : List JobRecord} {total : Option Nat}
  {s s' : Session}

/-- The collector has taken everything, and has nothing to add to it. -/
structure Complete (records : List ExecutionRecord) (jobs : List JobRecord) (total : Option Nat)
    (s : Session) : Prop where
  allRecords : s.collector.records.reverse = records
  allJobs : s.collector.jobs.reverse = jobs
  duration : s.collector.durationText = Table.write ExecutionRecord.header (records.map (·.row))
  joblogs : s.collector.joblogsText = Lines.write (jobs.map (·.toJson))
  result : s.collector.result = outcome records.length jobs.length total
  /-- Only a total that is met makes it finish while the streams are open. -/
  closed : ¬Met records.length jobs.length total →
    s.records.box.isOpen = false ∧ s.jobs.box.isOpen = false

theorem finished_iff : s.collector.finished = true ↔ s.collector.announcementOpen = false ∧
    (s.collector.records.length = s.collector.expected ∧
        s.collector.jobs.length = s.collector.expected ∨
      s.collector.recordsOpen = false ∧ s.collector.jobsOpen = false) := by
  simp [finished]

/-! ## A collector that has finished -/

/-- Nothing changes a collector that has finished. -/
theorem collector_act_of_finished (hfinished : s.collector.finished = true) {action : Action}
    (hact : s.act action = some s') : s'.collector = s.collector := by
  cases action with
  | takeRecord => simp [act, hfinished] at hact
  | takeJob => simp [act, hfinished] at hact
  | endRecords => simp [act, hfinished] at hact
  | endJobs => simp [act, hfinished] at hact
  | hear => simp [act, hfinished] at hact
  | settle =>
    obtain ⟨-, hsame⟩ := Option.ite_none_left_eq_some.mp hact
    rw [← Option.some.inj hsame]
  | sendRecord | sendJob | closeRecords | closeJobs =>
    obtain ⟨_, -, rfl⟩ := Option.map_eq_some_iff.mp hact
    rfl

namespace Faithful

variable (hfaithful : s.Faithful records jobs total)

include hfaithful

theorem length_records_le : s.collector.records.length ≤ records.length := by
  have hlength := congrArg List.length hfaithful.records.all
  rw [List.length_append, List.length_reverse] at hlength
  omega

theorem length_jobs_le : s.collector.jobs.length ≤ jobs.length := by
  have hlength := congrArg List.length hfaithful.jobs.all
  rw [List.length_append, List.length_reverse] at hlength
  omega

/-- A collector finishes because it has met the total, or because both streams are over. -/
theorem cause (hforeseen : Foreseen records.length jobs.length total)
    (hfinished : s.collector.finished = true) :
    (Met records.length jobs.length total ∧ s.records.rest = [] ∧ s.jobs.rest = []) ∨
      (s.records.rest = [] ∧ s.records.box.isOpen = false) ∧
        s.jobs.rest = [] ∧ s.jobs.box.isOpen = false := by
  obtain ⟨hheard, ⟨htaken, htakenJobs⟩ | ⟨hrecords, hjobs⟩⟩ := finished_iff.mp hfinished
  · left
    have hexpected := hfaithful.expected
    rw [hheard, if_neg (by simp)] at hexpected
    have hle := hfaithful.length_records_le
    have hleJobs := hfaithful.length_jobs_le
    cases total with
    | none =>
      rw [htaken, hexpected] at hle
      exact absurd hforeseen.recordsCount (Nat.not_lt.mpr hle)
    | some announced =>
      rw [Option.getD_some] at hexpected
      rcases hforeseen.missed announced rfl with hmet | hmissed | hmissed
      · obtain ⟨hsome, hsame⟩ := id hmet
        obtain rfl := Option.some.inj hsome
        refine ⟨hmet, ?_, ?_⟩
        · have hlength := congrArg List.length hfaithful.records.all
          rw [List.length_append, List.length_reverse] at hlength
          exact List.eq_nil_of_length_eq_zero (by omega)
        · have hlength := congrArg List.length hfaithful.jobs.all
          rw [List.length_append, List.length_reverse] at hlength
          exact List.eq_nil_of_length_eq_zero (by omega)
      · omega
      · omega
  · exact .inr ⟨hfaithful.recordsEnded hrecords, hfaithful.jobsEnded hjobs⟩

/-- A collector that has finished has taken everything, and returns what is foreseen. -/
theorem complete (hforeseen : Foreseen records.length jobs.length total)
    (hfinished : s.collector.finished = true) : s.Complete records jobs total := by
  have hcause := hfaithful.cause hforeseen hfinished
  have hrest : s.records.rest = [] ∧ s.jobs.rest = [] := by
    rcases hcause with ⟨-, hrest⟩ | ⟨⟨hrest, -⟩, hrestJobs, -⟩
    · exact hrest
    · exact ⟨hrest, hrestJobs⟩
  have hrecords : s.collector.records.reverse = records := by
    rw [← hfaithful.records.all, hrest.1, List.append_nil]
  have hjobs : s.collector.jobs.reverse = jobs := by
    rw [← hfaithful.jobs.all, hrest.2, List.append_nil]
  have hlength : s.collector.records.length = records.length := by
    rw [← hrecords, List.length_reverse]
  have hlengthJobs : s.collector.jobs.length = jobs.length := by
    rw [← hjobs, List.length_reverse]
  refine ⟨hrecords, hjobs, ?_, ?_, ?_, ?_⟩
  · rw [durationText, hrecords]
  · rw [joblogsText, hjobs]
  · have hexpected := hfaithful.expected
    rw [(finished_iff.mp hfinished).1, if_neg (by simp)] at hexpected
    rw [result, hlength, hlengthJobs, hexpected]
    cases htotal : total with
    | none => simp [outcome]
    | some announced =>
      have hknown := (hforeseen.known announced htotal).ne
      by_cases hmet : records.length = announced ∧ jobs.length = announced
      · simp [outcome, hmet.1, hmet.2]
      · have hmissed : records.length ≠ announced ∨ jobs.length ≠ announced :=
          Decidable.not_and_iff_or_not.mp hmet
        simp [outcome, hmet, hmissed, hknown]
  · intro hmissed
    rcases hcause with ⟨hmet, -⟩ | ⟨⟨-, hclosed⟩, -, hclosedJobs⟩
    · exact absurd hmet hmissed
    · exact ⟨hclosed, hclosedJobs⟩

/-! ## A session in which nothing is left to do -/

/-- If nothing can happen but that senders go away, everything has been taken and the
total is heard. -/
theorem quiet (hstuck : ∀ action, action.closes = false → s.act action = none)
    (hgoesOn : s.collector.finished = false) :
    s.collector.announcementOpen = false ∧ s.records.rest = [] ∧ s.jobs.rest = [] := by
  have hsettled : s.settled = true := by
    simpa [Session.act] using hstuck .settle rfl
  refine ⟨?_, ?_, ?_⟩
  · simpa [Session.act, hgoesOn, hsettled] using hstuck .hear rfl
  · cases hopen : s.collector.recordsOpen with
    | false => exact (hfaithful.recordsEnded hopen).1
    | true =>
      apply hfaithful.records.rest_eq_nil
      · simpa [Session.act] using hstuck .sendRecord rfl
      · simpa [Session.act, hgoesOn, hopen] using hstuck .takeRecord rfl
  · cases hopen : s.collector.jobsOpen with
    | false => exact (hfaithful.jobsEnded hopen).1
    | true =>
      apply hfaithful.jobs.rest_eq_nil
      · simpa [Session.act] using hstuck .sendJob rfl
      · simpa [Session.act, hgoesOn, hopen] using hstuck .takeJob rfl

/-- A total that is met is enough to finish. -/
theorem finishes_of_met (hmet : Met records.length jobs.length total)
    (hstuck : ∀ action, action.closes = false → s.act action = none) :
    s.collector.finished = true := by
  by_contra hgoesOn
  obtain ⟨hheard, hrest, hrestJobs⟩ :=
    hfaithful.quiet hstuck (Bool.eq_false_of_not_eq_true hgoesOn)
  obtain ⟨rfl, hsame⟩ := hmet
  have hexpected := hfaithful.expected
  rw [hheard, if_neg (by simp), Option.getD_some] at hexpected
  have hlength := congrArg List.length hfaithful.records.all
  have hlengthJobs := congrArg List.length hfaithful.jobs.all
  rw [hrest, List.append_nil, List.length_reverse] at hlength
  rw [hrestJobs, List.append_nil, List.length_reverse] at hlengthJobs
  exact hgoesOn (finished_iff.mpr ⟨hheard, .inl ⟨by omega, by omega⟩⟩)

/-- When nothing at all can happen the collector has finished. -/
theorem finishes (hstuck : ∀ action, s.act action = none) : s.collector.finished = true := by
  by_contra hgoesOn
  have hgoesOn' := Bool.eq_false_of_not_eq_true hgoesOn
  obtain ⟨hheard, hrest, hrestJobs⟩ := hfaithful.quiet (fun action _ => hstuck action) hgoesOn'
  have hclosed : s.records.box.isOpen = false := by
    apply Stream.Carries.isOpen_eq_false hrest
    simpa [Session.act] using hstuck .closeRecords
  have hclosedJobs : s.jobs.box.isOpen = false := by
    apply Stream.Carries.isOpen_eq_false hrestJobs
    simpa [Session.act] using hstuck .closeJobs
  have hover : s.records.isOver = true := by
    simp only [Stream.rest, List.append_eq_nil_iff] at hrest
    simp [Stream.isOver, hrest.1.1, hclosed]
  have hoverJobs : s.jobs.isOver = true := by
    simp only [Stream.rest, List.append_eq_nil_iff] at hrestJobs
    simp [Stream.isOver, hrestJobs.1.1, hclosedJobs]
  have hrecords : s.collector.recordsOpen = false := by
    simpa [Session.act, hgoesOn', hover] using hstuck .endRecords
  have hjobs : s.collector.jobsOpen = false := by
    simpa [Session.act, hgoesOn', hoverJobs] using hstuck .endJobs
  exact hgoesOn (finished_iff.mpr ⟨hheard, .inr ⟨hrecords, hjobs⟩⟩)

end Faithful

/-! ## Whole sessions -/

theorem Faithful.run (hfaithful : s.Faithful records jobs total) {actions : List Action}
    (hrun : s.run actions = some s') : s'.Faithful records jobs total := by
  induction actions generalizing s with
  | nil =>
    obtain rfl : s = s' := Option.some.inj hrun
    exact hfaithful
  | cons action actions ih =>
    obtain ⟨next, hact, hrun⟩ := Option.bind_eq_some_iff.mp hrun
    exact ih (hfaithful.act hact) hrun

theorem left_run {actions : List Action} (hrun : s.run actions = some s') :
    s'.left + actions.length = s.left := by
  induction actions generalizing s with
  | nil =>
    obtain rfl : s = s' := Option.some.inj hrun
    rfl
  | cons action actions ih =>
    obtain ⟨next, hact, hrun⟩ := Option.bind_eq_some_iff.mp hrun
    have hleft := left_act hact
    have hrest := ih hrun
    rw [List.length_cons]
    omega

theorem left_begin (capacity : Nat) (records : List ExecutionRecord) (jobs : List JobRecord)
    (total : Option Nat) :
    (begin capacity records jobs total).left = 2 * records.length + 2 * jobs.length + 6 := by
  simp only [left, begin, Stream.left_begin, Bool.false_eq_true, if_false, if_true]
  omega

/-- Whatever has happened so far in a session: it comes to an end; the collector finishes
if nothing else can happen, for a total that is met even if the senders stay; and once it
has finished it has taken every message once, in the order of its stream, and returns
what the numbers of messages and the total say. -/
theorem run_complete {capacity : Nat} (hcapacity : 0 < capacity)
    (hforeseen : Foreseen records.length jobs.length total) {actions : List Action}
    (hrun : (begin capacity records jobs total).run actions = some s) :
    actions.length ≤ 2 * records.length + 2 * jobs.length + 6 ∧
      ((∀ action, s.act action = none) → s.collector.finished = true) ∧
      (Met records.length jobs.length total →
        (∀ action, action.closes = false → s.act action = none) →
          s.collector.finished = true) ∧
      (s.collector.finished = true → s.Complete records jobs total ∧
        ∀ action next, s.act action = some next → next.collector = s.collector) := by
  have hfaithful := (faithful_begin hcapacity).run hrun
  have hleft := left_run hrun
  rw [left_begin] at hleft
  refine ⟨by omega, hfaithful.finishes, hfaithful.finishes_of_met, fun hfinished => ?_⟩
  exact ⟨hfaithful.complete hforeseen hfinished,
    fun _ _ hact => collector_act_of_finished hfinished hact⟩

/-- Everything reaches a collector with room for one message each, and nobody goes away. -/
theorem run_complete_one :
    Foreseen 1 1 (some 1) ∧ ∃ s : Session,
      (begin 1 [{ invocationId := "f-min0.inv0" }] [{ invocationId := "f-min0.inv0" }] (some 1)).run
        [.sendRecord, .takeRecord, .settle, .hear, .sendJob, .takeJob] = some s ∧
      s.collector.finished = true ∧ s.collector.result = .ok ⟨1, 1⟩ := by
  have hforeseen : Foreseen 1 1 (some 1) :=
    ⟨by decide, by decide, by decide, fun _ _ => .inl ⟨rfl, rfl⟩⟩
  refine ⟨hforeseen, ?_⟩
  obtain ⟨s, hrun⟩ : ∃ s, (begin 1 [{ invocationId := "f-min0.inv0" }]
      [{ invocationId := "f-min0.inv0" }] (some 1)).run
        [.sendRecord, .takeRecord, .settle, .hear, .sendJob, .takeJob] = some s := ⟨_, rfl⟩
  obtain ⟨-, -, -, hcomplete⟩ := run_complete Nat.one_pos (by exact hforeseen) hrun
  have hfinished : s.collector.finished = true := by
    rw [← Option.some.inj hrun]
    rfl
  exact ⟨s, hrun, hfinished, (hcomplete hfinished).1.result⟩

end Session
end TraceReplay.Collector
