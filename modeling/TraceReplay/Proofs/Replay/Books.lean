import TraceReplay.Proofs.Replay.Orderly

/-!
# The books of a replay

Every slot that is issued owes something: an outcome if it goes to the invoker, else a
success that the driver has yet to count, and a record and a job record on their way.
What is owed by the tasks that stand somewhere, what the collector has and what the lanes
have counted are the books of a replay.  `Books.Entry` says, once, how a step can change
them: nothing is booked that was not owed before.
-/

namespace TraceReplay.Replay

/-- What is owed on account of a slot. -/
inductive Due where
  /-- An invocation has not ended. -/
  | outcome (id : String)
  | record (id : String)
  | job (id : String)
  /-- Nothing was invoked, and the driver has not counted that as a success. -/
  | success
deriving DecidableEq

/-- What a task owes, what follows it included. -/
def Task.dues : Task → Multiset Due
  | .attempt _ dispatch => {.outcome dispatch.invocationId}
  | .answered _ dispatch _ _ => {.outcome dispatch.invocationId}
  | .conclude _ dispatch _ => {.outcome dispatch.invocationId}
  | .storeRecord _ pair next =>
    .record pair.record.invocationId ::ₘ .job pair.job.invocationId ::ₘ next.dues
  | .storeJob _ pair next => .job pair.job.invocationId ::ₘ next.dues
  | .drive _ .stored _ => {.success}
  | .drive .. => 0
  | .release _ => 0
  | .collect => 0
  | .serve => 0
  | .idle => 0

/-- What a task owes in some lanes. -/
def Task.duesIn (own : Finset Nat) (task : Task) : Multiset Due :=
  if ∃ index ∈ own, task.lane? = some index then task.dues else 0

structure Books where
  /-- The IDs of the slots that were issued. -/
  issued : Multiset String
  /-- Those of them that nothing was invoked for. -/
  skipped : Multiset String
  due : Multiset Due
  /-- The IDs of the records and of the job records that the collector has. -/
  records : Multiset String
  jobs : Multiset String
  /-- Outcomes that were counted. -/
  counted : Nat

namespace Books

def owe (b : Books) (dues : Multiset Due) : Books := { b with due := dues + b.due }

def count (b : Books) (more : Nat) : Books := { b with counted := b.counted + more }

/-- A slot that is issued, to the invoker or not. -/
def issue (b : Books) (id : String) (invoked : Bool) : Books :=
  { b with
    issued := id ::ₘ b.issued
    skipped := if invoked then b.skipped else id ::ₘ b.skipped }

def storeRecord (b : Books) (id : String) : Books := { b with records := id ::ₘ b.records }

def storeJob (b : Books) (id : String) : Books := { b with jobs := id ::ₘ b.jobs }

@[simp]
theorem owe_zero (b : Books) : b.owe 0 = b := by simp [owe]

theorem owe_owe (b : Books) (dues more : Multiset Due) :
    (b.owe dues).owe more = b.owe (more + dues) := by simp [owe, add_assoc]

@[simp]
theorem count_zero (b : Books) : b.count 0 = b := rfl

/-- What can be booked; in complete books no record is lost. -/
inductive Entry (complete : Prop) : Books → Books → Prop
  | launch {b : Books} (id : String) :
      Entry complete b ((b.issue id true).owe {.outcome id})
  | skip {b : Books} (id : String) :
      Entry complete b ((b.issue id false).owe {.record id, .job id, .success})
  | succeed {b : Books} : Entry complete (b.owe {.success}) (b.count 1)
  | panic {b : Books} {id : String} : Entry complete (b.owe {.outcome id}) b
  | publish {b : Books} {id : String} :
      Entry complete (b.owe {.outcome id}) ((b.count 1).owe {.record id, .job id})
  | storeRecord {b : Books} {id : String} :
      Entry complete (b.owe {.record id}) (b.storeRecord id)
  | storeJob {b : Books} {id : String} : Entry complete (b.owe {.job id}) (b.storeJob id)
  | loseRecord {b : Books} {id job : String} (hlost : ¬complete) :
      Entry complete (b.owe {.record id, .job job}) b
  | loseJob {b : Books} {id : String} (hlost : ¬complete) : Entry complete (b.owe {.job id}) b

end Books

/-- What tasks owe in some lanes. -/
def duesOf (own : Finset Nat) (standing : Standing) : Multiset Due :=
  standing.bind fun x => x.2.duesIn own

section Dues

variable (own : Finset Nat) {index : Nat}

theorem Task.duesIn_of_mem (hown : index ∈ own) {task : Task} (hlane : task.lane? = some index) :
    task.duesIn own = task.dues := if_pos ⟨index, hown, hlane⟩

theorem Task.duesIn_of_notMem (hown : index ∉ own) {task : Task}
    (hlane : task.lane? = some index) : task.duesIn own = 0 := by
  refine if_neg ?_
  rintro ⟨other, hother, hsame⟩
  obtain rfl : index = other := Option.some.inj (hlane.symm.trans hsame)
  exact hown hother

theorem Task.duesIn_of_dues {task : Task} (hdues : task.dues = 0) : task.duesIn own = 0 := by
  unfold duesIn
  split
  · exact hdues
  · rfl

/-- Of two tasks of one lane that owe the same, both owe it or none does. -/
theorem Task.duesIn_congr {task other : Task} (hlane : task.lane? = other.lane?)
    (hdues : task.dues = other.dues) : task.duesIn own = other.duesIn own := by
  rw [duesIn, duesIn, hlane, hdues]

@[simp]
theorem duesOf_cons (x : Place × Task) (standing : Standing) :
    duesOf own (x ::ₘ standing) = x.2.duesIn own + duesOf own standing :=
  Multiset.cons_bind _ _ _

theorem duesOf_map {f : Place × Task → Place × Task} (htask : ∀ x, (f x).2 = x.2)
    (standing : Standing) : duesOf own (standing.map f) = duesOf own standing := by
  simp only [duesOf, Multiset.bind_map, htask]

end Dues

/-- What is owed in some lanes is owed by a task of one of them. -/
theorem mem_duesOf {own : Finset Nat} {standing : Standing} {due : Due}
    (hdue : due ∈ duesOf own standing) :
    ∃ x ∈ standing, ∃ index ∈ own, x.2.lane? = some index ∧ due ∈ x.2.dues := by
  obtain ⟨x, hx, hmem⟩ := Multiset.mem_bind.mp hdue
  rw [Task.duesIn] at hmem
  split at hmem
  · rename_i howner
    obtain ⟨index, hown, hlane⟩ := howner
    exact ⟨x, hx, index, hown, hlane, hmem⟩
  · exact absurd hmem (Multiset.notMem_zero _)

/-- A driver owes something only where the records it made up are delivered. -/
theorem Task.dues_drive {index : Nat} {point : Driver.Point} {s : Driver.State}
    (hpoint : point ≠ .stored) : (Task.drive index point s).dues = 0 := by
  cases point with
  | stored => exact absurd rfl hpoint
  | _ => rfl

/-- Outcomes that a lane has counted. -/
def Lane.outcomes (lane : Lane) : Nat := lane.counters.successful + lane.counters.failed

namespace View

/-- Outcomes that some lanes have counted. -/
def counted (own : Finset Nat) (v : View) : Nat :=
  ∑ index ∈ own, (v.lane index).elim 0 Lane.outcomes

/-- What some lanes have issued. -/
def issuedIn (own : Finset Nat) (v : View) : List (Nat × Driver.Issue) :=
  v.issues.filter (·.1 ∈ own)

def books (own : Finset Nat) (v : View) : Books where
  issued := ((v.issuedIn own).map (·.2.invocationId) : List String)
  skipped := (((v.issuedIn own).filter (·.2.dispatch.isNone)).map (·.2.invocationId) : List String)
  due := duesOf own v.standing
  records := v.records.map (·.invocationId)
  jobs := v.jobs.map (·.invocationId)
  counted := v.counted own

/-- No other lane can send records. -/
def Hears (own : Finset Nat) (v : View) : Prop :=
  ∀ index lane, v.lane index = some lane → lane.sinkOpen = true → index ∈ own

/-- The lanes can send all their records. -/
structure Lossless (own : Finset Nat) (v : View) : Prop where
  recordsOpen : v.recordsOpen = true
  jobsOpen : v.jobsOpen = true
  sinks : ∀ index ∈ own, ∀ lane, v.lane index = some lane → lane.sinkOpen = true

section Books

variable {own : Finset Nat} {v : View} {index : Nat} {lane : Lane}

/-- A lane that counts some more. -/
theorem counted_setLane (hlane : v.lane index = some lane) {next : Lane} {more : Nat}
    (houtcomes : next.outcomes = lane.outcomes + more) :
    (v.setLane index next).counted own = v.counted own + if index ∈ own then more else 0 := by
  have hothers : ∀ other ∈ own.erase index, ((v.setLane index next).lane other).elim 0 Lane.outcomes =
      (v.lane other).elim 0 Lane.outcomes := fun other hother => by
    rw [setLane_lane_ne _ _ (Finset.ne_of_mem_erase hother)]
  by_cases hown : index ∈ own
  · rw [counted, counted, ← Finset.add_sum_erase _ _ hown, ← Finset.add_sum_erase _ _ hown,
      Finset.sum_congr rfl hothers, setLane_lane_self, hlane, if_pos hown]
    simp only [Option.elim_some, houtcomes]
    omega
  · rw [← Finset.erase_eq_of_notMem hown, if_neg (Finset.notMem_erase _ _)]
    exact Finset.sum_congr rfl hothers

/-- A task in the place of another that owes the same. -/
theorem books_replace {x y : Place × Task} {rest : Standing}
    (hstanding : v.standing = x ::ₘ rest) (hsame : y.2.duesIn own = x.2.duesIn own) :
    { v with standing := y ::ₘ rest }.books own = v.books own := by
  simp only [books, hstanding, duesOf_cons, hsame]
  rfl

@[simp]
theorem books_add (place : Place) (task : Task) :
    (v.add place task).books own = (v.books own).owe (task.duesIn own) := by
  simp only [books, add, duesOf_cons]
  rfl

theorem books_setLane (hlane : v.lane index = some lane) {next : Lane} {more : Nat}
    (houtcomes : next.outcomes = lane.outcomes + more) :
    (v.setLane index next).books own =
      (v.books own).count (if index ∈ own then more else 0) := by
  simp only [books, counted_setLane hlane houtcomes]
  rfl

theorem books_setLane_same (hlane : v.lane index = some lane) {next : Lane}
    (houtcomes : next.outcomes = lane.outcomes) :
    (v.setLane index next).books own = v.books own := by
  rw [books_setLane hlane (houtcomes.trans (Nat.add_zero _).symm), ite_self, Books.count_zero]

/-- Invocations that begin or end are not booked as such. -/
theorem books_flight (hlane : v.lane index = some lane) (inFlight : Nat) :
    (v.setLane index { lane with inFlight := inFlight }).books own = v.books own :=
  books_setLane_same hlane rfl

/-- A view without the first of its tasks. -/
theorem books_rest {x : Place × Task} {rest : Standing} (hstanding : v.standing = x ::ₘ rest) :
    v.books own = ({ v with standing := rest }.books own).owe (x.2.duesIn own) := by
  simp only [books, hstanding, duesOf_cons]
  rfl

/-- A slot that is issued. -/
theorem books_issue (hown : index ∈ own) (issue : Driver.Issue) :
    { v with issues := (index, issue) :: v.issues }.books own =
      (v.books own).issue issue.invocationId issue.dispatch.isSome := by
  cases hdispatch : issue.dispatch with
  | none => simp [books, Books.issue, issuedIn, hown, hdispatch, counted]
  | some dispatch => simp [books, Books.issue, issuedIn, hown, hdispatch, counted]

theorem books_issue_other (hown : index ∉ own) (issue : Driver.Issue) :
    { v with issues := (index, issue) :: v.issues }.books own = v.books own := by
  simp [books, issuedIn, hown, counted]

/-- A driver that issues nothing owes nothing where it goes on. -/
theorem books_move {s : Driver.State} {move : Driver.Move} {point : Driver.Point}
    (hleads : move.Leads point) (hlaunch : ∀ dispatch next, move ≠ .launch dispatch next)
    (hdeliver : ∀ pair next, move ≠ .deliver pair next) :
    (v.move index lane s move).books own = v.books own := by
  have hadd (place : Place) {next : Driver.Point} (hnext : next ≠ .stored) :
      (v.add place (.drive index next s)).books own = v.books own := by
    rw [books_add, Task.duesIn_of_dues own (Task.dues_drive hnext), Books.owe_zero]
  cases move with
  | proceed next =>
    refine hadd _ ?_
    rcases hleads with rfl | rfl | ⟨gap, rfl⟩ <;> simp
  | sleep micros next =>
    refine hadd _ ?_
    rcases hleads.2 with rfl | ⟨gap, rfl⟩ <;> simp
  | yield next =>
    obtain rfl : next = .check := hleads
    exact hadd _ (by simp)
  | await next =>
    obtain rfl : next = .drained := hleads
    exact hadd _ (by simp)
  | launch dispatch next => exact absurd rfl (hlaunch dispatch next)
  | deliver pair next => exact absurd rfl (hdeliver pair next)
  | finish report => rfl
  | fail error => rfl

end Books

variable {own : Finset Nat} {v : View} {index : Nat} {lane : Lane}

open Relation (ReflGen)

theorem reflGen_of_eq {b b' : Books} {complete : Prop} (heq : b' = b) :
    ReflGen (Books.Entry complete) b b' := by
  rw [heq]

/-- The turn of a driver that counts a slot whose records it made up. -/
theorem books_drive_stored {s : Driver.State} {rest : Standing} (complete : Prop)
    (hstanding : v.standing = (.ready, .drive index .stored s) ::ₘ rest)
    (hlane : v.lane index = some lane) :
    ReflGen (Books.Entry complete) (v.books own) (({ v with standing := rest }.drive index lane
      (Driver.turn lane.plan v.clock lane.counters .stored s)).books own) := by
  have hleads := Driver.turn_leads lane.plan v.clock lane.counters .stored s
  have houtcomes : { lane with counters := lane.counters.recordSuccess }.outcomes =
      lane.outcomes + 1 := by
    simp only [Lane.outcomes, Counters.recordSuccess]
    omega
  have hset : ({ v with standing := rest }.setLane index
      { lane with counters := lane.counters.recordSuccess }).books own =
        ({ v with standing := rest }.books own).count (if index ∈ own then 1 else 0) :=
    books_setLane (v := { v with standing := rest }) hlane houtcomes
  rw [books_rest hstanding, View.drive, books_move hleads (by simp [Driver.turn])
    (by simp [Driver.turn])]
  change ReflGen _ _ (({ v with standing := rest }.setLane index
      { lane with counters := lane.counters.recordSuccess }).books own)
  rw [hset]
  by_cases hown : index ∈ own
  · rw [if_pos hown, Task.duesIn_of_mem own hown rfl]
    exact .single .succeed
  · rw [if_neg hown, Task.duesIn_of_notMem own hown rfl, Books.owe_zero]
    exact .refl

/-- A slot that is issued, and the task that owes something for it, are an entry where the lane
is booked. -/
theorem books_issue_add {complete : Prop} {issue : Driver.Issue} {task : Task}
    (htask : task.lane? = some index)
    (hentry : ∀ b : Books, Books.Entry complete b
      ((b.issue issue.invocationId issue.dispatch.isSome).owe task.dues)) :
    ReflGen (Books.Entry complete) (v.books own)
      (({ v with issues := (index, issue) :: v.issues }.books own).owe (task.duesIn own)) := by
  by_cases hown : index ∈ own
  · rw [books_issue hown, Task.duesIn_of_mem own hown htask]
    exact .single (hentry _)
  · rw [books_issue_other hown, Task.duesIn_of_notMem own hown htask, Books.owe_zero]

/-- The turn of a driver. -/
theorem books_drive {point : Driver.Point} {s : Driver.State} {rest : Standing}
    (complete : Prop) (hstanding : v.standing = (.ready, .drive index point s) ::ₘ rest)
    (hlane : v.lane index = some lane) :
    ReflGen (Books.Entry complete) (v.books own) (({ v with standing := rest }.drive index lane
      (Driver.turn lane.plan v.clock lane.counters point s)).books own) := by
  by_cases hpoint : point = .stored
  · subst hpoint
    exact books_drive_stored complete hstanding hlane
  have hissued := Driver.turn_issue_cases lane.plan v.clock lane.counters point s
  have hleads := Driver.turn_leads lane.plan v.clock lane.counters point s
  have hcounters := Driver.turn_counters lane.plan v.clock lane.counters s hpoint
  generalize Driver.turn lane.plan v.clock lane.counters point s = turn at *
  rw [books_rest hstanding, Task.duesIn_of_dues own (Task.dues_drive hpoint), Books.owe_zero]
  have hset (issues : List (Nat × Driver.Issue)) :
      ({ v with standing := rest, issues := issues }.setLane index
        { lane with counters := turn.counters }).books own =
      { v with standing := rest, issues := issues }.books own := by
    apply books_setLane_same (v := { v with standing := rest, issues := issues }) hlane
    rw [hcounters]
  have hgoesOn {next : Driver.Point} (hnext : next ≠ .stored) (s : Driver.State) :
      (Task.drive index next s).duesIn own = 0 := Task.duesIn_of_dues own (Task.dues_drive hnext)
  rcases hissued with ⟨hissue, hlaunch, hdeliver⟩ | ⟨due, dispatch, hissue, hmove, hfires⟩ |
    ⟨due, hissue, hmove⟩
  · refine reflGen_of_eq ?_
    rw [View.drive, books_move hleads hlaunch hdeliver, hissue]
    exact hset _
  · have hlaunched (u : View) (mover : Lane) (hmover : u.lane index = some mover) :
        (u.move index mover turn.state turn.move).books own =
          (u.books own).owe ((Task.attempt index dispatch).duesIn own) := by
      rw [hmove, View.move, books_add, books_add, hgoesOn (by simp), Books.owe_zero,
        books_flight hmover]
    rw [View.drive, hlaunched _ _ (setLane_lane_self _ _ _), hset, hissue]
    refine books_issue_add (v := { v with standing := rest }) rfl fun b => ?_
    have hid : dispatch.invocationId = Driver.currentId lane.plan due := hfires.invocationId
    rw [Task.dues, hid]
    exact .launch _
  · rw [View.drive, hmove, View.move, books_add, hset, hissue]
    exact books_issue_add (v := { v with standing := rest }) rfl fun b => .skip _

theorem outcomes_count (dispatch : Dispatch) (outcome : Outcome) (lane : Lane) :
    { lane with counters := dispatch.count outcome lane.counters }.outcomes =
      lane.outcomes + 1 := by
  simp only [Lane.outcomes, Dispatch.count]
  split
  · simp only [Counters.recordSuccess]
    omega
  · simp only [Counters.recordFailure]
    omega

/-- A lane that cannot send its records is not among those that lose none. -/
theorem not_lossless_of_closed (hown : index ∈ own) (hlane : v.lane index = some lane)
    (hclosed : lane.sinkOpen = false ∨ v.recordsOpen = false ∨ v.jobsOpen = false) :
    ¬v.Lossless own := by
  intro hlossless
  rcases hclosed with hsink | hrecords | hjobs
  · exact absurd (hlossless.sinks index hown lane hlane) (by simp [hsink])
  · exact absurd hlossless.recordsOpen (by simp [hrecords])
  · exact absurd hlossless.jobsOpen (by simp [hjobs])

/-- A task that goes on as another of its lane is an entry where the lane is booked. -/
theorem books_exchange {complete : Prop} {x y : Place × Task} {rest : Standing}
    (hstanding : v.standing = x ::ₘ rest) (hx : x.2.lane? = some index)
    (hy : y.2.lane? = some index)
    (hentry : index ∈ own → ∀ b : Books, Books.Entry complete (b.owe x.2.dues) (b.owe y.2.dues)) :
    ReflGen (Books.Entry complete) (v.books own) ({ v with standing := y ::ₘ rest }.books own) := by
  rw [books_rest hstanding, books_rest (v := { v with standing := y ::ₘ rest }) rfl]
  by_cases hown : index ∈ own
  · rw [Task.duesIn_of_mem own hown hx, Task.duesIn_of_mem own hown hy]
    exact .single (hentry hown _)
  · rw [Task.duesIn_of_notMem own hown hx, Task.duesIn_of_notMem own hown hy]

/-- Every step books one thing at most, and loses nothing where nothing can be lost. -/
theorem Step.books {v' : View} {who : Option Nat} (hstep : Step who v v') (horderly : Orderly v)
    (hhears : v.Hears own) : ReflGen (Books.Entry (v.Lossless own)) (v.books own) (v'.books own) := by
  have hsame {x y : Place × Task} {rest : Standing} (hstanding : v.standing = x ::ₘ rest)
      (hlane : y.2.lane? = x.2.lane?) (hdues : y.2.dues = x.2.dues) :
      ReflGen (Books.Entry (v.Lossless own)) (v.books own)
        ({ v with standing := y ::ₘ rest }.books own) :=
    reflGen_of_eq (books_replace hstanding (Task.duesIn_congr own hlane hdues))
  have hadd (rest : Standing) (task : Task) :
      { v with standing := (.ready, task) ::ₘ rest }.books own =
        ({ v with standing := rest }.books own).owe (task.duesIn own) :=
    books_add (v := { v with standing := rest }) .ready task
  cases hstep with
  | drive hstanding hlane => exact books_drive _ hstanding hlane
  | proceed hstanding _ hproceeds =>
    obtain ⟨htask, hx, -⟩ := hproceeds.orderly
    refine hsame hstanding (hx.trans htask.symm) ?_
    cases hproceeds <;> rfl
  | answer hstanding => exact hsame hstanding rfl rfl
  | queue hstanding => exact hsame hstanding rfl rfl
  | panic hstanding =>
    refine books_exchange hstanding rfl rfl fun _ b => ?_
    simp only [Task.dues, Books.owe_zero]
    exact .panic
  | @publish _ index lane dispatch outcome rest hstanding hlane =>
    rw [books_add, books_setLane (v := { v with standing := rest }) hlane
      (outcomes_count dispatch outcome lane), books_rest hstanding]
    by_cases hown : index ∈ own
    · rw [Task.duesIn_of_mem own hown rfl, Task.duesIn_of_mem own hown rfl, if_pos hown]
      exact .single .publish
    · rw [Task.duesIn_of_notMem own hown rfl, Task.duesIn_of_notMem own hown rfl, if_neg hown,
        Books.owe_zero, Books.owe_zero, Books.count_zero]
  | @storeRecord _ place index lane pair next rest hstanding hplace hlane hsink =>
    have hown : index ∈ own := hhears index lane hlane hsink
    have hstored : ({ v with
        standing := (.ready, .storeJob index pair next) ::ₘ rest
        records := pair.record ::ₘ v.records }).books own =
          (({ v with standing := rest }.books own).owe (Task.storeJob index pair next).dues).storeRecord
            pair.record.invocationId := by
      rw [← Task.duesIn_of_mem own hown rfl, ← hadd]
      simp only [View.books, Books.storeRecord, Multiset.map_cons]
      rfl
    rw [hstored, books_rest hstanding, Task.duesIn_of_mem own hown rfl, Task.dues,
      ← Multiset.singleton_add, ← Books.owe_owe]
    exact .single .storeRecord
  | @storeJob _ place index lane pair next rest hstanding hplace hlane hsink =>
    have hown : index ∈ own := hhears index lane hlane hsink
    have hstored : ({ v with
        standing := (.ready, next) ::ₘ rest
        jobs := pair.job ::ₘ v.jobs }).books own =
          (({ v with standing := rest }.books own).owe next.dues).storeJob
            pair.job.invocationId := by
      rw [← Task.duesIn_of_mem own hown (horderly.first hstanding).2.lane?, ← hadd]
      simp only [View.books, Books.storeJob, Multiset.map_cons]
      rfl
    rw [hstored, books_rest hstanding, Task.duesIn_of_mem own hown rfl, Task.dues,
      ← Multiset.singleton_add, ← Books.owe_owe]
    exact .single .storeJob
  | loseRecord hstanding hlane hclosed =>
    have hnext := (horderly.first hstanding).2.lane?
    refine books_exchange hstanding rfl hnext fun hown b => ?_
    rw [Task.dues, ← Multiset.singleton_add, ← Multiset.singleton_add, ← add_assoc,
      ← Books.owe_owe]
    exact .loseRecord (not_lossless_of_closed hown hlane (hclosed.imp_right .inl))
  | loseJob hstanding hlane hclosed =>
    have hnext := (horderly.first hstanding).2.lane?
    refine books_exchange hstanding rfl hnext fun hown b => ?_
    rw [Task.dues, ← Multiset.singleton_add, ← Books.owe_owe]
    exact .loseJob (not_lossless_of_closed hown hlane (hclosed.imp_right .inr))
  | @release _ index lane rest hstanding hlane =>
    refine reflGen_of_eq ?_
    rw [books_flight (v := { v with standing := rest }) hlane, books_rest hstanding,
      Task.duesIn_of_dues own rfl, Books.owe_zero]
  | @resume _ index lane point s rest hstanding hlane =>
    have hreleased : (Task.release index).duesIn own = 0 := Task.duesIn_of_dues own rfl
    refine reflGen_of_eq ?_
    rw [books_add, books_flight (v := { v with standing := rest }) hlane, books_rest hstanding,
      hreleased, Books.owe_zero]
    exact (books_add (v := { v with standing := rest }) .held (.drive index point s)).symm
  | rouse => exact reflGen_of_eq (by simp only [View.books, duesOf_map own rouse_task]; rfl)
  | tick => exact reflGen_of_eq (by simp only [View.books, duesOf_map own (wakeAt_task _)]; rfl)

end View
end TraceReplay.Replay
