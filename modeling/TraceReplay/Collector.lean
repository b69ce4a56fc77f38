import TraceReplay.Invocation
import TraceReplay.Notice
import TraceReplay.Output.File

/-!
# The collector

Gathers the records of all drivers.  How many there will be is announced on its
own, so the collector is done after whichever event completes both streams: the
announcement, a record, or the last stream to close.
-/

namespace TraceReplay

/-- One invocation's records. -/
structure RecordPair where
  record : ExecutionRecord
  job : JobRecord

structure Collection where
  records : Nat
  jobs : Nat
deriving Repr, DecidableEq

/-- What reaches the collector. -/
inductive Collector.Event where
  | record (record : ExecutionRecord)
  | job (job : JobRecord)
  | recordsClosed
  | jobsClosed
  | announced (total : Nat)
  /-- There will be no announcement. -/
  | unannounced

structure Collector where
  /-- Records in order of arrival, the latest first. -/
  records : List ExecutionRecord := []
  jobs : List JobRecord := []
  /-- The announced total, none that is ever reached before. -/
  expected : Nat := 2 ^ 64 - 1
  recordsOpen : Bool := true
  jobsOpen : Bool := true
  announcementOpen : Bool := true

namespace Collector

/-- No total is known. -/
def unknownTotal : Nat := 2 ^ 64 - 1

/-- It is known whether there is a total, and both streams have reached it or closed. -/
def finished (c : Collector) : Bool :=
  !c.announcementOpen
    && ((c.records.length = c.expected && c.jobs.length = c.expected)
      || (!c.recordsOpen && !c.jobsOpen))

/-- Takes in one event; a collector that has finished takes in nothing. -/
def accept (c : Collector) (event : Event) : Collector :=
  if c.finished then c
  else match event with
    | .record record => { c with records := record :: c.records }
    | .job job => { c with jobs := job :: c.jobs }
    | .recordsClosed => { c with recordsOpen := false }
    | .jobsClosed => { c with jobsOpen := false }
    | .announced total => { c with expected := total, announcementOpen := false }
    | .unannounced => { c with announcementOpen := false }

/-- Whether an announcement would still be heard. -/
def listens (c : Collector) : Bool := c.announcementOpen && !c.finished

/-- The numbers collected; an announced total has to be met by both. -/
def result (c : Collector) : Except ReplayError Collection :=
  let records := c.records.length
  let jobs := c.jobs.length
  if c.expected ≠ unknownTotal ∧ (records ≠ c.expected ∨ jobs ≠ c.expected) then
    .error (.incompleteCollection c.expected records jobs)
  else .ok ⟨records, jobs⟩

/-- What is reported of an event: an announced total, and what has been collected once
the event is the last. -/
def noticesOf (c : Collector) (event : Event) : List Notice :=
  if c.finished then []
  else
    let announced := match event with
      | .announced total => [.expecting total]
      | _ => []
    let next := c.accept event
    let collected := match next.result with
      | .ok collection => [.collected collection.records collection.jobs]
      | .error _ => []
    if next.finished then announced ++ collected else announced

/-! ## Files -/

def durationPath (configuration : ReplayConfiguration) : String :=
  configuration.outputPath "duration" "csv"

def joblogsPath (configuration : ReplayConfiguration) : String :=
  configuration.outputPath "joblogs" "json"

/-- Both output files, in the order of their creation. -/
def paths (configuration : ReplayConfiguration) : List String :=
  [durationPath configuration, joblogsPath configuration]

def durationText (c : Collector) : String :=
  Table.write ExecutionRecord.header (c.records.reverse.map (·.row))

def joblogsText (c : Collector) : Bytes := Lines.write (c.jobs.reverse.map (·.toJson))

/-- Both files with everything that has been collected. -/
def fillFiles (c : Collector) (configuration : ReplayConfiguration) (files : Files) : Files :=
  (files.fill (durationPath configuration) (utf8Bytes c.durationText)).fill
    (joblogsPath configuration) c.joblogsText

end Collector
end TraceReplay
