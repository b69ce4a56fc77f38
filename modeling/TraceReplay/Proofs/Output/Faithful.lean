import TraceReplay.Invocation.File
import TraceReplay.Proofs.Output.Lines
import TraceReplay.Proofs.Output.Table
import TraceReplay.Proofs.Output.Writer

/-!
# The output files are faithful

The duration table and the job log are determined by their texts, whatever is in the names and IDs
of their records: the rows of the table are read back by the grammar of tables, and the lines of
the log end at line feeds, which no record has in its own text.
-/

namespace TraceReplay

/-! ## Rows -/

namespace ExecutionRecord

theorem toInt?_intText (n : Int) : (Decimal.intText n).toInt? = some n := by
  have hrepr : Decimal.intText n = n.repr := by
    unfold Decimal.intText
    cases n <;> simp [Int.repr]
  rw [hrepr, Int.toInt?_repr]

theorem truthOfText?_boolText (b : Bool) : truthOfText? (boolText b) = some b := by
  cases b <;> rfl

/-- A row is read as the record it was written for. -/
theorem ofRow?_row (record : ExecutionRecord) : ofRow? record.row = some record := by
  simp [row, ofRow?, toInt?_intText, truthOfText?_boolText]

theorem row_injective : Function.Injective row := by
  intro record other heq
  have hread := congrArg ofRow? heq
  rw [ofRow?_row, ofRow?_row] at hread
  exact Option.some.inj hread

theorem header_ne_nil : header ≠ [] := List.cons_ne_nil _ _

theorem row_ne_nil {records : List ExecutionRecord} : ∀ row ∈ records.map (·.row), row ≠ [] := by
  intro row hrow
  obtain ⟨record, -, rfl⟩ := List.mem_map.mp hrow
  exact List.cons_ne_nil _ _

/-- The duration table of the records, as they come in. -/
def stream (records : List ExecutionRecord) : Writer :=
  .table header (records.map (·.row))

theorem stream_eq (records : List ExecutionRecord) :
    stream records = ⟨records.length, utf8Bytes (Table.write header (records.map (·.row)))⟩ := by
  rw [stream, Writer.table_eq, List.length_map]

theorem holds_write_iff (records : List ExecutionRecord) (rows : List (List String)) :
    Table.Holds (Table.write header (records.map (·.row))) rows ↔
      rows = if records = [] then [] else header :: records.map (·.row) := by
  rw [Table.holds_write_iff header_ne_nil row_ne_nil]
  simp only [Table.contents, List.map_eq_nil_iff]

/-- Records are told apart by their table. -/
theorem stream_injective : Function.Injective fun records => (stream records).file := by
  intro records others heq
  simp only [stream_eq] at heq
  have hrows : records.map (·.row) = others.map (·.row) :=
    Table.write_inj header_ne_nil row_ne_nil row_ne_nil (utf8Bytes_inj heq)
  exact List.map_injective_iff.mpr row_injective hrows

end ExecutionRecord

/-! ## Lines -/

namespace JobColumns

theorem writable_toJson (job : JobColumns) : Json.Writable job.toJson := by
  refine Json.writable_record fun member hmember => ?_
  have hcolumn (xs : List Int) : Json.Writable (.list .ofInt xs) :=
    Json.writable_list Json.writable_ofInt xs
  simp only [List.mem_cons, List.not_mem_nil, or_false] at hmember
  rcases hmember with rfl | rfl | rfl | rfl | rfl | rfl | rfl | rfl | rfl | rfl
  · exact Json.writable_ofText _
  all_goals exact hcolumn _

theorem toJson_injective : Function.Injective toJson := by
  intro job other heq
  cases job
  cases other
  simpa only [toJson, Json.record, List.map_cons, List.map_nil, Json.object.injEq, List.cons.injEq,
    Prod.mk.injEq, true_and, and_true, Json.ofText_injective.eq_iff,
    Json.list_ofInt_injective.eq_iff, mk.injEq] using heq

theorem writable_of_mem {jobs : List JobColumns} :
    ∀ value ∈ jobs.map (·.toJson), value.Writable := by
  intro value hvalue
  obtain ⟨job, -, rfl⟩ := List.mem_map.mp hvalue
  exact job.writable_toJson

/-- The job log of the jobs, as they come in. -/
def stream (jobs : List JobColumns) : Writer := .lines (jobs.map (·.toJson))

theorem stream_eq (jobs : List JobColumns) :
    stream jobs = ⟨jobs.length, Lines.write (jobs.map (·.toJson))⟩ := by
  rw [stream, Writer.lines_eq, List.length_map]

theorem splitOn_stream (jobs : List JobColumns) :
    (stream jobs).file.splitOn 0x0a = jobs.map (·.toJson.compact) ++ [[]] := by
  rw [stream_eq, Lines.splitOn_write writable_of_mem, List.map_map]
  rfl

/-- Jobs are told apart by their log. -/
theorem stream_injective : Function.Injective fun jobs => (stream jobs).file := by
  intro jobs others heq
  simp only [stream_eq] at heq
  have htrees : jobs.map (·.toJson) = others.map (·.toJson) :=
    Lines.write_inj writable_of_mem writable_of_mem heq
  exact List.map_injective_iff.mpr toJson_injective htrees

end JobColumns

/-! ## Files -/

/-- The task of each stream counts its records, and its file is determined by them.  The table
reads as its header and one row a record, each of which reads as the record, unless there are none:
then it is empty.  The log has one line a job, with no line feed inside, and each line reads as the
tree of the job. -/
theorem outputs_faithful :
    (∀ records : List ExecutionRecord,
      let text := Table.write ExecutionRecord.header (records.map (·.row))
      ExecutionRecord.stream records = ⟨records.length, utf8Bytes text⟩ ∧
      ∀ rows, Table.Holds text rows ↔
        rows = if records = [] then [] else ExecutionRecord.header :: records.map (·.row)) ∧
    (∀ record : ExecutionRecord,
      record.row.length = 11 ∧ ExecutionRecord.ofRow? record.row = some record) ∧
    Function.Injective (fun records => (ExecutionRecord.stream records).file) ∧
    (∀ jobs : List JobColumns,
      JobColumns.stream jobs = ⟨jobs.length, Lines.write (jobs.map (·.toJson))⟩ ∧
      (JobColumns.stream jobs).file.splitOn 0x0a = jobs.map (·.toJson.compact) ++ [[]]) ∧
    (∀ job : JobColumns,
      0x0a ∉ job.toJson.compact ∧ Json.parse job.toJson.compact = some job.toJson) ∧
    Function.Injective (fun jobs => (JobColumns.stream jobs).file) := by
  refine ⟨fun records =>
      ⟨ExecutionRecord.stream_eq records, ExecutionRecord.holds_write_iff records⟩,
    fun record => ⟨rfl, record.ofRow?_row⟩, ExecutionRecord.stream_injective,
    fun jobs => ⟨JobColumns.stream_eq jobs, JobColumns.splitOn_stream jobs⟩, fun job => ⟨?_, ?_⟩,
    JobColumns.stream_injective⟩
  · exact job.writable_toJson.printable_compact.not_mem_lineFeed
  · exact Json.parse_compact job.writable_toJson

/-- A record with every delimiter of a table in its names. -/
def delimitedRecord : ExecutionRecord where
  phase := 2
  instanceName := "a,\"b\"\r\n"
  invocationId := "\x00é"

/-- A job with a line feed in its ID. -/
def brokenJob : JobColumns where
  invocationId := "a\n\"b\""
  replica := [-1, 2]

theorem outputs_faithful_delimiters :
    Table.write ExecutionRecord.header [delimitedRecord.row] =
      "phase,instance,invocationId,startTime,requestedDuration,responseTime,actualDuration," ++
      "actualMemoryUsage,memoryAllocationTimeout,connectionTimeout,functionTimeout\n" ++
      "2,\"a,\"\"b\"\"\r\n\",\x00é,0,0,0,0,0,false,false,false\n" ∧
    (∀ rows, Table.Holds (Table.write ExecutionRecord.header [delimitedRecord.row]) rows ↔
      rows = [ExecutionRecord.header, delimitedRecord.row]) ∧
    (JobColumns.stream [brokenJob, brokenJob]).written = 2 ∧
    0x0a ∉ brokenJob.toJson.compact := by
  obtain ⟨htable, -, -, hlog, hjob, -⟩ := outputs_faithful
  refine ⟨by decide +kernel, (htable [delimitedRecord]).2, ?_, (hjob brokenJob).1⟩
  rw [(hlog [brokenJob, brokenJob]).1]
  rfl

/-- Without records there is no header. -/
theorem not_headed_without_records :
    ¬∀ records : List ExecutionRecord,
      Table.Holds (Table.write ExecutionRecord.header (records.map (·.row)))
        (ExecutionRecord.header :: records.map (·.row)) := by
  intro hheaded
  have hempty : Table.Holds (Table.write ExecutionRecord.header []) [] :=
    Table.holds_write ExecutionRecord.header_ne_nil fun row hrow => absurd hrow List.not_mem_nil
  exact absurd ((hheaded []).unique hempty) (List.cons_ne_nil _ _)

end TraceReplay
