import TraceReplay.Collector
import Mathlib

/-!
# What a collector takes in

A collector that has not finished takes in every event; as long as no announcement has
been made or given up it cannot have finished.
-/

namespace TraceReplay.Collector

variable {c : Collector}

theorem not_finished_of_open (hopen : c.announcementOpen = true) : c.finished = false := by
  simp [finished, hopen]

theorem accept_record (hfinished : c.finished = false) (record : ExecutionRecord) :
    c.accept (.record record) = { c with records := record :: c.records } := by
  simp [accept, hfinished]

theorem accept_job (hfinished : c.finished = false) (job : JobRecord) :
    c.accept (.job job) = { c with jobs := job :: c.jobs } := by
  simp [accept, hfinished]

theorem accept_recordsClosed (hfinished : c.finished = false) :
    c.accept .recordsClosed = { c with recordsOpen := false } := by
  simp [accept, hfinished]

theorem accept_jobsClosed (hfinished : c.finished = false) :
    c.accept .jobsClosed = { c with jobsOpen := false } := by
  simp [accept, hfinished]

theorem accept_announced (hfinished : c.finished = false) (total : Nat) :
    c.accept (.announced total) = { c with expected := total, announcementOpen := false } := by
  simp [accept, hfinished]

theorem accept_unannounced (hfinished : c.finished = false) :
    c.accept .unannounced = { c with announcementOpen := false } := by
  simp [accept, hfinished]

end TraceReplay.Collector
