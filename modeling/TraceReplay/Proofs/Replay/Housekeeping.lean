import TraceReplay.Proofs.Admission.Link
import TraceReplay.Proofs.Replay.View

/-!
# Housekeeping

What a world keeps in order on its own, whatever its lanes do: a sender waits only
at a full mailbox, a collector with something to collect is about to collect it,
and timers are sorted and lie in the future.  So time never passes while a record
is on its way.
-/

namespace TraceReplay

namespace Replay

/-- The senders of some deliveries may send. -/
def MaySend (lanes : List Lane) (deliveries : List Delivery) : Prop :=
  ∀ delivery ∈ deliveries, ∃ lane, lanes[delivery.lane]? = some lane ∧ lane.sinkOpen = true

theorem MaySend.modify {lanes : List Lane} {deliveries : List Delivery}
    (hmay : MaySend lanes deliveries) (index : Nat) {f : Lane → Lane}
    (hsink : ∀ lane, (f lane).sinkOpen = lane.sinkOpen) :
    MaySend (lanes.modify index f) deliveries := by
  intro delivery hdelivery
  obtain ⟨lane, hlane, hopen⟩ := hmay delivery hdelivery
  rw [List.getElem?_modify, hlane]
  by_cases hindex : index = delivery.lane
  · exact ⟨f lane, by simp [hindex], by rw [hsink, hopen]⟩
  · exact ⟨lane, by simp [hindex], hopen⟩

/-- The order a world keeps on its own. -/
structure Kept (w : World) : Prop where
  recordRoom : w.records.Roomy
  jobRoom : w.jobs.Roomy
  told : w.records.queue ≠ [] ∨ w.jobs.queue ≠ [] → w.collecting = true
  collects : w.collecting = true → .collect ∈ w.ready
  sorted : w.timers.Pairwise fun a b => a.1 ≤ b.1
  future : ∀ timer ∈ w.timers, w.clock.now < timer.1
  hears : w.collector.announcementOpen = true
  recordSenders : MaySend w.lanes w.records.waiting
  jobSenders : MaySend w.lanes w.jobs.waiting

namespace Kept

variable {w : World}

theorem wake (hkept : Kept w) (task : Task) : Kept (w.wake task) :=
  { hkept with collects := fun htold => List.mem_append_left _ (hkept.collects htold) }

theorem goOn (hkept : Kept w) (task : Task) : Kept (w.goOn task) :=
  { hkept with collects := fun htold => List.mem_cons_of_mem _ (hkept.collects htold) }

theorem report (hkept : Kept w) (notices : List Notice) : Kept (w.report notices) :=
  { hkept with }

theorem defer (hkept : Kept w) (task : Task) :
    Kept { w with deferred := w.deferred ++ [task] } := { hkept with }

theorem issue (hkept : Kept w) (issues : List (Nat × Driver.Issue)) :
    Kept { w with issues := issues } := { hkept with }

theorem finish (hkept : Kept w) (finished : List Finish) :
    Kept { w with finished := finished } := { hkept with }

theorem updateLane (hkept : Kept w) (index : Nat) {f : Lane → Lane}
    (hsink : ∀ lane, (f lane).sinkOpen = lane.sinkOpen := by exact fun _ => rfl) :
    Kept (w.updateLane index f) :=
  { hkept with
    recordSenders := hkept.recordSenders.modify index hsink
    jobSenders := hkept.jobSenders.modify index hsink }

theorem mem_insertTimer {due : Nat} {task : Task} {timers : List (Nat × Task)}
    {timer : Nat × Task} :
    timer ∈ World.insertTimer due task timers ↔ timer = (due, task) ∨ timer ∈ timers := by
  induction timers with
  | nil => simp [World.insertTimer]
  | cons head rest ih =>
    simp only [World.insertTimer]
    split
    · simp
    · simp only [List.mem_cons, ih]
      tauto

theorem sorted_insertTimer {due : Nat} {task : Task} {timers : List (Nat × Task)}
    (hsorted : timers.Pairwise fun a b => a.1 ≤ b.1) :
    (World.insertTimer due task timers).Pairwise fun a b => a.1 ≤ b.1 := by
  induction timers with
  | nil => simp [World.insertTimer]
  | cons head rest ih =>
    obtain ⟨hhead, hrest⟩ := List.pairwise_cons.mp hsorted
    simp only [World.insertTimer]
    split
    · rename_i hbefore
      refine List.pairwise_cons.mpr ⟨?_, hsorted⟩
      intro timer htimer
      rcases List.mem_cons.mp htimer with rfl | hmem
      · exact Nat.le_of_lt hbefore
      · exact (Nat.le_of_lt hbefore).trans (hhead timer hmem)
    · rename_i hafter
      refine List.pairwise_cons.mpr ⟨?_, ih hrest⟩
      intro timer htimer
      rcases mem_insertTimer.mp htimer with rfl | hmem
      · exact Nat.le_of_not_lt hafter
      · exact hhead timer hmem

theorem sleepUntil (hkept : Kept w) {due : Nat} (hdue : w.clock.now < due) (task : Task) :
    Kept (w.sleepUntil due task) :=
  { hkept with
    sorted := sorted_insertTimer hkept.sorted
    future := by
      intro timer htimer
      rcases mem_insertTimer.mp htimer with rfl | hmem
      · exact hdue
      · exact hkept.future timer hmem }

end Kept
end Replay
end TraceReplay
