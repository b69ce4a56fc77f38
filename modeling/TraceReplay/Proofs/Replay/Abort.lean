import TraceReplay.Proofs.Replay.Conservation
import TraceReplay.Proofs.Replay.Rest

/-!
# Drivers that are given up

When all drivers are given up nobody is driven any more, wherever the drivers stood: ready,
asleep, in a mailbox or in their lanes.  Everything else stays as it was, so the invocations
in flight go on, and the records that arrive are still those of slots that were issued.
-/

namespace TraceReplay.Replay

theorem Task.isDriver_eq (task : Task) : task.isDriver = task.driving?.isSome := by
  induction task with
  | storeRecord lane pair next ih => exact ih
  | storeJob lane pair next ih => exact ih
  | _ => rfl

/-- Tasks that are no drivers. -/
def undriven (standing : Standing) : Standing := standing.filter fun x => x.2.driving? = none

theorem undriven_placed (place : Place) (tasks : List Task) :
    undriven (placed place tasks) = placed place (tasks.filter (!Task.isDriver ·)) := by
  induction tasks with
  | nil => rfl
  | cons task tasks ih =>
    rw [placed_cons, undriven, Multiset.filter_cons, ← undriven, ih, List.filter_cons,
      Task.isDriver_eq]
    cases task.driving? <;> simp

theorem undriven_sleeping (timers : List (Nat × Task)) :
    undriven (sleeping timers) = sleeping (timers.filter fun (_, task) => !Task.isDriver task) := by
  induction timers with
  | nil => rfl
  | cons timer timers ih =>
    obtain ⟨due, task⟩ := timer
    rw [sleeping_cons, undriven, Multiset.filter_cons, ← undriven, ih, List.filter_cons]
    simp only [Task.isDriver_eq]
    cases task.driving? <;> simp

theorem undriven_add (left right : Standing) :
    undriven (left + right) = undriven left + undriven right :=
  Multiset.filter_add _ _ _

/-- Whoever waits in a lane is a driver. -/
theorem undriven_parkedFrom (first : Nat) (lanes : List Lane) :
    undriven (parkedFrom first lanes) = 0 := by
  apply Multiset.filter_eq_nil.mpr
  intro x hx
  obtain ⟨index, lane, point, s, -, -, rfl⟩ := mem_parkedFrom.mp hx
  simp [Task.driving?]

theorem parkedFrom_empty (first : Nat) (lanes : List Lane) :
    parkedFrom first (lanes.map fun lane => { lane with waiting := none }) = 0 := by
  induction lanes generalizing first with
  | nil => rfl
  | cons lane lanes ih => simp [parkedFrom, ih]

theorem parkedFrom_map (f : Lane → Lane) (hwaiting : ∀ lane, (f lane).waiting = lane.waiting)
    (first : Nat) (lanes : List Lane) :
    parkedFrom first (lanes.map f) = parkedFrom first lanes := by
  induction lanes generalizing first with
  | nil => rfl
  | cons lane lanes ih => simp [parkedFrom, ih, hwaiting]

theorem undriven_callers (callers : List Caller) :
    undriven (placed .held (callers.map Caller.unanswered)) =
      placed .held (callers.map Caller.unanswered) := by
  apply Multiset.filter_eq_self.mpr
  intro x hx
  obtain ⟨-, hmem⟩ := mem_placed.mp hx
  obtain ⟨caller, -, hcaller⟩ := List.mem_map.mp hmem
  rw [← hcaller]
  rfl

namespace World

/-- Exactly the drivers are gone. -/
theorem standing_abort (w : World) : w.abort.standing = undriven w.standing := by
  have hwaiting {f : Delivery → Task} (hf : ∀ delivery, (f delivery).isDriver = delivery.next.isDriver)
      (deliveries : List Delivery) :
      placed .held ((deliveries.filter (!·.next.isDriver)).map f) =
        undriven (placed .held (deliveries.map f)) := by
    rw [undriven_placed, List.filter_map]
    congr 2
    exact List.filter_congr fun delivery _ => by simp [hf]
  simp only [standing, heldTasks, abort, hwaiting (f := Delivery.recordTask) fun _ => rfl,
    hwaiting (f := Delivery.jobTask) fun _ => rfl, parkedFrom_empty]
  simp only [undriven_add, undriven_placed .ready, undriven_placed .deferred, undriven_sleeping,
    undriven_callers, undriven_parkedFrom]

theorem view_abort (w : World) :
    w.abort.view = { w.view with standing := undriven w.view.standing } := by
  refine View.ext rfl ?_ ?_ rfl rfl rfl rfl rfl rfl
  · change ofLanes w.abort.standing = undriven (ofLanes w.standing)
    rw [standing_abort]
    exact Multiset.filter_comm _ _ _
  · funext index
    change (w.lanes.map _)[index]?.map Lane.unparked = w.lanes[index]?.map Lane.unparked
    rw [List.getElem?_map, Option.map_map]
    rfl

end World

/-- The world of whose lanes nobody hears any more. -/
def World.unheard (w : World) : World :=
  { w with lanes := w.lanes.map fun lane => { lane with sinkOpen := false } }

/-- Nobody goes away because nobody listens. -/
theorem World.standing_unheard (w : World) : w.unheard.view.standing = w.view.standing := by
  have hparked := parkedFrom_map (fun lane => { lane with sinkOpen := false }) (fun _ => rfl) 0
    w.lanes
  simp only [view, standing, heldTasks, unheard, hparked]

variable {w : World}

theorem Roomy.withdraw {box : Mailbox Delivery} (hroomy : box.Roomy) (kept : Delivery → Bool) :
    Mailbox.Roomy { box with waiting := box.waiting.filter kept } where
  positive := hroomy.positive
  full hwaiting := by
    apply hroomy.full
    intro hnone
    exact hwaiting (by simp [hnone])

theorem MaySend.abort {lanes : List Lane} {deliveries : List Delivery}
    (hmay : MaySend lanes deliveries) (kept : Delivery → Bool) :
    MaySend (lanes.map fun lane => { lane with waiting := none }) (deliveries.filter kept) := by
  intro delivery hdelivery
  obtain ⟨lane, hlane, hopen⟩ := hmay delivery (List.mem_filter.mp hdelivery).1
  exact ⟨{ lane with waiting := none }, by simp [hlane], hopen⟩

theorem Kept.abort (hkept : Kept w) : Kept w.abort where
  recordRoom := Roomy.withdraw hkept.recordRoom _
  jobRoom := Roomy.withdraw hkept.jobRoom _
  told := hkept.told
  collects htold := List.mem_filter.mpr ⟨hkept.collects htold, rfl⟩
  sorted := hkept.sorted.filter _
  future timer htimer := hkept.future timer (List.mem_filter.mp htimer).1
  hears := hkept.hears
  recordSenders := hkept.recordSenders.abort _
  jobSenders := hkept.jobSenders.abort _

/-- Whoever gives up all drivers leaves a world without drivers. -/
theorem Sound.abort (hsound : Sound w) : Driverless w.abort := by
  have hidle : ∀ x ∈ w.abort.view.standing, x.2.driving? = none := by
    intro x hx
    rw [World.view_abort] at hx
    exact (Multiset.mem_filter.mp hx).2
  have hmem {x : Place × Task} (hx : x ∈ undriven w.view.standing) : x ∈ w.view.standing :=
    (Multiset.mem_filter.mp hx).1
  refine { hsound.toKept.abort with orderly := ?_, single := fun index => ?_, idle := hidle }
  · rw [World.view_abort]
    exact ⟨fun x hx => hsound.orderly.allowed x (hmem hx),
      fun x hx => hsound.orderly.owned x (hmem hx)⟩
  · apply le_trans _ (hsound.single index)
    rw [World.view_abort]
    apply Nat.add_le_add_right
    exact Multiset.countP_le_of_le _ (Multiset.filter_le _ _)

/-! ## Records -/

theorem duesOf_mono (own : Finset Nat) {left right : Standing} (hle : left ≤ right) :
    duesOf own left ≤ duesOf own right := by
  obtain ⟨others, rfl⟩ := Multiset.le_iff_exists_add.mp hle
  rw [duesOf, duesOf, Multiset.add_bind]
  exact Multiset.le_add_right _ _

namespace View

variable {own : Finset Nat}

/-- What a driver had yet to deliver is lost with it, and nothing else changes. -/
theorem Attributes.abort (hattributes : w.view.Attributes own) : w.abort.view.Attributes own := by
  rw [World.view_abort]
  exact ⟨hattributes.1,
    hattributes.2.forgo rfl (duesOf_mono own (Multiset.filter_le _ _)) rfl rfl⟩

/-- Nothing is booked because nobody listens. -/
theorem Attributes.unheard (hattributes : w.view.Attributes own) :
    w.unheard.view.Attributes own := by
  refine ⟨fun index lane hlane hsink => ?_, hattributes.2.forgo rfl ?_ rfl rfl⟩
  · obtain ⟨own, hown, rfl⟩ := Option.map_eq_some_iff.mp hlane
    obtain ⟨before, -, rfl⟩ := List.mem_map.mp (List.mem_of_getElem? hown)
    exact absurd hsink (by simp [Lane.unparked])
  · exact (congrArg (duesOf own) w.standing_unheard).le

end View

end TraceReplay.Replay
