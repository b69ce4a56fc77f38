import TraceReplay.Proofs.Collector.Stream
import TraceReplay.Proofs.Output.Writer

/-!
# Recorders

A recorder is a stream together with the task that writes what comes through it.  Its sender has
at most what it has in hand; the task ends when the sender has gone away and all is written.
-/

namespace TraceReplay.Sampling

open Collector

structure Recorder (α : Type) where
  stream : Stream α
  writer : Writer := .start
  /-- The task has ended. -/
  ended : Bool := false

namespace Recorder

variable {α : Type}

def begin (capacity : Nat) : Recorder α where
  stream := .begin capacity []

/-- The sender has one more message in hand. -/
def offer (r : Recorder α) (message : α) : Recorder α :=
  { r with stream := { r.stream with pending := r.stream.pending ++ [message] } }

/-- The next message in hand is sent; its sender waits if there is no room. -/
def send? (r : Recorder α) : Option (Recorder α) := r.stream.send?.map ({ r with stream := · })

/-- All that was in hand has been accepted. -/
def settled (r : Recorder α) : Bool := r.stream.pending.isEmpty && r.stream.box.waiting.isEmpty

/-- There is something in hand that nobody will take. -/
def refuses (r : Recorder α) : Bool := !r.stream.pending.isEmpty && !r.stream.box.isOpen

/-- The sender goes away, with all that has not been accepted. -/
def hangUp (r : Recorder α) : Recorder α :=
  { r with stream := ⟨[], { r.stream.box with waiting := [], isOpen := false }⟩ }

/-- The task writes one message. -/
def write? (put : Writer → α → Writer) (r : Recorder α) : Option (Recorder α) :=
  if r.ended then none
  else r.stream.take?.map fun (message, stream) =>
    { r with stream := stream, writer := put r.writer message }

/-- The task notices that there will be no more messages. -/
def end? (r : Recorder α) : Option (Recorder α) :=
  if r.ended || !r.stream.isOver then none else some { r with ended := true }

variable {put : Writer → α → Writer} {messages : List α} {r next : Recorder α}

theorem settled_iff : r.settled = true ↔ r.stream.pending = [] ∧ r.stream.box.waiting = [] := by
  simp [settled]

theorem write?_eq_some (hwrite : r.write? put = some next) :
    r.ended = false ∧ ∃ message stream, r.stream.take? = some (message, stream) ∧
      next = { r with stream := stream, writer := put r.writer message } := by
  simp only [write?, Option.ite_none_left_eq_some, Bool.not_eq_true] at hwrite
  obtain ⟨hended, hwrite⟩ := hwrite
  obtain ⟨⟨message, stream⟩, htake, rfl⟩ := Option.map_eq_some_iff.mp hwrite
  exact ⟨hended, message, stream, htake, rfl⟩

theorem end?_eq_some (hend : r.end? = some next) :
    r.ended = false ∧ r.stream.isOver = true ∧ next = { r with ended := true } := by
  simp only [end?, Option.ite_none_left_eq_some, Bool.or_eq_true, Bool.not_eq_true', not_or,
    Bool.not_eq_true, Bool.not_eq_false, Option.some.injEq] at hend
  exact ⟨hend.1.1, hend.1.2, hend.2.symm⟩

/-! ## Open and settled -/

/-- The sender can send, and has nothing in hand. -/
def Idle (r : Recorder α) : Prop := r.settled = true ∧ r.stream.box.isOpen = true

/-- The sender has gone away, and had nothing in hand. -/
def Closed (r : Recorder α) : Prop := r.settled = true ∧ r.stream.box.isOpen = false

/-- A recorder that goes on with what it has is open, settled and ended if it was so before. -/
structure GoesOn (r next : Recorder α) : Prop where
  isOpen : next.stream.box.isOpen = r.stream.box.isOpen
  settled : r.settled = true → next.settled = true
  ended : r.ended = true → next.ended = true

theorem GoesOn.refl (r : Recorder α) : r.GoesOn r := ⟨rfl, id, id⟩

/-- A mailbox that takes a message is open, and stays so. -/
theorem isOpen_send (hsend : r.send? = some next) :
    r.stream.box.isOpen = true ∧ next.stream.box.isOpen = true := by
  obtain ⟨stream, hstream, rfl⟩ := Option.map_eq_some_iff.mp hsend
  unfold Stream.send? at hstream
  cases hpending : r.stream.pending with
  | nil => simp [hpending] at hstream
  | cons message pending =>
    rw [hpending] at hstream
    cases hopen : r.stream.box.isOpen with
    | false => simp [Mailbox.send, hopen] at hstream
    | true =>
      refine ⟨rfl, ?_⟩
      rcases r.stream.box.send_cases message with ⟨hbox, -⟩ | ⟨hbox, -⟩ | ⟨hbox, -⟩ <;>
        simp only [hbox, reduceCtorEq, Option.some.injEq] at hstream <;>
        rw [← hstream] <;> exact hopen

theorem goesOn_send (hsend : r.send? = some next) : r.GoesOn next where
  isOpen := (isOpen_send hsend).2.trans (isOpen_send hsend).1.symm
  settled hsettled := by
    simp [send?, Stream.send?, (settled_iff.mp hsettled).1] at hsend
  ended hended := by
    obtain ⟨stream, -, rfl⟩ := Option.map_eq_some_iff.mp hsend
    exact hended

theorem goesOn_write (hwrite : r.write? put = some next) : r.GoesOn next := by
  obtain ⟨hgoesOn, message, stream, htake, rfl⟩ := write?_eq_some hwrite
  obtain ⟨⟨_, _, box⟩, hbox, hnext⟩ := Option.map_eq_some_iff.mp htake
  obtain ⟨rfl, rfl⟩ := Prod.mk.inj hnext
  refine ⟨Mailbox.isOpen_take? hbox, fun hsettled => ?_,
    fun hended => absurd (hgoesOn.symm.trans hended) (by simp)⟩
  rw [settled_iff] at hsettled ⊢
  refine ⟨hsettled.1, ?_⟩
  rcases r.stream.box.take?_cases with ⟨-, hnone⟩ | ⟨_, _, -, hwaiting, hsome⟩ |
    ⟨_, _, _, _, -, hwaiting, -⟩
  · simp [hnone] at hbox
  · obtain ⟨-, -, rfl⟩ := by simpa using hsome.symm.trans hbox
    exact hwaiting
  · simp [hsettled.2] at hwaiting

theorem goesOn_end (hend : r.end? = some next) : r.GoesOn next := by
  obtain ⟨-, -, rfl⟩ := end?_eq_some hend
  exact ⟨rfl, id, fun _ => rfl⟩

theorem GoesOn.idle (hgoesOn : r.GoesOn next) (hidle : r.Idle) : next.Idle :=
  ⟨hgoesOn.settled hidle.1, hgoesOn.isOpen.trans hidle.2⟩

theorem GoesOn.closed (hgoesOn : r.GoesOn next) (hclosed : r.Closed) : next.Closed :=
  ⟨hgoesOn.settled hclosed.1, hgoesOn.isOpen.trans hclosed.2⟩

theorem closed_hangUp (r : Recorder α) : r.hangUp.Closed := ⟨rfl, rfl⟩

theorem refuses_of_isOpen (hopen : r.stream.box.isOpen = true) : r.refuses = false := by
  simp [refuses, hopen]

/-! ## What is written -/

/-- What has been sent is written in its order, or is still to be written. -/
structure Keeps (put : Writer → α → Writer) (messages : List α) (r : Recorder α) : Prop where
  written : ∃ taken, r.stream.Carries messages taken ∧ r.writer = taken.reverse.foldl put .start
  ended : r.ended = true → r.stream.isOver = true

theorem keeps_begin {capacity : Nat} (hcapacity : 0 < capacity) :
    (begin capacity).Keeps put [] where
  written := ⟨[], Stream.carries_begin hcapacity [], rfl⟩
  ended hended := absurd hended (by simp [begin])

namespace Keeps

variable (hkeeps : r.Keeps put messages)

include hkeeps

theorem ended_of_isOpen (hopen : r.stream.box.isOpen = true) : r.ended = false := by
  by_contra hended
  have hover := hkeeps.ended (Bool.eq_true_of_not_eq_false hended)
  simp [Stream.isOver, hopen] at hover

theorem offer (hopen : r.stream.box.isOpen = true) (message : α) :
    (r.offer message).Keeps put (messages ++ [message]) := by
  obtain ⟨taken, hcarries, hwriter⟩ := hkeeps.written
  refine ⟨⟨taken, ⟨?_, hcarries.roomy, fun hclosed => ?_⟩, hwriter⟩, fun hended => ?_⟩
  · rw [← hcarries.all]
    simp [Recorder.offer, Stream.rest]
  · exact absurd (hopen.symm.trans hclosed) (by simp)
  · exact absurd ((hkeeps.ended_of_isOpen hopen).symm.trans hended) (by simp)

theorem send (hsend : r.send? = some next) : next.Keeps put messages := by
  have hended := hkeeps.ended_of_isOpen (isOpen_send hsend).1
  obtain ⟨stream, hstream, rfl⟩ := Option.map_eq_some_iff.mp hsend
  obtain ⟨taken, hcarries, hwriter⟩ := hkeeps.written
  exact ⟨⟨taken, hcarries.send hstream, hwriter⟩,
    fun hends => absurd (hended.symm.trans hends) (by simp)⟩

/-- With nothing in hand, nothing is lost. -/
theorem hangUp (hsettled : r.settled = true) : r.hangUp.Keeps put messages := by
  obtain ⟨hpending, hwaiting⟩ := settled_iff.mp hsettled
  obtain ⟨taken, hcarries, hwriter⟩ := hkeeps.written
  refine ⟨⟨taken, ⟨?_, ⟨hcarries.roomy.positive, fun hne => absurd rfl hne⟩, fun _ => ⟨rfl, rfl⟩⟩,
    hwriter⟩, fun hended => ?_⟩
  · rw [← hcarries.all, Stream.rest, Stream.rest, hpending, hwaiting]
    rfl
  · have hover := hkeeps.ended hended
    simp only [Stream.isOver, Bool.and_eq_true] at hover
    simpa [Recorder.hangUp, Stream.isOver] using hover.1

theorem write (hwrite : r.write? put = some next) : next.Keeps put messages := by
  obtain ⟨hgoesOn, message, stream, htake, rfl⟩ := write?_eq_some hwrite
  obtain ⟨taken, hcarries, hwriter⟩ := hkeeps.written
  refine ⟨⟨message :: taken, hcarries.take htake, ?_⟩,
    fun hended => absurd (hgoesOn.symm.trans hended) (by simp)⟩
  simp [hwriter]

theorem finish (hend : r.end? = some next) : next.Keeps put messages := by
  obtain ⟨-, hover, rfl⟩ := end?_eq_some hend
  exact ⟨hkeeps.written, fun _ => hover⟩

/-- When the task has ended it has written everything. -/
theorem writer_eq (hended : r.ended = true) : r.writer = messages.foldl put .start := by
  obtain ⟨taken, hcarries, hwriter⟩ := hkeeps.written
  rw [hwriter, ← hcarries.all, (hcarries.ended (hkeeps.ended hended)).1, List.append_nil]

/-! ## What goes on -/

/-- What is in hand can be sent, or the task can make room for it. -/
theorem moves (hopen : r.stream.box.isOpen = true) (hunsettled : r.settled = false) :
    (∃ next, r.send? = some next) ∨ ∃ next, r.write? put = some next := by
  by_contra hstuck
  simp only [not_or, not_exists, ← Option.eq_none_iff_forall_ne_some] at hstuck
  obtain ⟨hsend, hwrite⟩ := hstuck
  obtain ⟨taken, hcarries, -⟩ := hkeeps.written
  have hrest := hcarries.rest_eq_nil (by simpa [send?] using hsend)
    (by simpa [write?, hkeeps.ended_of_isOpen hopen] using hwrite)
  simp only [Stream.rest, List.append_eq_nil_iff] at hrest
  simp [settled, hrest.1.2, hrest.2] at hunsettled

/-- Once the sender has gone away, the task goes on to its end. -/
theorem ends (hclosed : r.stream.box.isOpen = false) (hgoesOn : r.ended = false) :
    (∃ next, r.write? put = some next) ∨ ∃ next, r.end? = some next := by
  by_contra hstuck
  simp only [not_or, not_exists, ← Option.eq_none_iff_forall_ne_some] at hstuck
  obtain ⟨hwrite, hend⟩ := hstuck
  obtain ⟨taken, hcarries, -⟩ := hkeeps.written
  have hsend : r.stream.send? = none := by
    simp [Stream.send?, (hcarries.closed hclosed).1]
  have hrest := hcarries.rest_eq_nil hsend (by simpa [write?, hgoesOn] using hwrite)
  simp only [Stream.rest, List.append_eq_nil_iff] at hrest
  simp [end?, hgoesOn, Stream.isOver, hrest.1.1, hclosed] at hend

end Keeps

/-! ## Every recorder comes to its end -/

/-- What can still happen to a recorder: everything in hand is sent and written, and the task
ends. -/
def left (r : Recorder α) : Nat :=
  2 * r.stream.pending.length + r.stream.box.waiting.length + r.stream.box.queue.length +
    (!r.ended).toNat

theorem left_offer (r : Recorder α) (message : α) : (r.offer message).left = r.left + 2 := by
  simp only [left, offer, List.length_append, List.length_cons, List.length_nil]
  omega

theorem left_send (hsend : r.send? = some next) : next.left + 1 = r.left := by
  obtain ⟨hopen, hopen'⟩ := isOpen_send hsend
  obtain ⟨stream, hstream, rfl⟩ := Option.map_eq_some_iff.mp hsend
  have hleft := Stream.left_send hstream
  simp only at hopen'
  simp only [Stream.left, hopen, hopen'] at hleft
  simp only [left]
  omega

theorem left_write (hwrite : r.write? put = some next) : next.left + 1 = r.left := by
  have hopen := (goesOn_write hwrite).isOpen
  obtain ⟨-, message, stream, htake, rfl⟩ := write?_eq_some hwrite
  have hleft := Stream.left_take htake
  simp only at hopen
  simp only [Stream.left, hopen] at hleft
  simp only [left]
  omega

theorem left_end (hend : r.end? = some next) : next.left + 1 = r.left := by
  obtain ⟨hgoesOn, -, rfl⟩ := end?_eq_some hend
  simp [left, hgoesOn]

theorem left_hangUp (hsettled : r.settled = true) : r.hangUp.left = r.left := by
  obtain ⟨hpending, hwaiting⟩ := settled_iff.mp hsettled
  simp [left, hangUp, hpending, hwaiting]

/-- Nothing is left to be done when the task has ended. -/
theorem Keeps.left_eq_zero (hkeeps : r.Keeps put messages) (hclosed : r.Closed)
    (hended : r.ended = true) : r.left = 0 := by
  obtain ⟨hpending, hwaiting⟩ := settled_iff.mp hclosed.1
  have hover := hkeeps.ended hended
  simp only [Stream.isOver, Bool.and_eq_true, List.isEmpty_iff] at hover
  simp [left, hpending, hwaiting, hover.1, hended]

end Recorder
end TraceReplay.Sampling
