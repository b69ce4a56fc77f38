import TraceReplay.Proofs.Mailbox

/-!
# Streams

A stream is a mailbox together with its senders: what they still have to send, and the
mailbox with what has been sent and not taken.  The senders go away once everything is
sent; whoever takes messages notices that when the mailbox is empty.
-/

namespace TraceReplay.Collector

structure Stream (α : Type) where
  /-- Messages still to be sent, in their order. -/
  pending : List α
  box : Mailbox α

namespace Stream

variable {α : Type}

def begin (capacity : Nat) (messages : List α) : Stream α where
  pending := messages
  box := { capacity := capacity }

/-- The next message is sent; its sender waits if there is no room. -/
def send? (stream : Stream α) : Option (Stream α) :=
  match stream.pending with
  | [] => none
  | message :: pending =>
    match stream.box.send message with
    | .accepted box => some ⟨pending, box⟩
    | .waits box => some ⟨pending, box⟩
    | .refused => none

/-- The senders go away. -/
def close? (stream : Stream α) : Option (Stream α) :=
  if stream.pending.isEmpty && stream.box.waiting.isEmpty && stream.box.isOpen then
    some { stream with box := { stream.box with isOpen := false } }
  else none

def take? (stream : Stream α) : Option (α × Stream α) :=
  stream.box.take?.map fun (message, _, box) => (message, { stream with box := box })

/-- No message is left, and none will come. -/
def isOver (stream : Stream α) : Bool := stream.box.queue.isEmpty && !stream.box.isOpen

/-- Messages that have not been taken. -/
def rest (stream : Stream α) : List α :=
  stream.box.queue ++ stream.box.waiting ++ stream.pending

/-- What a stream carries: the messages that have been taken, the latest first, and the
others follow each other in order. -/
structure Carries (messages taken : List α) (stream : Stream α) : Prop where
  all : taken.reverse ++ stream.rest = messages
  roomy : stream.box.Roomy
  /-- Senders go away only after their last message. -/
  closed : stream.box.isOpen = false → stream.pending = [] ∧ stream.box.waiting = []

variable {messages taken : List α} {stream next : Stream α}

theorem carries_begin {capacity : Nat} (hcapacity : 0 < capacity) (messages : List α) :
    (begin capacity messages).Carries messages [] where
  all := rfl
  roomy := ⟨hcapacity, fun hwaiting => absurd rfl hwaiting⟩
  closed hclosed := absurd hclosed (by simp [begin])

namespace Carries

theorem send (hcarries : stream.Carries messages taken) (hsend : stream.send? = some next) :
    next.Carries messages taken := by
  unfold send? at hsend
  cases hpending : stream.pending with
  | nil => simp [hpending] at hsend
  | cons message pending =>
    have hall := hcarries.all
    simp only [rest, hpending] at hall
    rcases stream.box.send_cases message with ⟨hbox, -⟩ | ⟨hbox, hroom⟩ | ⟨hbox, hfull⟩
    · simp [hpending, hbox] at hsend
    · obtain rfl : (⟨pending, _⟩ : Stream α) = next := by simpa [hpending, hbox] using hsend
      have hnobody : stream.box.waiting = [] := by
        by_contra hwaiting
        exact absurd (hcarries.roomy.full hwaiting) (Nat.not_le.mpr hroom)
      refine ⟨?_, hcarries.roomy.accept message, fun hclosed => ?_⟩
      · simpa [rest, hnobody] using hall
      · exact absurd (hcarries.closed hclosed).1 (by simp [hpending])
    · obtain rfl : (⟨pending, _⟩ : Stream α) = next := by simpa [hpending, hbox] using hsend
      refine ⟨?_, hcarries.roomy.wait message hfull, fun hclosed => ?_⟩
      · simpa [rest] using hall
      · exact absurd (hcarries.closed hclosed).1 (by simp [hpending])

theorem close (hcarries : stream.Carries messages taken) (hclose : stream.close? = some next) :
    next.Carries messages taken := by
  simp only [close?, Option.ite_none_right_eq_some, Bool.and_eq_true, List.isEmpty_iff,
    Option.some.injEq] at hclose
  obtain ⟨⟨⟨hpending, hwaiting⟩, -⟩, rfl⟩ := hclose
  exact ⟨hcarries.all, ⟨hcarries.roomy.positive, hcarries.roomy.full⟩,
    fun _ => ⟨hpending, hwaiting⟩⟩

theorem take (hcarries : stream.Carries messages taken) {message : α}
    (htake : stream.take? = some (message, next)) : next.Carries messages (message :: taken) := by
  obtain ⟨⟨first, roomFor, box⟩, hbox, hnext⟩ := Option.map_eq_some_iff.mp htake
  obtain ⟨rfl, rfl⟩ := Prod.mk.inj hnext
  have hmessages := Mailbox.messages_take? hbox
  refine ⟨?_, hcarries.roomy.take? hbox, fun hclosed => ?_⟩
  · rw [← hcarries.all, rest, rest, hmessages]
    simp
  · obtain ⟨hpending, hwaiting⟩ := hcarries.closed (Mailbox.isOpen_take? hbox ▸ hclosed)
    refine ⟨hpending, ?_⟩
    rcases stream.box.take?_cases with ⟨-, hnone⟩ | ⟨_, _, -, -, hsome⟩ |
      ⟨_, _, _, _, -, hsenders, -⟩
    · simp [hnone] at hbox
    · obtain ⟨-, -, rfl⟩ : _ = first ∧ none = roomFor ∧ _ = box := by
        simpa using hsome.symm.trans hbox
      exact hwaiting
    · simp [hwaiting] at hsenders

/-- A stream that is over has nothing left. -/
theorem ended (hcarries : stream.Carries messages taken) (hover : stream.isOver = true) :
    stream.rest = [] ∧ stream.box.isOpen = false := by
  simp only [isOver, Bool.and_eq_true, List.isEmpty_iff, Bool.not_eq_true'] at hover
  obtain ⟨hpending, hwaiting⟩ := hcarries.closed hover.2
  exact ⟨by simp [rest, hover.1, hwaiting, hpending], hover.2⟩

/-- A stream of which nothing can be sent or taken has nothing left. -/
theorem rest_eq_nil (hcarries : stream.Carries messages taken) (hsend : stream.send? = none)
    (htake : stream.take? = none) : stream.rest = [] := by
  have hqueue : stream.box.queue = [] := by
    rcases stream.box.take?_cases with ⟨hqueue, -⟩ | ⟨_, _, -, -, hsome⟩ | ⟨_, _, _, _, -, -, hsome⟩
    · exact hqueue
    · simp [take?, hsome] at htake
    · simp [take?, hsome] at htake
  have hwaiting : stream.box.waiting = [] := by
    by_contra hwaiting
    exact hcarries.roomy.queue_ne_nil hwaiting hqueue
  have hpending : stream.pending = [] := by
    cases hpending : stream.pending with
    | nil => rfl
    | cons message pending =>
      rcases stream.box.send_cases message with ⟨-, hclosed⟩ | ⟨hbox, -⟩ | ⟨hbox, -⟩
      · exact absurd (hcarries.closed hclosed).1 (by simp [hpending])
      · simp [send?, hpending, hbox] at hsend
      · simp [send?, hpending, hbox] at hsend
  simp [rest, hqueue, hwaiting, hpending]

/-- When nothing is left to be sent the senders can go away. -/
theorem isOpen_eq_false (hrest : stream.rest = []) (hclose : stream.close? = none) :
    stream.box.isOpen = false := by
  simp only [rest, List.append_eq_nil_iff] at hrest
  simpa [close?, hrest.1.2, hrest.2] using hclose

end Carries

theorem send?_eq_none (hrest : stream.rest = []) : stream.send? = none := by
  simp only [rest, List.append_eq_nil_iff] at hrest
  simp [send?, hrest.2]

theorem rest_close (hclose : stream.close? = some next) :
    next.rest = stream.rest ∧ next.box.isOpen = false := by
  simp only [close?, Option.ite_none_right_eq_some, Option.some.injEq] at hclose
  obtain ⟨-, rfl⟩ := hclose
  exact ⟨rfl, rfl⟩

/-! ## Every stream comes to its end -/

/-- What can still happen to a stream: every message is sent and taken, and the senders
go away. -/
def left (stream : Stream α) : Nat :=
  2 * stream.pending.length + stream.box.waiting.length + stream.box.queue.length +
    if stream.box.isOpen then 1 else 0

theorem left_begin (capacity : Nat) (messages : List α) :
    (begin capacity messages).left = 2 * messages.length + 1 := rfl

theorem left_send (hsend : stream.send? = some next) : next.left + 1 = stream.left := by
  unfold send? at hsend
  cases hpending : stream.pending with
  | nil => simp [hpending] at hsend
  | cons message pending =>
    rcases stream.box.send_cases message with ⟨hbox, -⟩ | ⟨hbox, -⟩ | ⟨hbox, -⟩
    · simp [hpending, hbox] at hsend
    · obtain rfl : (⟨pending, _⟩ : Stream α) = next := by simpa [hpending, hbox] using hsend
      simp only [left, hpending, List.length_append, List.length_cons, List.length_nil]
      omega
    · obtain rfl : (⟨pending, _⟩ : Stream α) = next := by simpa [hpending, hbox] using hsend
      simp only [left, hpending, List.length_append, List.length_cons, List.length_nil]
      omega

theorem left_close (hclose : stream.close? = some next) : next.left + 1 = stream.left := by
  simp only [close?, Option.ite_none_right_eq_some, Bool.and_eq_true, Option.some.injEq] at hclose
  obtain ⟨⟨-, hopen⟩, rfl⟩ := hclose
  simp [left, hopen]

theorem left_take {message : α} (htake : stream.take? = some (message, next)) :
    next.left + 1 = stream.left := by
  obtain ⟨⟨first, roomFor, box⟩, hbox, hnext⟩ := Option.map_eq_some_iff.mp htake
  obtain ⟨rfl, rfl⟩ := Prod.mk.inj hnext
  have hmessages := congrArg List.length (Mailbox.messages_take? hbox)
  simp only [List.length_append, List.length_cons] at hmessages
  simp only [left, Mailbox.isOpen_take? hbox]
  omega

end Stream
end TraceReplay.Collector
