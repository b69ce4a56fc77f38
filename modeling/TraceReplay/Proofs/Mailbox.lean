import TraceReplay.Mailbox
import Mathlib

/-!
# Mailboxes with room

Senders wait only at a full mailbox, so as long as one waits there is something to take,
and the messages are taken in the order in which they were sent.
-/

namespace TraceReplay

namespace Mailbox

variable {α : Type}

/-- Senders wait only when there is no room. -/
structure Roomy (box : Mailbox α) : Prop where
  positive : 0 < box.capacity
  full : box.waiting ≠ [] → box.capacity ≤ box.queue.length

theorem Roomy.queue_ne_nil {box : Mailbox α} (hroomy : box.Roomy) (hwaiting : box.waiting ≠ []) :
    box.queue ≠ [] := by
  intro hempty
  have hfull := hroomy.full hwaiting
  rw [hempty, List.length_nil] at hfull
  exact absurd hroomy.positive (by omega)

/-- Everything sending can lead to. -/
theorem send_cases (box : Mailbox α) (message : α) :
    (box.send message = .refused ∧ box.isOpen = false) ∨
    (box.send message = .accepted { box with queue := box.queue ++ [message] } ∧
      box.queue.length < box.capacity) ∨
    (box.send message = .waits { box with waiting := box.waiting ++ [message] } ∧
      box.capacity ≤ box.queue.length) := by
  unfold send
  cases hopen : box.isOpen with
  | false => simp
  | true =>
    by_cases hroom : box.queue.length < box.capacity
    · simp [hroom]
    · simp [hroom, Nat.le_of_not_lt hroom]

theorem Roomy.accept {box : Mailbox α} (hroomy : box.Roomy) (message : α) :
    Roomy { box with queue := box.queue ++ [message] } where
  positive := hroomy.positive
  full hwaiting := by
    have hfull := hroomy.full hwaiting
    simp only [List.length_append, List.length_cons, List.length_nil]
    omega

theorem Roomy.wait {box : Mailbox α} (hroomy : box.Roomy) (message : α)
    (hfull : box.capacity ≤ box.queue.length) :
    Roomy { box with waiting := box.waiting ++ [message] } where
  positive := hroomy.positive
  full _ := hfull

/-- A message that is not refused is the last of all. -/
theorem Roomy.send_cases {box : Mailbox α} (hroomy : box.Roomy) (message : α) :
    (box.send message = .refused ∧ box.isOpen = false) ∨
    ∃ next : Mailbox α, (box.send message = .accepted next ∨ box.send message = .waits next) ∧
      next.Roomy ∧ box.isOpen = true ∧ next.isOpen = true ∧
      next.queue ++ next.waiting = box.queue ++ box.waiting ++ [message] := by
  have hopen (hsent : box.send message ≠ .refused) : box.isOpen = true := by
    by_contra hclosed
    exact hsent (by simp [send, hclosed])
  rcases box.send_cases message with hrefused | ⟨hsend, hroom⟩ | ⟨hsend, hfull⟩
  · exact .inl hrefused
  · have hisOpen := hopen (by simp [hsend])
    -- with room for one more, nobody waits
    have hnobody : box.waiting = [] := by
      by_contra hwaiting
      exact absurd (hroomy.full hwaiting) (Nat.not_le.mpr hroom)
    exact .inr ⟨_, .inl hsend, hroomy.accept message, hisOpen, hisOpen, by simp [hnobody]⟩
  · have hisOpen := hopen (by simp [hsend])
    exact .inr ⟨_, .inr hsend, hroomy.wait message hfull, hisOpen, hisOpen,
      (List.append_assoc ..).symm⟩

/-- Everything taking can lead to. -/
theorem take?_cases (box : Mailbox α) :
    (box.queue = [] ∧ box.take? = none) ∨
    (∃ message queue, box.queue = message :: queue ∧ box.waiting = [] ∧
      box.take? = some (message, none, { box with queue := queue })) ∨
    (∃ message queue next waiting, box.queue = message :: queue ∧
      box.waiting = next :: waiting ∧
      box.take? = some (message, some next,
        { box with queue := queue ++ [next], waiting := waiting })) := by
  obtain ⟨capacity, queue, waiting, isOpen⟩ := box
  cases queue with
  | nil => simp [take?]
  | cons message queue => cases waiting <;> simp [take?]

/-- The message that is taken is the first of all. -/
theorem messages_take? {box next : Mailbox α} {message : α} {roomFor : Option α}
    (htake : box.take? = some (message, roomFor, next)) :
    box.queue ++ box.waiting = message :: (next.queue ++ next.waiting) := by
  rcases box.take?_cases with ⟨-, hnone⟩ | ⟨first, queue, hqueue, hwaiting, hsome⟩ |
    ⟨first, queue, sender, waiting, hqueue, hwaiting, hsome⟩
  · simp [hnone] at htake
  · obtain ⟨rfl, rfl, rfl⟩ : first = message ∧ none = roomFor ∧ _ = next := by
      simpa using hsome.symm.trans htake
    simp [hqueue]
  · obtain ⟨rfl, rfl, rfl⟩ : first = message ∧ some sender = roomFor ∧ _ = next := by
      simpa using hsome.symm.trans htake
    simp [hqueue, hwaiting]

theorem Roomy.take {box : Mailbox α} (hroomy : box.Roomy) (queue : List α)
    (hwaiting : box.waiting = []) : Roomy { box with queue := queue } where
  positive := hroomy.positive
  full hne := absurd hwaiting hne

theorem Roomy.makeRoom {box : Mailbox α} (hroomy : box.Roomy) {message next : α}
    {queue waiting : List α} (hqueue : box.queue = message :: queue)
    (hwaiting : box.waiting = next :: waiting) :
    Roomy { box with queue := queue ++ [next], waiting := waiting } where
  positive := hroomy.positive
  full _ := by
    have hfull := hroomy.full (by simp [hwaiting])
    rw [hqueue, List.length_cons] at hfull
    simpa using hfull

theorem isOpen_take? {box next : Mailbox α} {message : α} {roomFor : Option α}
    (htake : box.take? = some (message, roomFor, next)) : next.isOpen = box.isOpen := by
  rcases box.take?_cases with ⟨-, hnone⟩ | ⟨_, _, -, -, hsome⟩ | ⟨_, _, _, _, -, -, hsome⟩
  · simp [hnone] at htake
  · obtain ⟨-, -, rfl⟩ := by simpa using hsome.symm.trans htake
    rfl
  · obtain ⟨-, -, rfl⟩ := by simpa using hsome.symm.trans htake
    rfl

theorem Roomy.take? {box next : Mailbox α} (hroomy : box.Roomy) {message : α}
    {roomFor : Option α} (htake : box.take? = some (message, roomFor, next)) : next.Roomy := by
  rcases box.take?_cases with ⟨-, hnone⟩ | ⟨_, queue, -, hwaiting, hsome⟩ |
    ⟨_, queue, _, waiting, hqueue, hwaiting, hsome⟩
  · simp [hnone] at htake
  · obtain ⟨-, -, rfl⟩ := by simpa using hsome.symm.trans htake
    exact hroomy.take queue hwaiting
  · obtain ⟨-, -, rfl⟩ := by simpa using hsome.symm.trans htake
    exact hroomy.makeRoom hqueue hwaiting

end Mailbox

end TraceReplay
