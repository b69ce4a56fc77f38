/-!
# Mailboxes

A queue with room for a fixed number of messages.  Senders that find it full wait,
first come first; taking a message makes room for the first of them.  A closed
mailbox refuses everything.
-/

namespace TraceReplay

structure Mailbox (α : Type) where
  capacity : Nat
  /-- Messages to take, the oldest first. -/
  queue : List α := []
  /-- Messages whose senders wait for room. -/
  waiting : List α := []
  isOpen : Bool := true

namespace Mailbox

variable {α : Type}

inductive Sending (α : Type) where
  | accepted (box : Mailbox α)
  | waits (box : Mailbox α)
  | refused

def send (box : Mailbox α) (message : α) : Sending α :=
  if !box.isOpen then .refused
  else if box.queue.length < box.capacity then
    .accepted { box with queue := box.queue ++ [message] }
  else .waits { box with waiting := box.waiting ++ [message] }

/-- The oldest message, and the one that found room because of it. -/
def take? (box : Mailbox α) : Option (α × Option α × Mailbox α) :=
  match box.queue, box.waiting with
  | [], _ => none
  | message :: queue, [] => some (message, none, { box with queue := queue })
  | message :: queue, next :: waiting =>
    some (message, some next, { box with queue := queue ++ [next], waiting := waiting })

/-- All messages that will not be taken any more, in their order, and the closed mailbox. -/
def close (box : Mailbox α) : List α × Mailbox α :=
  (box.queue ++ box.waiting, { box with queue := [], waiting := [], isOpen := false })

end Mailbox
end TraceReplay
