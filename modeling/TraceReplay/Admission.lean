import TraceReplay.Mailbox
import TraceReplay.Metric

/-!
# Admission

The link between invocations and an external admission scheduler.  Each request is
a ticket of its own, so an answer reaches the caller whose request it answers, in
whatever order the scheduler answers.  A ticket that is dropped, or that cannot be
delivered, is answered with nothing.
-/

namespace TraceReplay

/-- What a scheduler does when it has received a ticket. -/
structure Service where
  /-- Numbers of tickets, counted from zero, with their answers; nothing drops one. -/
  answers : List (Nat × Option PlacementReply) := []
  /-- The scheduler goes away and drops all other tickets. -/
  leaves : Bool := false

structure Scheduler where
  /-- Tickets that may wait for the scheduler before their senders wait too. -/
  capacity : Nat := 16
  /-- What follows the last of the tickets received so far. -/
  serve : List PlacementRequest → Service

/-- Collects tickets until it has `hold` of them and then answers them, the last one
first; after `limit` tickets it goes away. -/
def Scheduler.batching (capacity hold : Nat) (limit : Option Nat)
    (decide : PlacementRequest → Option PlacementReply) : Scheduler where
  capacity := capacity
  serve received :=
    let count := received.length
    let batch := (received.zipIdx.drop (count - hold)).reverse
    { answers := if count % hold = 0 then batch.map fun (r, number) => (number, decide r) else []
      leaves := limit.any (· ≤ count) }

/-- A request and who made it. -/
structure Ticket (τ : Type) where
  request : PlacementRequest
  caller : τ

structure Link (τ : Type) where
  scheduler : Scheduler
  mailbox : Mailbox (Ticket τ)
  /-- All requests received, the oldest first. -/
  received : List PlacementRequest := []
  /-- Callers that wait for the scheduler, by the numbers of their tickets. -/
  unanswered : List (Nat × τ) := []

namespace Link

variable {τ : Type}

/-- A link to a scheduler, or to nobody. -/
def connect (scheduler : Scheduler) (present : Bool) : Link τ where
  scheduler := scheduler
  mailbox := { capacity := scheduler.capacity, isOpen := present }

/-- Everybody who waits for an answer, whether the scheduler has the ticket or not. -/
def callers (link : Link τ) : List τ :=
  (link.mailbox.queue ++ link.mailbox.waiting).map (·.caller) ++ link.unanswered.map (·.2)

/-- The link after a request, unless nobody is there to receive it. -/
def ask? (link : Link τ) (ticket : Ticket τ) : Option (Link τ) :=
  match link.mailbox.send ticket with
  | .accepted box => some { link with mailbox := box }
  | .waits box => some { link with mailbox := box }
  | .refused => none

/-- Hands out one answer, if its ticket still waits for one. -/
def answer (link : Link τ) (number : Nat) (reply : Option PlacementReply) :
    List (τ × Option PlacementReply) × Link τ :=
  match link.unanswered.lookup number with
  | some caller =>
    ([(caller, reply)],
      { link with unanswered := link.unanswered.eraseP fun (n, _) => n = number })
  | none => ([], link)

def answerAll (link : Link τ) :
    List (Nat × Option PlacementReply) → List (τ × Option PlacementReply) × Link τ
  | [] => ([], link)
  | (number, reply) :: answers =>
    let (first, link) := link.answer number reply
    let (others, link) := answerAll link answers
    (first ++ others, link)

/-- The scheduler takes the next ticket, which has a number from then on. -/
def take? (link : Link τ) : Option (Ticket τ × Link τ) :=
  match link.mailbox.take? with
  | none => none
  | some (ticket, _, box) =>
    some (ticket, { link with
      mailbox := box
      received := link.received ++ [ticket.request]
      unanswered := link.unanswered ++ [(link.received.length, ticket.caller)] })

/-- The scheduler takes no more tickets: those that wait for it cannot be delivered. -/
def close (link : Link τ) : List (τ × Option PlacementReply) × Link τ :=
  let (undelivered, box) := link.mailbox.close
  (undelivered.map fun ticket => (ticket.caller, none), { link with mailbox := box })

/-- The scheduler goes away: nobody who waits gets an answer. -/
def leave (link : Link τ) : List (τ × Option PlacementReply) × Link τ :=
  let (dropped, link) := link.answerAll (link.unanswered.map fun (number, _) => (number, none))
  let (undelivered, link) := link.close
  (dropped ++ undelivered, link)

/-- The scheduler receives the next ticket and answers what it answers then. -/
def receive? (link : Link τ) : Option (List (τ × Option PlacementReply) × Link τ) :=
  match link.take? with
  | none => none
  | some (_, link) =>
    let service := link.scheduler.serve link.received
    let (answered, link) := link.answerAll service.answers
    if service.leaves then
      let (dropped, link) := link.leave
      some (answered ++ dropped, link)
    else some (answered, link)

/-- Receives tickets while there are any; one unit of `fuel` each. -/
def receiveAll : Nat → Link τ → List (τ × Option PlacementReply) × Link τ
  | 0, link => ([], link)
  | fuel + 1, link =>
    match link.receive? with
    | none => ([], link)
    | some (first, link) =>
      let (others, link) := receiveAll fuel link
      (first ++ others, link)

/-- Makes all requests, the callers being their numbers, and has them served. -/
def exchange (link : Link Nat) (requests : List PlacementRequest) :
    List (Nat × Option PlacementReply) × Link Nat :=
  (requests.zipIdx.foldl (fun link (request, number) =>
    (link.ask? ⟨request, number⟩).getD link) link).receiveAll requests.length

end Link
end TraceReplay
