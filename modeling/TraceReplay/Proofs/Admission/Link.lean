import TraceReplay.Admission
import TraceReplay.Proofs.Mailbox

/-!
# Links to a scheduler

What one operation does to the tickets of a link and to those who wait for an answer:
tickets are received in the order in which they were sent, and whoever gets an answer has
waited for it.
-/

namespace TraceReplay

namespace Link

variable {τ : Type} {link next : Link τ} {ticket : Ticket τ}

/-- Tickets that the scheduler has not received, the oldest first. -/
def undelivered (link : Link τ) : List (Ticket τ) := link.mailbox.queue ++ link.mailbox.waiting

/-- How many tickets the scheduler has not received. -/
def tickets (link : Link τ) : Nat := link.mailbox.queue.length + link.mailbox.waiting.length

theorem tickets_eq (link : Link τ) : link.tickets = link.undelivered.length :=
  List.length_append.symm

theorem callers_eq (link : Link τ) :
    link.callers = link.undelivered.map (·.caller) ++ link.unanswered.map (·.2) := rfl

/-! ## Asking -/

/-- Everything asking can lead to: a ticket that is sent is the last of those to receive. -/
theorem ask?_cases (hroomy : link.mailbox.Roomy) (ticket : Ticket τ) :
    (link.ask? ticket = none ∧ link.mailbox.isOpen = false) ∨
    ∃ box, link.ask? ticket = some { link with mailbox := box } ∧ box.Roomy ∧
      link.mailbox.isOpen = true ∧ box.isOpen = true ∧
      undelivered { link with mailbox := box } = link.undelivered ++ [ticket] := by
  rcases hroomy.send_cases ticket with ⟨hrefused, hclosed⟩ | ⟨box, hsend, hnext⟩
  · exact .inl ⟨by rw [ask?, hrefused], hclosed⟩
  · refine .inr ⟨box, ?_, hnext⟩
    rcases hsend with hsend | hsend <;> rw [ask?, hsend]

/-- A ticket that is sent is one more to receive, whether there is room for it or not. -/
theorem perm_ask? (hask : link.ask? ticket = some next) :
    next.undelivered.Perm (ticket :: link.undelivered) ∧ next.unanswered = link.unanswered := by
  rcases link.mailbox.send_cases ticket with ⟨hsend, -⟩ | ⟨hsend, -⟩ | ⟨hsend, -⟩ <;>
    simp only [ask?, hsend, Option.some.injEq, reduceCtorEq] at hask
  · subst hask
    refine ⟨?_, rfl⟩
    simp only [undelivered, List.append_assoc]
    exact List.perm_middle
  · subst hask
    refine ⟨?_, rfl⟩
    simp only [undelivered, ← List.append_assoc]
    exact List.perm_append_singleton ..

/-- A request that is made adds its caller to those that wait. -/
theorem callers_ask? (hask : link.ask? ticket = some next) :
    next.callers.Perm (ticket.caller :: link.callers) := by
  obtain ⟨hundelivered, hunanswered⟩ := perm_ask? hask
  rw [callers_eq, callers_eq, hunanswered]
  exact (hundelivered.map _).append_right _

theorem tickets_ask? (hask : link.ask? ticket = some next) : next.tickets = link.tickets + 1 := by
  rw [tickets_eq, tickets_eq, (perm_ask? hask).1.length_eq, List.length_cons]

/-! ## Receiving -/

/-- Everything taking can lead to: the ticket is the first of those to receive, and gets the
next number. -/
theorem take?_cases (link : Link τ) :
    (link.take? = none ∧ link.mailbox.queue = []) ∨
    ∃ ticket roomFor box, link.mailbox.take? = some (ticket, roomFor, box) ∧
      link.take? = some (ticket, { link with
        mailbox := box
        received := link.received ++ [ticket.request]
        unanswered := link.unanswered ++ [(link.received.length, ticket.caller)] }) := by
  cases htake : link.mailbox.take? with
  | none =>
    refine .inl ⟨by rw [take?, htake], ?_⟩
    rcases link.mailbox.take?_cases with ⟨hempty, -⟩ | ⟨_, _, -, -, hsome⟩ | ⟨_, _, _, _, -, -, hsome⟩
    · exact hempty
    all_goals exact absurd (htake.symm.trans hsome) (by simp)
  | some taken =>
    obtain ⟨ticket, roomFor, box⟩ := taken
    exact .inr ⟨ticket, roomFor, box, rfl, by rw [take?, htake]⟩

/-- There is a ticket to take as long as one has not been received. -/
theorem undelivered_of_take?_none (hroomy : link.mailbox.Roomy) (hnone : link.take? = none) :
    link.undelivered = [] := by
  rcases link.take?_cases with ⟨-, hqueue⟩ | ⟨_, _, _, -, hsome⟩
  · have hwaiting : link.mailbox.waiting = [] := by
      by_contra hwaiting
      exact hroomy.queue_ne_nil hwaiting hqueue
    rw [undelivered, hqueue, hwaiting, List.nil_append]
  · exact absurd (hnone.symm.trans hsome) (by simp)

/-- What taking a ticket does. -/
theorem take?_eq_some (htake : link.take? = some (ticket, next)) :
    ∃ roomFor box, link.mailbox.take? = some (ticket, roomFor, box) ∧ next = { link with
      mailbox := box
      received := link.received ++ [ticket.request]
      unanswered := link.unanswered ++ [(link.received.length, ticket.caller)] } := by
  rcases link.take?_cases with ⟨hnone, -⟩ | ⟨first, roomFor, box, hmailbox, hsome⟩
  · exact absurd (hnone.symm.trans htake) (by simp)
  · obtain ⟨rfl, rfl⟩ := Prod.mk.inj (Option.some.inj (hsome.symm.trans htake))
    exact ⟨roomFor, box, hmailbox, rfl⟩

/-- The ticket that is taken is the first of all. -/
theorem undelivered_take? (htake : link.take? = some (ticket, next)) :
    link.undelivered = ticket :: next.undelivered := by
  obtain ⟨_, _, hmailbox, rfl⟩ := take?_eq_some htake
  exact Mailbox.messages_take? hmailbox

theorem callers_take? (htake : link.take? = some (ticket, next)) :
    link.callers.Perm next.callers := by
  have hundelivered := undelivered_take? htake
  obtain ⟨_, box, -, rfl⟩ := take?_eq_some htake
  rw [callers_eq, callers_eq, hundelivered, List.map_append, ← List.append_assoc]
  exact (List.perm_append_singleton _ _).symm

/-! ## Answering -/

theorem answer_of_lookup {number : Nat} {caller : τ}
    (hheld : link.unanswered.lookup number = some caller) (reply : Option PlacementReply) :
    link.answer number reply = ([(caller, reply)],
      { link with unanswered := link.unanswered.eraseP fun (n, _) => n = number }) := by
  rw [answer, hheld]

theorem answer_of_lookup_none {number : Nat} (hheld : link.unanswered.lookup number = none)
    (reply : Option PlacementReply) : link.answer number reply = ([], link) := by
  rw [answer, hheld]

theorem mem_of_lookup {number : Nat} {caller : τ} {unanswered : List (Nat × τ)}
    (hlookup : unanswered.lookup number = some caller) : (number, caller) ∈ unanswered := by
  obtain ⟨before, after, hunanswered, -⟩ := List.lookup_eq_some_iff.mp hlookup
  simp [hunanswered]

theorem perm_of_lookup {number : Nat} {caller : τ} {unanswered : List (Nat × τ)}
    (hlookup : unanswered.lookup number = some caller) :
    (unanswered.map (·.2)).Perm
      (caller :: (unanswered.eraseP fun (n, _) => n = number).map (·.2)) := by
  induction unanswered with
  | nil => simp at hlookup
  | cons first rest ih =>
    obtain ⟨n, other⟩ := first
    by_cases heq : number = n
    · subst heq
      obtain rfl : other = caller := by simpa using hlookup
      simp
    · have hrest : rest.lookup number = some caller := by
        rwa [List.lookup_cons, beq_false_of_ne heq] at hlookup
      simp only [List.map_cons, List.eraseP_cons, Ne.symm heq, decide_false]
      exact ((ih hrest).cons other).trans (List.Perm.swap _ _ _)

/-- An answer goes to a caller who does not wait any more. -/
theorem callers_answer (link : Link τ) (number : Nat) (reply : Option PlacementReply) :
    link.callers.Perm
      ((link.answer number reply).1.map (·.1) ++ (link.answer number reply).2.callers) := by
  unfold answer
  cases hlookup : link.unanswered.lookup number with
  | none => simp
  | some caller =>
    exact ((perm_of_lookup hlookup).append_left _).trans List.perm_middle

theorem callers_answerAll (link : Link τ) (answers : List (Nat × Option PlacementReply)) :
    link.callers.Perm
      ((link.answerAll answers).1.map (·.1) ++ (link.answerAll answers).2.callers) := by
  induction answers generalizing link with
  | nil => simp [answerAll]
  | cons first answers ih =>
    simp only [answerAll, List.map_append, List.append_assoc]
    exact (callers_answer link first.1 first.2).trans ((ih _).append_left _)

theorem mailbox_answer (link : Link τ) (number : Nat) (reply : Option PlacementReply) :
    (link.answer number reply).2.mailbox = link.mailbox := by
  unfold answer
  split <;> rfl

theorem mailbox_answerAll (link : Link τ) (answers : List (Nat × Option PlacementReply)) :
    (link.answerAll answers).2.mailbox = link.mailbox := by
  induction answers generalizing link with
  | nil => rfl
  | cons first answers ih =>
    obtain ⟨number, reply⟩ := first
    exact (ih _).trans (mailbox_answer link number reply)

/-! ## Going away -/

theorem callers_close (link : Link τ) :
    link.callers.Perm (link.close.1.map (·.1) ++ link.close.2.callers) := by
  simp only [close, Mailbox.close, callers, List.map_map, List.map_append, List.append_nil,
    List.map_nil, List.nil_append]
  rfl

theorem callers_leave (link : Link τ) :
    link.callers.Perm (link.leave.1.map (·.1) ++ link.leave.2.callers) := by
  simp only [leave, List.map_append, List.append_assoc]
  exact (callers_answerAll link _).trans ((callers_close _).append_left _)

/-- Whoever gets an answer has waited, and all others still wait. -/
theorem callers_receive? {answers : List (τ × Option PlacementReply)}
    (hreceive : link.receive? = some (answers, next)) :
    link.callers.Perm (answers.map (·.1) ++ next.callers) := by
  unfold receive? at hreceive
  cases htake : link.take? with
  | none => simp [htake] at hreceive
  | some taken =>
    obtain ⟨ticket, received⟩ := taken
    simp only [htake] at hreceive
    have hanswered := (callers_take? htake).trans
      (callers_answerAll received (received.scheduler.serve received.received).answers)
    split at hreceive <;> obtain ⟨rfl, rfl⟩ := Prod.mk.inj (Option.some.inj hreceive)
    · refine hanswered.trans ?_
      rw [List.map_append, List.append_assoc]
      exact (callers_leave _).append_left _
    · exact hanswered

theorem tickets_receive? {answers : List (τ × Option PlacementReply)}
    (hreceive : link.receive? = some (answers, next)) : next.tickets < link.tickets := by
  unfold receive? at hreceive
  cases htake : link.take? with
  | none => simp [htake] at hreceive
  | some taken =>
    obtain ⟨ticket, received⟩ := taken
    simp only [htake] at hreceive
    have htickets : link.tickets = received.tickets + 1 := by
      rw [tickets_eq, tickets_eq, undelivered_take? htake, List.length_cons]
    have hmailbox :=
      mailbox_answerAll received (received.scheduler.serve received.received).answers
    split at hreceive <;> obtain ⟨-, rfl⟩ := Prod.mk.inj (Option.some.inj hreceive)
    · exact htickets ▸ Nat.succ_pos _
    · rw [htickets, tickets, hmailbox]
      exact Nat.lt_succ_self _

end Link

end TraceReplay
