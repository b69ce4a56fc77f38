import TraceReplay.Proofs.Admission.Link

/-!
# Sessions of a scheduler

A session is a link between calls, which each have a request, and a scheduler that does with
its tickets whatever it likes.  Everything that can happen is an action, and any action that
is possible may be the next, so a list of actions is one of the orders in which everything
can happen.
-/

namespace TraceReplay.Admission

structure Session where
  link : Link Nat
  /-- What the calls ask for, by the numbers of the calls. -/
  requests : List PlacementRequest
  /-- Calls that have sent their tickets, in that order. -/
  sent : List Nat := []
  /-- The calls whose tickets the scheduler has received, by the numbers of the tickets. -/
  tickets : List Nat := []
  /-- Calls that have returned, with what they have returned. -/
  returned : List (Nat × Option PlacementReply) := []

inductive Action where
  /-- A call sends its ticket. -/
  | send (call : Nat)
  /-- The scheduler receives the next ticket. -/
  | receive
  /-- The scheduler answers a ticket, or drops it without an answer. -/
  | answer (number : Nat) (reply : Option PlacementReply)
  /-- The scheduler receives no more tickets. -/
  | close
deriving DecidableEq

/-- The call that sends its ticket. -/
def Action.sender? : Action → Option Nat
  | .send call => some call
  | _ => none

namespace Session

def begin (scheduler : Scheduler) (present : Bool) (requests : List PlacementRequest) :
    Session where
  link := .connect scheduler present
  requests := requests

/-- Some calls return. -/
def settle (s : Session) (answers : List (Nat × Option PlacementReply)) (link : Link Nat) :
    Session :=
  { s with link := link, returned := s.returned ++ answers }

/-- One action, if it is possible. -/
def act (s : Session) : Action → Option Session
  | .send call =>
    if call ∈ s.sent then none
    else s.requests[call]?.map fun request =>
      let s := { s with sent := s.sent ++ [call] }
      match s.link.ask? ⟨request, call⟩ with
      | some link => s.settle [] link
      | none => s.settle [(call, none)] s.link
  | .receive => s.link.take?.map fun (ticket, link) =>
    { s.settle [] link with tickets := s.tickets ++ [ticket.caller] }
  | .answer number reply => (s.link.unanswered.lookup number).map fun _ =>
    s.settle (s.link.answer number reply).1 (s.link.answer number reply).2
  | .close => some (s.settle s.link.close.1 s.link.close.2)

/-- Actions one after the other, if all are possible. -/
def run (s : Session) : List Action → Option Session
  | [] => some s
  | action :: actions => (s.act action).bind (·.run actions)

variable {s s' : Session} {requests : List PlacementRequest} {past : List Action}

/-- What an action needs and what it does. -/
inductive Does (s : Session) : Action → Session → Prop
  | send {call request link} (hnew : call ∉ s.sent) (hrequest : s.requests[call]? = some request)
      (hask : s.link.ask? ⟨request, call⟩ = some link) :
      Does s (.send call) { s with link := link, sent := s.sent ++ [call] }
  | refuse {call request} (hnew : call ∉ s.sent) (hrequest : s.requests[call]? = some request)
      (hask : s.link.ask? ⟨request, call⟩ = none) :
      Does s (.send call) { s with
        sent := s.sent ++ [call], returned := s.returned ++ [(call, none)] }
  | receive {ticket link} (htake : s.link.take? = some (ticket, link)) :
      Does s .receive { s with link := link, tickets := s.tickets ++ [ticket.caller] }
  | answer {number call} (reply : Option PlacementReply)
      (hheld : s.link.unanswered.lookup number = some call) :
      Does s (.answer number reply) { s with
        link := (s.link.answer number reply).2, returned := s.returned ++ [(call, reply)] }
  | close : Does s .close { s with
      link := s.link.close.2, returned := s.returned ++ s.link.close.1 }

theorem does_of_act {action : Action} (hact : s.act action = some s') : s.Does action s' := by
  cases action with
  | send call =>
    simp only [act, Option.ite_none_left_eq_some, Option.map_eq_some_iff] at hact
    obtain ⟨hnew, request, hrequest, rfl⟩ := hact
    cases hask : s.link.ask? ⟨request, call⟩ with
    | none => exact .refuse hnew hrequest hask
    | some link =>
      simp only [settle, List.append_nil]
      exact .send hnew hrequest hask
  | receive =>
    obtain ⟨⟨ticket, link⟩, htake, rfl⟩ := Option.map_eq_some_iff.mp hact
    simp only [settle, List.append_nil]
    exact .receive htake
  | answer number reply =>
    obtain ⟨call, hheld, rfl⟩ := Option.map_eq_some_iff.mp hact
    have hanswer := congrArg Prod.fst (Link.answer_of_lookup hheld reply)
    rw [hanswer]
    exact .answer reply hheld
  | close =>
    obtain rfl := Option.some.inj hact
    exact .close

/-! ## The way of a ticket -/

/-- Tickets are received in the order in which they are sent, with the requests of their
calls, and every call that has sent its ticket has returned or waits. -/
structure Orderly (requests : List PlacementRequest) (s : Session) : Prop where
  roomy : s.link.mailbox.Roomy
  given : s.requests = requests
  distinct : s.sent.Nodup
  order : s.tickets ++ s.link.undelivered.map (·.caller) <+: s.sent
  whole : s.link.mailbox.isOpen = true →
    s.sent = s.tickets ++ s.link.undelivered.map (·.caller)
  closed : s.link.mailbox.isOpen = false → s.link.undelivered = []
  asked : ∀ ticket ∈ s.link.undelivered, requests[ticket.caller]? = some ticket.request
  received : s.link.received.map some = s.tickets.map (requests[·]?)
  shared : s.sent.Perm (s.returned.map (·.1) ++ s.link.callers)

namespace Orderly

theorem begin {scheduler : Scheduler} (hcapacity : 0 < scheduler.capacity) (present : Bool)
    (requests : List PlacementRequest) : (begin scheduler present requests).Orderly requests where
  roomy := ⟨hcapacity, fun hwaiting => absurd rfl hwaiting⟩
  given := rfl
  distinct := .nil
  order := List.prefix_rfl
  whole _ := rfl
  closed _ := rfl
  asked _ hticket := absurd hticket List.not_mem_nil
  received := rfl
  shared := .nil

variable {call number : Nat} {request : PlacementRequest} {ticket : Ticket Nat} {link : Link Nat}

theorem tickets_prefix (horderly : s.Orderly requests) : s.tickets <+: s.sent :=
  (List.prefix_append ..).trans horderly.order

theorem distinct_send (horderly : s.Orderly requests) (hnew : call ∉ s.sent) :
    (s.sent ++ [call]).Nodup :=
  List.concat_eq_append ▸ horderly.distinct.concat hnew

/-- A call that sends its ticket is one more who waits. -/
theorem shared_send (horderly : s.Orderly requests) (call : Nat) :
    (s.sent ++ [call]).Perm (s.returned.map (·.1) ++ call :: s.link.callers) :=
  calc s.sent ++ [call]
    _ |>.Perm (call :: s.sent) := List.perm_append_singleton ..
    _ |>.Perm (call :: (s.returned.map (·.1) ++ s.link.callers)) := horderly.shared.cons call
    _ |>.Perm _ := List.perm_middle.symm

theorem send (horderly : s.Orderly requests) (hnew : call ∉ s.sent)
    (hrequest : s.requests[call]? = some request)
    (hask : s.link.ask? ⟨request, call⟩ = some link) :
    Orderly requests { s with link := link, sent := s.sent ++ [call] } := by
  have hcallers := Link.callers_ask? hask
  rcases Link.ask?_cases horderly.roomy ⟨request, call⟩ with ⟨hnone, -⟩ |
    ⟨box, hsome, hroomy, hopen, hopen', hmessages⟩
  · exact absurd (hnone.symm.trans hask) (by simp)
  obtain rfl := Option.some.inj (hsome.symm.trans hask)
  have hsent : s.sent ++ [call] =
      s.tickets ++ (Link.undelivered { s.link with mailbox := box }).map (·.caller) := by
    rw [hmessages, horderly.whole hopen, List.map_append, List.append_assoc]
    rfl
  exact {
    roomy := hroomy
    given := horderly.given
    distinct := horderly.distinct_send hnew
    order := hsent ▸ List.prefix_rfl
    whole := fun _ => hsent
    closed := fun hclosed => absurd (hopen'.symm.trans hclosed) (by simp)
    asked := by
      rw [hmessages]
      intro ticket hticket
      rcases List.mem_append.mp hticket with hold | hlast
      · exact horderly.asked ticket hold
      · obtain rfl := List.mem_singleton.mp hlast
        exact horderly.given ▸ hrequest
    received := horderly.received
    shared := (horderly.shared_send call).trans (hcallers.symm.append_left _) }

/-- Only a link that is closed refuses a ticket. -/
theorem isOpen_of_refuse (horderly : s.Orderly requests) (hask : s.link.ask? ticket = none) :
    s.link.mailbox.isOpen = false := by
  rcases Link.ask?_cases horderly.roomy ticket with ⟨-, hclosed⟩ | ⟨_, hsome, -⟩
  · exact hclosed
  · exact absurd (hask.symm.trans hsome) (by simp)

theorem refuse (horderly : s.Orderly requests) (hnew : call ∉ s.sent)
    (hask : s.link.ask? ⟨request, call⟩ = none) :
    Orderly requests { s with
      sent := s.sent ++ [call], returned := s.returned ++ [(call, none)] } :=
  { horderly with
    distinct := horderly.distinct_send hnew
    order := horderly.order.trans (List.prefix_append ..)
    whole := fun hopen => absurd (hopen.symm.trans (horderly.isOpen_of_refuse hask)) (by simp)
    shared := by
      rw [List.map_append, List.append_assoc]
      exact horderly.shared_send call }

theorem isOpen_of_take? (horderly : s.Orderly requests)
    (htake : s.link.take? = some (ticket, link)) : s.link.mailbox.isOpen = true := by
  by_contra hclosed
  have hempty := horderly.closed (Bool.eq_false_of_not_eq_true hclosed)
  rw [Link.undelivered_take? htake] at hempty
  exact List.cons_ne_nil _ _ hempty

theorem receive (horderly : s.Orderly requests)
    (htake : s.link.take? = some (ticket, link)) :
    Orderly requests { s with link := link, tickets := s.tickets ++ [ticket.caller] } := by
  have hundelivered := Link.undelivered_take? htake
  have hcallers := Link.callers_take? htake
  have hopen := horderly.isOpen_of_take? htake
  obtain ⟨_, box, hmailbox, rfl⟩ := Link.take?_eq_some htake
  have htickets : s.tickets ++ s.link.undelivered.map (·.caller) =
      s.tickets ++ [ticket.caller] ++ (box.queue ++ box.waiting).map (·.caller) := by
    rw [hundelivered, List.map_cons, List.append_assoc]
    rfl
  exact {
    roomy := horderly.roomy.take? hmailbox
    given := horderly.given
    distinct := horderly.distinct
    order := htickets ▸ horderly.order
    whole := fun _ => (horderly.whole hopen).trans htickets
    closed := fun hclosed =>
      absurd (hopen.symm.trans ((Mailbox.isOpen_take? hmailbox).symm.trans hclosed)) (by simp)
    asked := fun other hother =>
      horderly.asked other (hundelivered ▸ List.mem_cons_of_mem ticket hother)
    received := by
      have hasked := horderly.asked ticket (hundelivered ▸ List.mem_cons_self)
      simp [horderly.received, hasked]
    shared := horderly.shared.trans (hcallers.append_left _) }

theorem answer (horderly : s.Orderly requests) (hheld : s.link.unanswered.lookup number = some call)
    (reply : Option PlacementReply) :
    Orderly requests { s with
      link := (s.link.answer number reply).2, returned := s.returned ++ [(call, reply)] } := by
  have hcallers := Link.callers_answer s.link number reply
  rw [Link.answer_of_lookup hheld] at hcallers ⊢
  exact { horderly with
    shared := by
      rw [List.map_append, List.append_assoc]
      exact horderly.shared.trans (hcallers.append_left _) }

theorem close (horderly : s.Orderly requests) :
    Orderly requests { s with
      link := s.link.close.2, returned := s.returned ++ s.link.close.1 } where
  roomy := ⟨horderly.roomy.positive, fun hwaiting => absurd rfl hwaiting⟩
  given := horderly.given
  distinct := horderly.distinct
  order := by
    simpa [Link.undelivered, Link.close, Mailbox.close] using horderly.tickets_prefix
  whole hopen := absurd hopen (by simp [Link.close, Mailbox.close])
  closed _ := rfl
  asked _ hticket := absurd hticket List.not_mem_nil
  received := horderly.received
  shared := by
    rw [List.map_append, List.append_assoc]
    exact horderly.shared.trans ((Link.callers_close s.link).append_left _)

theorem act (horderly : s.Orderly requests) {action : Action} (hact : s.act action = some s') :
    s'.Orderly requests := by
  cases does_of_act hact with
  | send hnew hrequest hask => exact horderly.send hnew hrequest hask
  | refuse hnew _ hask => exact horderly.refuse hnew hask
  | receive htake => exact horderly.receive htake
  | answer reply hheld => exact horderly.answer hheld reply
  | close => exact horderly.close

theorem run (horderly : s.Orderly requests) {actions : List Action}
    (hrun : s.run actions = some s') : s'.Orderly requests := by
  induction actions generalizing s with
  | nil => exact Option.some.inj hrun ▸ horderly
  | cons action actions ih =>
    obtain ⟨next, hact, hrest⟩ := Option.bind_eq_some_iff.mp hrun
    exact ih (horderly.act hact) hrest

end Orderly

/-! ## What becomes of a call -/

/-- Something has made a call return: the scheduler has answered its own ticket or dropped it,
or its ticket cannot be delivered. -/
def Decided (past : List Action) (s : Session) (call : Nat) (reply : Option PlacementReply) :
    Prop :=
  (∃ number, s.tickets[number]? = some call ∧ .answer number reply ∈ past) ∨
    reply = none ∧ .send call ∈ past ∧ call ∉ s.tickets ∧ s.link.mailbox.isOpen = false

/-- What no action takes back: tickets that are received, and the end of receiving. -/
structure Grows (s s' : Session) : Prop where
  tickets : s.tickets <+: s'.tickets
  closed : s.link.mailbox.isOpen = false →
    s'.link.mailbox.isOpen = false ∧ s'.tickets = s.tickets

theorem Does.grows {action : Action} (horderly : s.Orderly requests) (hdoes : s.Does action s') :
    s.Grows s' := by
  cases hdoes with
  | @send call request link _ _ hask =>
    refine ⟨List.prefix_rfl, fun hclosed => ?_⟩
    rcases Link.ask?_cases horderly.roomy ⟨request, call⟩ with ⟨hnone, -⟩ | ⟨_, -, -, hopen, -⟩
    · exact absurd (hnone.symm.trans hask) (by simp)
    · exact absurd (hopen.symm.trans hclosed) (by simp)
  | refuse => exact ⟨List.prefix_rfl, fun hclosed => ⟨hclosed, rfl⟩⟩
  | receive htake =>
    refine ⟨List.prefix_append .., fun hclosed => ?_⟩
    exact absurd ((horderly.isOpen_of_take? htake).symm.trans hclosed) (by simp)
  | answer reply hheld =>
    refine ⟨List.prefix_rfl, fun hclosed => ⟨?_, rfl⟩⟩
    rwa [Link.mailbox_answer]
  | close => exact ⟨List.prefix_rfl, fun _ => ⟨rfl, rfl⟩⟩

theorem Grows.ticket (hgrows : s.Grows s') {number call : Nat}
    (hticket : s.tickets[number]? = some call) : s'.tickets[number]? = some call := by
  obtain ⟨later, hlater⟩ := hgrows.tickets
  rw [← hlater, List.getElem?_append_left (List.getElem?_eq_some_iff.mp hticket).1, hticket]

theorem Grows.decided (hgrows : s.Grows s') {call : Nat} {reply : Option PlacementReply}
    (hdecided : s.Decided past call reply) (action : Action) :
    s'.Decided (past ++ [action]) call reply := by
  rcases hdecided with ⟨number, hticket, hanswer⟩ | ⟨hnone, hsend, hticket, hclosed⟩
  · exact .inl ⟨number, hgrows.ticket hticket, List.mem_append_left _ hanswer⟩
  · obtain ⟨hclosed', htickets⟩ := hgrows.closed hclosed
    exact .inr ⟨hnone, List.mem_append_left _ hsend, htickets ▸ hticket, hclosed'⟩

/-- Calls return what has been decided about them. -/
structure Accounted (past : List Action) (s : Session) : Prop where
  sent : past.filterMap Action.sender? = s.sent
  /-- The scheduler holds tickets by their numbers. -/
  held : ∀ number call, (number, call) ∈ s.link.unanswered → s.tickets[number]? = some call
  answered : ∀ number reply, .answer number reply ∈ past →
    ∃ call, s.tickets[number]? = some call ∧ (call, reply) ∈ s.returned
  returned : ∀ call reply, (call, reply) ∈ s.returned → s.Decided past call reply

namespace Accounted

theorem begin (scheduler : Scheduler) (present : Bool) (requests : List PlacementRequest) :
    (begin scheduler present requests).Accounted [] where
  sent := rfl
  held _ _ hheld := absurd hheld List.not_mem_nil
  answered _ _ hanswer := absurd hanswer List.not_mem_nil
  returned _ _ hreturned := absurd hreturned List.not_mem_nil

theorem mem_sent (haccounted : s.Accounted past) {call : Nat} :
    call ∈ s.sent ↔ .send call ∈ past := by
  rw [← haccounted.sent, List.mem_filterMap]
  constructor
  · rintro ⟨action, hmem, hsender⟩
    cases action with
    | send other => exact Option.some.inj hsender ▸ hmem
    | _ => cases hsender
  · exact fun hmem => ⟨_, hmem, rfl⟩

/-- The books after an action, which have to be checked only where it changes something. -/
theorem grow {action : Action} {new : List (Nat × Option PlacementReply)}
    (haccounted : s.Accounted past) (hgrows : s.Grows s')
    (hsent : s'.sent = s.sent ++ action.sender?.toList)
    (hheld : ∀ held ∈ s'.link.unanswered,
      held ∈ s.link.unanswered ∨ s'.tickets[held.1]? = some held.2)
    (hreturned : s'.returned = s.returned ++ new)
    (hanswered : ∀ number reply, action = .answer number reply →
      ∃ call, s'.tickets[number]? = some call ∧ (call, reply) ∈ new)
    (hdecided : ∀ answer ∈ new, s'.Decided (past ++ [action]) answer.1 answer.2) :
    s'.Accounted (past ++ [action]) where
  sent := by
    rw [hsent, List.filterMap_append, haccounted.sent, List.filterMap_cons, List.filterMap_nil]
    cases action.sender? <;> rfl
  held number call hmem :=
    (hheld _ hmem).elim (fun hold => hgrows.ticket (haccounted.held number call hold)) id
  answered number reply hmem := by
    rcases List.mem_append.mp hmem with hold | hnew
    · obtain ⟨call, hticket, hcall⟩ := haccounted.answered number reply hold
      exact ⟨call, hgrows.ticket hticket, hreturned ▸ List.mem_append_left _ hcall⟩
    · obtain ⟨call, hticket, hcall⟩ := hanswered number reply (List.mem_singleton.mp hnew).symm
      exact ⟨call, hticket, hreturned ▸ List.mem_append_right _ hcall⟩
  returned call reply hmem := by
    rcases List.mem_append.mp (hreturned ▸ hmem) with hold | hnew
    · exact hgrows.decided (haccounted.returned call reply hold) action
    · exact hdecided _ hnew

theorem act (haccounted : s.Accounted past) (horderly : s.Orderly requests) {action : Action}
    (hact : s.act action = some s') : s'.Accounted (past ++ [action]) := by
  have hdoes := does_of_act hact
  have hgrows := hdoes.grows horderly
  cases hdoes with
  | @send call request link _ _ hask =>
    have hunanswered : link.unanswered = s.link.unanswered := (Link.perm_ask? hask).2
    apply haccounted.grow hgrows rfl _ (List.append_nil _).symm
    · simp
    · simp
    · exact fun _ hmem => .inl (hunanswered ▸ hmem)
  | @refuse call request hnew _ hask =>
    have hticket : call ∉ s.tickets := fun hmem => hnew (horderly.tickets_prefix.subset hmem)
    apply haccounted.grow hgrows rfl (fun _ hmem => .inl hmem) rfl
    · simp
    · intro answer hmem
      obtain rfl := List.mem_singleton.mp hmem
      exact .inr ⟨rfl, by simp, hticket, horderly.isOpen_of_refuse hask⟩
  | @receive ticket link htake =>
    have hnumber : s.link.received.length = s.tickets.length := by
      simpa using congrArg List.length horderly.received
    apply haccounted.grow hgrows (List.append_nil _).symm _ (List.append_nil _).symm
    · simp
    · simp
    · obtain ⟨_, _, -, rfl⟩ := Link.take?_eq_some htake
      intro held hmem
      rcases List.mem_append.mp hmem with hold | hlast
      · exact .inl hold
      · obtain rfl := List.mem_singleton.mp hlast
        exact .inr (by simp [hnumber])
  | @answer number call reply hheld =>
    have hticket := haccounted.held number call (Link.mem_of_lookup hheld)
    apply haccounted.grow hgrows (List.append_nil _).symm _ rfl
    · intro number' reply' heq
      obtain ⟨rfl, rfl⟩ := Action.answer.inj heq
      exact ⟨call, hticket, List.mem_singleton_self _⟩
    · intro answer hmem
      obtain rfl := List.mem_singleton.mp hmem
      exact .inl ⟨number, hticket, by simp⟩
    · rw [Link.answer_of_lookup hheld]
      exact fun _ hmem => .inl (List.mem_of_mem_eraseP hmem)
  | close =>
    apply haccounted.grow hgrows (List.append_nil _).symm (fun _ hmem => .inl hmem) rfl
    · simp
    · intro answer hlost
      obtain ⟨ticket, hticket, rfl⟩ := List.mem_map.mp hlost
      have hcall : ticket.caller ∈ s.link.undelivered.map (·.caller) := List.mem_map_of_mem hticket
      have hsent := haccounted.mem_sent.mp (horderly.order.subset (List.mem_append_right _ hcall))
      -- no call has sent two tickets
      have hother := List.disjoint_of_nodup_append (horderly.order.nodup horderly.distinct)
      exact .inr ⟨rfl, List.mem_append_left _ hsent, fun hreceived => hother hreceived hcall, rfl⟩

theorem run (haccounted : s.Accounted past) (horderly : s.Orderly requests)
    {actions : List Action} (hrun : s.run actions = some s') :
    s'.Accounted (past ++ actions) := by
  induction actions generalizing s past with
  | nil => simpa using Option.some.inj hrun ▸ haccounted
  | cons action actions ih =>
    obtain ⟨next, hact, hrest⟩ := Option.bind_eq_some_iff.mp hrun
    have hnext := ih (haccounted.act horderly hact) (horderly.act hact) hrest
    rwa [List.append_assoc] at hnext

end Accounted

/-- A call that has sent its ticket has returned, or its ticket is on its way, or the scheduler
has it. -/
theorem Orderly.sent_cases (horderly : s.Orderly requests) {call : Nat} (hsent : call ∈ s.sent) :
    (∃ reply, (call, reply) ∈ s.returned) ∨ call ∈ s.link.undelivered.map (·.caller) ∨
      ∃ number, (number, call) ∈ s.link.unanswered := by
  have hmem := horderly.shared.subset hsent
  rw [Link.callers_eq, List.mem_append, List.mem_append] at hmem
  simpa only [List.mem_map, Prod.exists, exists_and_right, exists_eq_right] using hmem

/-- A call returns exactly what is decided about it. -/
theorem returned_iff (horderly : s.Orderly requests) (haccounted : s.Accounted past) {call : Nat}
    {reply : Option PlacementReply} :
    (call, reply) ∈ s.returned ↔ s.Decided past call reply := by
  constructor
  · exact haccounted.returned call reply
  rintro (⟨number, hticket, hanswer⟩ | ⟨rfl, hsend, hticket, hclosed⟩)
  · obtain ⟨other, hother, hreturned⟩ := haccounted.answered number reply hanswer
    obtain rfl := Option.some.inj (hother.symm.trans hticket)
    exact hreturned
  rcases horderly.sent_cases (haccounted.mem_sent.mpr hsend) with ⟨reply, hreturned⟩ |
    hundelivered | ⟨number, hheld⟩
  · rcases haccounted.returned call reply hreturned with ⟨number, hother, -⟩ | ⟨rfl, -⟩
    · exact absurd (List.mem_of_getElem? hother) hticket
    · exact hreturned
  · rw [horderly.closed hclosed] at hundelivered
    exact absurd hundelivered List.not_mem_nil
  · exact absurd (List.mem_of_getElem? (haccounted.held number call hheld)) hticket

/-- What the scheduler reads on a ticket is what its call asks for. -/
theorem Orderly.received_getElem? (horderly : s.Orderly requests) {number call : Nat}
    (hticket : s.tickets[number]? = some call) : s.link.received[number]? = requests[call]? := by
  have hreceived := congrArg (·[number]?) horderly.received
  simp only [List.getElem?_map, hticket, Option.map_some] at hreceived
  cases hread : s.link.received[number]? with
  | none => simp [hread] at hreceived
  | some request => simpa [hread] using hreceived

/-- A call returns once. -/
theorem nodup_returned (horderly : s.Orderly requests) : (s.returned.map (·.1)).Nodup :=
  (List.nodup_append.mp (horderly.shared.nodup_iff.mp horderly.distinct)).1

theorem returned_unique (horderly : s.Orderly requests) {call : Nat}
    {reply other : Option PlacementReply} (hreply : (call, reply) ∈ s.returned)
    (hother : (call, other) ∈ s.returned) : reply = other :=
  congrArg Prod.snd (List.inj_on_of_nodup_map (nodup_returned horderly) hreply hother rfl)

/-- The scheduler may answer any ticket it has, at any time. -/
theorem act_answer (haccounted : s.Accounted past) {number call : Nat}
    (hheld : (number, call) ∈ s.link.unanswered) (reply : Option PlacementReply) :
    ∃ s', s.act (.answer number reply) = some s' ∧ (call, reply) ∈ s'.returned := by
  obtain ⟨other, hlookup⟩ := Option.isSome_iff_exists.mp
    (List.lookup_isSome_iff.mpr ⟨_, hheld, BEq.rfl⟩)
  -- a number belongs to one ticket only
  have hother := haccounted.held number other (Link.mem_of_lookup hlookup)
  obtain rfl := Option.some.inj (hother.symm.trans (haccounted.held number call hheld))
  exact ⟨_, by rw [act, hlookup]; rfl, by simp [settle, Link.answer_of_lookup hlookup]⟩

/-- As long as a ticket is on its way, the scheduler can receive one. -/
theorem act_receive (horderly : s.Orderly requests) {call : Nat}
    (hundelivered : call ∈ s.link.undelivered.map (·.caller)) :
    ∃ s', s.act .receive = some s' := by
  cases htake : s.link.take? with
  | none =>
    rw [Link.undelivered_of_take?_none horderly.roomy htake] at hundelivered
    exact absurd hundelivered List.not_mem_nil
  | some taken => exact ⟨_, by rw [act, htake]; rfl⟩

/-- No call waits for good because of another: the scheduler has its ticket and may answer it at
any time, or there are tickets to receive. -/
theorem goes_on (horderly : s.Orderly requests) (haccounted : s.Accounted past) {call : Nat}
    (hsend : .send call ∈ past) :
    (∃ reply, (call, reply) ∈ s.returned) ∨
    (∃ number, s.tickets[number]? = some call ∧ ∀ reply, ∃ s',
      s.act (.answer number reply) = some s' ∧ (call, reply) ∈ s'.returned) ∨
    (call ∉ s.tickets ∧ ∃ s', s.act .receive = some s') := by
  rcases horderly.sent_cases (haccounted.mem_sent.mpr hsend) with hreturned | hundelivered |
    ⟨number, hheld⟩
  · exact .inl hreturned
  · have hother := List.disjoint_of_nodup_append (horderly.order.nodup horderly.distinct)
    exact .inr (.inr ⟨fun hreceived => hother hreceived hundelivered,
      act_receive horderly hundelivered⟩)
  · exact .inr (.inl ⟨number, haccounted.held number call hheld, act_answer haccounted hheld⟩)

end Session
end TraceReplay.Admission
