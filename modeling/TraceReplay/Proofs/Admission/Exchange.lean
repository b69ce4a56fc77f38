import TraceReplay.Proofs.Admission.Session

/-!
# Exchanges are sessions

A scheduler that decides, whenever it has received a ticket, what it answers then acts like
one that may do anything at any time: an exchange with it is one of its sessions.
-/

namespace TraceReplay.Admission.Session

variable {s : Session}

theorem run_append (s : Session) (actions others : List Action) :
    s.run (actions ++ others) = (s.run actions).bind (·.run others) := by
  induction actions generalizing s with
  | nil => rfl
  | cons action actions ih =>
    simp only [List.cons_append, run, Option.bind_assoc]
    exact congrArg _ (funext fun next => ih next)

theorem settle_settle (s : Session) (first others : List (Nat × Option PlacementReply))
    (link next : Link Nat) :
    (s.settle first link).settle others next = s.settle (first ++ others) next := by
  simp only [settle, List.append_assoc]

/-- Answers to tickets are actions; those to others do nothing. -/
theorem run_answerAll (s : Session) (answers : List (Nat × Option PlacementReply)) :
    ∃ actions, s.run actions =
      some (s.settle (s.link.answerAll answers).1 (s.link.answerAll answers).2) := by
  induction answers generalizing s with
  | nil => exact ⟨[], by simp [run, settle, Link.answerAll]⟩
  | cons first answers ih =>
    obtain ⟨number, reply⟩ := first
    cases hlookup : s.link.unanswered.lookup number with
    | none =>
      simp only [Link.answerAll, Link.answer_of_lookup_none hlookup]
      exact ih s
    | some call =>
      obtain ⟨actions, hrun⟩ :=
        ih (s.settle (s.link.answer number reply).1 (s.link.answer number reply).2)
      refine ⟨.answer number reply :: actions, ?_⟩
      rw [run, act, hlookup, Option.map_some, Option.bind_some, hrun, settle_settle]
      rfl

theorem run_leave (s : Session) :
    ∃ actions, s.run actions = some (s.settle s.link.leave.1 s.link.leave.2) := by
  obtain ⟨actions, hrun⟩ := run_answerAll s (s.link.unanswered.map fun held => (held.1, none))
  refine ⟨actions ++ [.close], ?_⟩
  rw [run_append, hrun, Option.bind_some, run, act, Option.bind_some, settle_settle]
  rfl

/-- What the scheduler does when it receives a ticket. -/
theorem run_receive? {answers : List (Nat × Option PlacementReply)} {next : Link Nat}
    (hreceive : s.link.receive? = some (answers, next)) :
    ∃ actions tickets, s.run actions = some { s.settle answers next with tickets := tickets } := by
  unfold Link.receive? at hreceive
  cases htake : s.link.take? with
  | none => simp [htake] at hreceive
  | some taken =>
    obtain ⟨ticket, link⟩ := taken
    simp only [htake] at hreceive
    set received : Session := { s with link := link, tickets := s.tickets ++ [ticket.caller] }
    have hact : s.act .receive = some received := by
      rw [act, htake]
      simp [settle, received]
    obtain ⟨actions, hrun⟩ := run_answerAll received (link.scheduler.serve link.received).answers
    split at hreceive <;> obtain ⟨rfl, rfl⟩ := Prod.mk.inj (Option.some.inj hreceive)
    · obtain ⟨others, hleave⟩ := run_leave
        (received.settle (link.answerAll (link.scheduler.serve link.received).answers).1
          (link.answerAll (link.scheduler.serve link.received).answers).2)
      refine ⟨.receive :: (actions ++ others), s.tickets ++ [ticket.caller], ?_⟩
      rw [run, hact, Option.bind_some, run_append, hrun, Option.bind_some, hleave, settle_settle]
      rfl
    · refine ⟨.receive :: actions, s.tickets ++ [ticket.caller], ?_⟩
      rw [run, hact, Option.bind_some, hrun]
      rfl

theorem run_receiveAll (fuel : Nat) (s : Session) :
    ∃ actions tickets, s.run actions = some
      { s.settle (s.link.receiveAll fuel).1 (s.link.receiveAll fuel).2 with tickets := tickets } := by
  induction fuel generalizing s with
  | zero => exact ⟨[], s.tickets, by simp [run, settle, Link.receiveAll]⟩
  | succ fuel ih =>
    cases hreceive : s.link.receive? with
    | none => exact ⟨[], s.tickets, by simp [run, settle, Link.receiveAll, hreceive]⟩
    | some received =>
      obtain ⟨answers, next⟩ := received
      obtain ⟨actions, tickets, hrun⟩ := run_receive? hreceive
      obtain ⟨others, tickets', hothers⟩ := ih { s.settle answers next with tickets := tickets }
      refine ⟨actions ++ others, tickets', ?_⟩
      rw [run_append, hrun, Option.bind_some, hothers]
      simp [settle, Link.receiveAll, hreceive]

/-- The next calls send their tickets one after the other; those that are refused return with
nothing. -/
theorem run_sends (rest : List PlacementRequest) (s : Session) (call : Nat)
    (hrest : s.requests.drop call = rest) (hnew : ∀ earlier ∈ s.sent, earlier < call) :
    ∃ actions refused, (∀ answer ∈ refused, answer.2 = none) ∧ s.run actions = some { s with
      link := (rest.zipIdx call).foldl (fun link asked =>
        (link.ask? ⟨asked.1, asked.2⟩).getD link) s.link
      sent := s.sent ++ List.range' call rest.length
      returned := s.returned ++ refused } := by
  induction rest generalizing s call with
  | nil => exact ⟨[], [], by simp, by simp [run]⟩
  | cons request rest ih =>
    have hrequest : s.requests[call]? = some request := by
      rw [← List.head?_drop, hrest, List.head?_cons]
    have hrest' : s.requests.drop (call + 1) = rest := by
      rw [← List.tail_drop, hrest, List.tail_cons]
    have hunsent : call ∉ s.sent := fun hmem => Nat.lt_irrefl call (hnew call hmem)
    have hnew' : ∀ earlier ∈ s.sent ++ [call], earlier < call + 1 := by
      intro earlier hmem
      rcases List.mem_append.mp hmem with hold | hlast
      · exact Nat.lt_succ_of_lt (hnew earlier hold)
      · exact List.mem_singleton.mp hlast ▸ Nat.lt_succ_self call
    cases hask : s.link.ask? ⟨request, call⟩ with
    | none =>
      obtain ⟨actions, refused, hrefused, hrun⟩ := ih { s with
        sent := s.sent ++ [call], returned := s.returned ++ [(call, none)] } (call + 1) hrest' hnew'
      refine ⟨.send call :: actions, (call, none) :: refused, by simpa using hrefused, ?_⟩
      rw [run, act, if_neg hunsent, hrequest, Option.map_some, Option.bind_some]
      simp only [hask, settle]
      rw [hrun]
      simp [hask, List.range'_succ]
    | some link =>
      obtain ⟨actions, refused, hrefused, hrun⟩ :=
        ih { s with link := link, sent := s.sent ++ [call] } (call + 1) hrest' hnew'
      refine ⟨.send call :: actions, refused, hrefused, ?_⟩
      rw [run, act, if_neg hunsent, hrequest, Option.map_some, Option.bind_some]
      simp only [hask, settle, List.append_nil]
      rw [hrun]
      simp [hask, List.range'_succ]

/-- An exchange is a session in which all calls send their tickets first; whoever gets no answer
in it has been refused. -/
theorem run_exchange (scheduler : Scheduler) (present : Bool) (requests : List PlacementRequest) :
    ∃ actions s refused, (begin scheduler present requests).run actions = some s ∧
      (∀ answer ∈ refused, answer.2 = none) ∧
      s.link = ((Link.connect scheduler present).exchange requests).2 ∧
      s.returned = refused ++ ((Link.connect scheduler present).exchange requests).1 := by
  obtain ⟨sends, refused, hrefused, hsends⟩ :=
    run_sends requests (begin scheduler present requests) 0 rfl (by simp [begin])
  obtain ⟨others, tickets, hothers⟩ := run_receiveAll requests.length _
  refine ⟨sends ++ others, _, refused, by rw [run_append, hsends, Option.bind_some, hothers],
    hrefused, rfl, rfl⟩

end TraceReplay.Admission.Session
