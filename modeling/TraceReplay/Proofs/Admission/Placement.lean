import TraceReplay.Invoker.Emulated
import TraceReplay.Proofs.Admission.Exchange

/-!
# Placed invocations

Whatever a scheduler does, and in whatever order, a call returns the answer to its own
ticket, or nothing if there is none.  So an emulated invocation runs on the replica that was
decided for it, and runs without a decision too.
-/

namespace TraceReplay

namespace Emulated

/-- An invocation that asks for a placement. -/
structure Consults (r : InvocationRequest) (stats : ModeStats) : Prop where
  linked : r.hasAdmission = true
  stats : r.specification.stats = some stats
  runtime : 1 ≤ r.specification.runtime.toNat

/-- An execution that succeeds on a replica.  Its only job and its response time begin when the
execution begins, at the time of `clock`, and the response time ends with the execution. -/
structure RunsOn (r : InvocationRequest) (replica : Int) (clock : Clock) (execution : Execution) :
    Prop where
  delay : execution.delay = r.specification.runtime.toNat
  outcome : ∃ outcome job, execution.ending = .returns outcome ∧ outcome.success = true ∧
    outcome.job = ⟨r.invocationId, [job]⟩ ∧ job.replica = replica ∧ job.startTime = clock.wall ∧
    outcome.record.startTime = clock.wall ∧ outcome.record.startTime + outcome.record.responseTime =
      { clock with now := clock.now + execution.delay }.wall

theorem Consults.attempt {r : InvocationRequest} {stats : ModeStats} (hconsults : Consults r stats)
    (clock : Clock) :
    attempt r clock = .consult (placement r stats) (afterConsulting r (untried r clock)) := by
  have hruntime : r.specification.runtime.toNat ≠ 0 := Nat.one_le_iff_ne_zero.mp hconsults.runtime
  simp [Emulated.attempt, hruntime, hconsults.linked, hconsults.stats]

/-- Execution starts after the exchange, on the first replica of the answer. -/
theorem runsOn_afterConsulting (r : InvocationRequest) (begun clock : Clock)
    (reply : Option PlacementReply) :
    RunsOn r (reply.elim 0 (·.replicas.headD 0)) clock
      (afterConsulting r (untried r begun) reply clock) := by
  have hruns (notices : List Notice) (replica : Int) :
      RunsOn r replica clock (execution r (untried r begun) notices replica clock) :=
    ⟨rfl, _, _, rfl, rfl, rfl, rfl, rfl, rfl, by
      simp only [execution, completed, Clock.wall]
      push_cast
      ring⟩
  cases reply with
  | none => exact hruns _ 0
  | some reply => exact hruns [] _

end Emulated

namespace Admission.Session

/-- Decisions have not crossed in a session with these requests and actions. -/
structure Uncrossed (requests : List PlacementRequest) (actions : List Action) (s : Session) :
    Prop where
  sentOnce : (actions.filterMap Action.sender?).Nodup
  /-- Tickets are received in the order in which they are sent. -/
  inOrder : s.tickets <+: actions.filterMap Action.sender?
  received : s.link.received.map some = s.tickets.map (requests[·]?)
  returnsOnce : (s.returned.map (·.1)).Nodup
  /-- A call returns a reply if that is the answer to its own ticket, and only then. -/
  answered : ∀ call reply, (call, some reply) ∈ s.returned ↔
    ∃ number, s.tickets[number]? = some call ∧ .answer number (some reply) ∈ actions
  /-- It returns nothing if its ticket is dropped or cannot be delivered, and only then. -/
  unanswered : ∀ call, (call, none) ∈ s.returned ↔
    (∃ number, s.tickets[number]? = some call ∧ .answer number none ∈ actions) ∨
      .send call ∈ actions ∧ call ∉ s.tickets ∧ s.link.mailbox.isOpen = false
  /-- It waits for the scheduler only, who may answer its ticket at any time or has tickets to
  receive. -/
  waits : ∀ call, .send call ∈ actions →
    (∃ reply, (call, reply) ∈ s.returned) ∨
    (∃ number, s.tickets[number]? = some call ∧ ∀ reply, ∃ s',
      s.act (.answer number reply) = some s' ∧ (call, reply) ∈ s'.returned) ∨
    (call ∉ s.tickets ∧ ∃ s', s.act .receive = some s')

theorem uncrossed_of_accounted {requests : List PlacementRequest} {actions : List Action}
    {s : Session} (horderly : s.Orderly requests) (haccounted : s.Accounted actions) :
    s.Uncrossed requests actions where
  sentOnce := haccounted.sent ▸ horderly.distinct
  inOrder := haccounted.sent ▸ horderly.tickets_prefix
  received := horderly.received
  returnsOnce := nodup_returned horderly
  answered call reply := by simp [returned_iff horderly haccounted, Decided]
  unanswered call := by simp [returned_iff horderly haccounted, Decided]
  waits _ hsend := goes_on horderly haccounted hsend

theorem uncrossed_of_run {scheduler : Scheduler} {present : Bool}
    {requests : List PlacementRequest} {actions : List Action} {s : Session}
    (hcapacity : 1 ≤ scheduler.capacity)
    (hrun : (begin scheduler present requests).run actions = some s) :
    s.Uncrossed requests actions :=
  have hbegin := Orderly.begin hcapacity present requests
  uncrossed_of_accounted (hbegin.run hrun)
    ((Accounted.begin scheduler present requests).run hbegin hrun)

/-- Decisions never cross, whatever the order in which calls send their tickets and a scheduler
receives tickets, answers them, drops them and goes away.  An emulated invocation runs, after its
call has returned, on the replica that was decided for it, or on replica zero.  An exchange with
a scheduler that decides whenever it has received a ticket is one of these sessions. -/
theorem uncrossed {scheduler : Scheduler} {present : Bool} {requests : List PlacementRequest}
    {actions : List Action} {s : Session} (hcapacity : 1 ≤ scheduler.capacity)
    (hrun : (begin scheduler present requests).run actions = some s) :
    s.Uncrossed requests actions ∧
    (∀ r stats call, Emulated.Consults r stats →
      requests[call]? = some (Emulated.placement r stats) → ∀ clock, ∃ begin,
        Emulated.attempt r clock = .consult (Emulated.placement r stats) begin ∧
        ∀ reply later, (call, reply) ∈ s.returned →
          (∀ number answer, s.tickets[number]? = some call →
            .answer number (some answer) ∈ actions →
            s.link.received[number]? = some (Emulated.placement r stats) ∧
            Emulated.RunsOn r (answer.replicas.headD 0) later (begin reply later)) ∧
          ((∀ number answer, s.tickets[number]? = some call →
            .answer number (some answer) ∉ actions) →
            Emulated.RunsOn r 0 later (begin reply later))) ∧
    ∃ served t refused, (begin scheduler present requests).run served = some t ∧
      t.Uncrossed requests served ∧ (∀ answer ∈ refused, answer.2 = none) ∧
      t.link = ((Link.connect scheduler present).exchange requests).2 ∧
      t.returned = refused ++ ((Link.connect scheduler present).exchange requests).1 := by
  have huncrossed := uncrossed_of_run hcapacity hrun
  have horderly := (Orderly.begin hcapacity present requests).run hrun
  obtain ⟨served, t, refused, hserved, hexchange⟩ := run_exchange scheduler present requests
  refine ⟨huncrossed, ?_, served, t, refused, hserved, uncrossed_of_run hcapacity hserved,
    hexchange⟩
  intro r stats call hconsults hrequest clock
  refine ⟨_, hconsults.attempt clock, fun reply later hreturned => ⟨?_, ?_⟩⟩
  · intro number answer hticket hanswer
    have hown := (huncrossed.answered call answer).mpr ⟨number, hticket, hanswer⟩
    obtain rfl := returned_unique horderly hreturned hown
    exact ⟨(horderly.received_getElem? hticket).trans hrequest,
      Emulated.runsOn_afterConsulting r clock later (some answer)⟩
  · intro hnone
    cases reply with
    | none => exact Emulated.runsOn_afterConsulting r clock later none
    | some answer =>
      obtain ⟨number, hticket, hanswer⟩ := (huncrossed.answered call answer).mp hreturned
      exact absurd hanswer (hnone number answer hticket)

/-- An invocation of twenty milliseconds. -/
def asking (name : String) : InvocationRequest where
  function := { name := name, invocationStats := [1] }
  siblings := []
  promptFunctions := []
  specification := { runtime := 20, memory := 1, stats := some ⟨10, 32, 100⟩ }
  configuration := { experimentDuration := 1 }
  invocationId := name ++ "-min0.inv0"
  hasAdmission := true

def placed : PlacementReply := ⟨"a-min0.inv0", [7, 8]⟩

/-- The second call sends first and the first call is answered first; the ticket of the second is
dropped, the third waits when the scheduler goes away, and the fourth comes too late. -/
def crossing : List Action :=
  [.send 1, .send 0, .receive, .send 2, .receive, .answer 1 (some placed), .answer 0 none, .close,
    .send 3]

theorem uncrossed_crossing :
    ∃ s, (begin { capacity := 1, serve := fun _ => {} } true
        (["a", "b", "c", "d"].map fun name => Emulated.placement (asking name) ⟨10, 32, 100⟩)).run
          crossing = some s ∧
      s.tickets = [1, 0] ∧
      s.returned = [(0, some placed), (1, none), (2, none), (3, none)] ∧
      ∀ clock later, ∃ first third,
        Emulated.attempt (asking "a") clock =
          .consult (Emulated.placement (asking "a") ⟨10, 32, 100⟩) first ∧
        Emulated.RunsOn (asking "a") 7 later (first (some placed) later) ∧
        Emulated.attempt (asking "c") clock =
          .consult (Emulated.placement (asking "c") ⟨10, 32, 100⟩) third ∧
        Emulated.RunsOn (asking "c") 0 later (third none later) := by
  have hsession : ∃ s, (begin { capacity := 1, serve := fun _ => {} } true
      (["a", "b", "c", "d"].map fun name => Emulated.placement (asking name) ⟨10, 32, 100⟩)).run
        crossing = some s ∧ s.tickets = [1, 0] ∧
      s.returned = [(0, some placed), (1, none), (2, none), (3, none)] :=
    ⟨_, rfl, rfl, rfl⟩
  obtain ⟨s, hrun, htickets, hreturned⟩ := hsession
  have hconsults (name : String) : Emulated.Consults (asking name) ⟨10, 32, 100⟩ :=
    ⟨rfl, rfl, (by decide : 1 ≤ (20 : UInt32).toNat)⟩
  refine ⟨s, hrun, htickets, hreturned, fun clock later => ?_⟩
  obtain ⟨-, hruns, -⟩ := uncrossed (Nat.le_refl 1) hrun
  obtain ⟨first, hfirst, hplaced⟩ := hruns (asking "a") ⟨10, 32, 100⟩ 0 (hconsults "a") rfl clock
  obtain ⟨third, hthird, hunplaced⟩ := hruns (asking "c") ⟨10, 32, 100⟩ 2 (hconsults "c") rfl clock
  refine ⟨first, third, hfirst, ?_, hthird, ?_⟩
  · have hanswered : .answer 1 (some placed) ∈ crossing := by simp [crossing]
    exact ((hplaced (some placed) later (by simp [hreturned])).1 1 placed (by simp [htickets])
      hanswered).2
  · refine (hunplaced none later (by simp [hreturned])).2 ?_
    intro number answer hticket
    have hmem := List.mem_of_getElem? hticket
    simp [htickets] at hmem

end Admission.Session

end TraceReplay
