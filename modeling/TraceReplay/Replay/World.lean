import TraceReplay.Admission
import TraceReplay.Driver

/-!
# The world of a replay

Everything that happens in a replay is a turn of some task: of a driver, of an
invocation, of the collector or of the admission scheduler.  Tasks that can go on
take their turns in the order in which they became ready; a task that waits stands
where it waits: in the deferred list, among the timers, in a mailbox, at the link
or, for a driver whose invocations are in flight, in its lane.
-/

namespace TraceReplay

/-- What all invocations of an experiment share. -/
structure Experiment.Context where
  invoker : Invoker
  promptFunctions : List Function := []
  hasAdmission : Bool := false

namespace Replay

/-- A driver together with its invocations. -/
structure Lane where
  plan : Driver.Plan
  context : Experiment.Context
  counters : Counters
  /-- Invocations that are not over. -/
  inFlight : Nat := 0
  /-- The driver, while it waits for them. -/
  waiting : Option (Driver.Point × Driver.State) := none
  /-- The collector of this lane still listens. -/
  sinkOpen : Bool := true

/-- What is to be done next, by whom.  Lanes are named by their places. -/
inductive Task where
  | drive (lane : Nat) (point : Driver.Point) (state : Driver.State)
  /-- An invocation begins. -/
  | attempt (lane : Nat) (dispatch : Dispatch)
  /-- An invocation goes on with the answer of the scheduler. -/
  | answered (lane : Nat) (dispatch : Dispatch) (reply : Option PlacementReply)
      (begin : Option PlacementReply → Clock → Execution)
  /-- The delay of an invocation is over. -/
  | conclude (lane : Nat) (dispatch : Dispatch) (ending : Ending)
  /-- Records go to the collector, the execution record first. -/
  | storeRecord (lane : Nat) (pair : RecordPair) (next : Task)
  | storeJob (lane : Nat) (pair : RecordPair) (next : Task)
  /-- An invocation is over. -/
  | release (lane : Nat)
  /-- The collector looks into its mailboxes. -/
  | collect
  /-- The scheduler looks for tickets. -/
  | serve
  /-- Passes the time. -/
  | idle

/-- The task is a driver, perhaps one that is delivering records. -/
def Task.isDriver : Task → Bool
  | .drive .. => true
  | .storeRecord _ _ next => next.isDriver
  | .storeJob _ _ next => next.isDriver
  | _ => false

/-- Records on their way, and what their sender does then. -/
structure Delivery where
  lane : Nat
  pair : RecordPair
  next : Task

/-- An invocation that waits for an answer of the scheduler. -/
structure Caller where
  lane : Nat
  dispatch : Dispatch
  begin : Option PlacementReply → Clock → Execution

/-- How a driver ended. -/
structure Finish where
  lane : Nat
  time : Nat
  result : Except ReplayError Driver.Report

/-- Records that may wait for the collector in one stream. -/
def recordCapacity : Nat := 1024

structure World where
  clock : Clock := {}
  ready : List Task := []
  /-- Tasks that have let all others go first. -/
  deferred : List Task := []
  /-- Sleeping tasks and when they wake, the next one first. -/
  timers : List (Nat × Task) := []
  lanes : List Lane := []
  records : Mailbox Delivery := { capacity := recordCapacity }
  jobs : Mailbox Delivery := { capacity := recordCapacity }
  collector : Collector := {}
  /-- When each record and each job record reached the collector, the latest first. -/
  recordTimes : List Nat := []
  jobTimes : List Nat := []
  /-- The collector has been told to look. -/
  collecting : Bool := false
  link : Option (Link Caller) := none
  /-- The scheduler has been told to look. -/
  serving : Bool := false
  /-- Everything reported so far, the latest first. -/
  notices : List Notice := []
  /-- Every slot issued so far with its lane, the latest first. -/
  issues : List (Nat × Driver.Issue) := []
  /-- The drivers that have ended, the latest first. -/
  finished : List Finish := []

namespace World

def report (w : World) (notices : List Notice) : World :=
  { w with notices := notices.reverse ++ w.notices }

/-- A task that can go on once all those before it have had their turns. -/
def wake (w : World) (task : Task) : World := { w with ready := w.ready ++ [task] }

/-- A task that goes on with its turn. -/
def goOn (w : World) (task : Task) : World := { w with ready := task :: w.ready }

/-- Among tasks that wake at the same time the one that went to sleep first is first. -/
def insertTimer (due : Nat) (task : Task) : List (Nat × Task) → List (Nat × Task)
  | [] => [(due, task)]
  | (first, other) :: rest =>
    if due < first then (due, task) :: (first, other) :: rest
    else (first, other) :: insertTimer due task rest

def sleepUntil (w : World) (due : Nat) (task : Task) : World :=
  { w with timers := insertTimer due task w.timers }

def lane? (w : World) (index : Nat) : Option Lane := w.lanes[index]?

def updateLane (w : World) (index : Nat) (f : Lane → Lane) : World :=
  { w with lanes := w.lanes.modify index f }

/-- Tells the collector to look, unless it is about to. -/
def wakeCollector (w : World) : World :=
  if w.collecting then w else { w.wake .collect with collecting := true }

def wakeScheduler (w : World) : World :=
  if w.serving then w else { w.wake .serve with serving := true }

/-! ## Drivers -/

/-- What a driver asks for. -/
def move (w : World) (index : Nat) (s : Driver.State) (move : Driver.Move) : World :=
  match move with
  | .proceed next => w.goOn (.drive index next s)
  | .sleep micros next => w.sleepUntil (w.clock.wakeTime micros) (.drive index next s)
  | .yield next => { w with deferred := w.deferred ++ [.drive index next s] }
  | .deliver pair next => w.goOn (.storeRecord index pair (.drive index next s))
  | .launch dispatch next =>
    (((w.updateLane index fun lane => { lane with inFlight := lane.inFlight + 1 }).wake
      (.attempt index dispatch)).goOn (.drive index next s))
  | .await next =>
    match w.lane? index with
    | some lane =>
      if lane.inFlight = 0 then w.goOn (.drive index next s)
      else w.updateLane index fun lane => { lane with waiting := some (next, s) }
    | none => w
  | .finish report => { w with finished := ⟨index, w.clock.now, .ok report⟩ :: w.finished }
  | .fail error => { w with finished := ⟨index, w.clock.now, .error error⟩ :: w.finished }

def drive (w : World) (index : Nat) (point : Driver.Point) (s : Driver.State) : World :=
  match w.lane? index with
  | none => w
  | some lane =>
    let turn := Driver.turn lane.plan w.clock lane.counters point s
    let w := (w.report turn.notices).updateLane index fun lane =>
      { lane with counters := turn.counters }
    let w := { w with issues := (turn.issue.toList.map (index, ·)) ++ w.issues }
    w.move index turn.state turn.move

/-! ## Invocations -/

def begin (w : World) (index : Nat) (dispatch : Dispatch) (execution : Execution) : World :=
  let w := w.report execution.notices
  let next := Task.conclude index dispatch execution.ending
  if execution.delay = 0 then w.goOn next
  else w.sleepUntil (w.clock.now + execution.delay) next

/-- Asks the scheduler; without one the invocation goes on with no answer. -/
def consult (w : World) (index : Nat) (dispatch : Dispatch) (request : PlacementRequest)
    (begin : Option PlacementReply → Clock → Execution) : World :=
  match w.link.bind (·.ask? ⟨request, ⟨index, dispatch, begin⟩⟩) with
  | some link => { w with link := some link }.wakeScheduler
  | none => w.goOn (.answered index dispatch none begin)

def attempt (w : World) (index : Nat) (dispatch : Dispatch) : World :=
  match w.lane? index with
  | none => w
  | some lane =>
    let request := dispatch.request lane.context.promptFunctions
      lane.plan.configuration.loader lane.context.hasAdmission
    match lane.context.invoker.attempt request w.clock with
    | .execute execution => w.begin index dispatch execution
    | .consult request begin => w.consult index dispatch request begin

/-- An invocation that panics leaves no record and counts as nothing. -/
def conclude (w : World) (index : Nat) (dispatch : Dispatch) (ending : Ending) : World :=
  match ending with
  | .panics => w.goOn (.release index)
  | .returns outcome =>
    (w.updateLane index fun lane =>
        { lane with counters := dispatch.count outcome lane.counters }).goOn
      (.storeRecord index (dispatch.label outcome) (.release index))

/-- When the last invocation is over, a driver that waits for that goes on. -/
def release (w : World) (index : Nat) : World :=
  match w.lane? index with
  | none => w
  | some lane =>
    let left := lane.inFlight - 1
    match lane.waiting with
    | some (point, state) =>
      if left = 0 then
        (w.updateLane index fun lane => { lane with inFlight := left, waiting := none }).wake
          (.drive index point state)
      else w.updateLane index fun lane => { lane with inFlight := left }
    | none => w.updateLane index fun lane => { lane with inFlight := left }

/-! ## Records -/

def lose (w : World) (pair : RecordPair) (next : Task) : World :=
  (w.report [.recordsLost pair.record.invocationId]).goOn next

def storeRecord (w : World) (index : Nat) (pair : RecordPair) (next : Task) : World :=
  if (w.lane? index).all (!·.sinkOpen) then w.lose pair next
  else match w.records.send ⟨index, pair, next⟩ with
    | .accepted box => ({ w with records := box }.wakeCollector).goOn (.storeJob index pair next)
    | .waits box => { w with records := box }
    | .refused => w.lose pair next

def storeJob (w : World) (index : Nat) (pair : RecordPair) (next : Task) : World :=
  if (w.lane? index).all (!·.sinkOpen) then w.lose pair next
  else match w.jobs.send ⟨index, pair, next⟩ with
    | .accepted box => ({ w with jobs := box }.wakeCollector).goOn next
    | .waits box => { w with jobs := box }
    | .refused => w.lose pair next

/-- One message after the other; a sender that waited for room goes on. -/
def collect (w : World) : World :=
  match w.records.take? with
  | some (delivery, roomFor, box) =>
    let w := { w with
      records := box
      collector := w.collector.accept (.record delivery.pair.record)
      recordTimes := w.clock.now :: w.recordTimes }
    let w := match roomFor with
      | some sender => w.wake (.storeJob sender.lane sender.pair sender.next)
      | none => w
    w.goOn .collect
  | none =>
    match w.jobs.take? with
    | some (delivery, roomFor, box) =>
      let w := { w with
        jobs := box
        collector := w.collector.accept (.job delivery.pair.job)
        jobTimes := w.clock.now :: w.jobTimes }
      let w := match roomFor with
        | some sender => w.wake sender.next
        | none => w
      w.goOn .collect
    | none => { w with collecting := false }

/-! ## The scheduler -/

def serve (w : World) : World :=
  match w.link.bind (·.receive?) with
  | some (answers, link) =>
    let woken := answers.foldl (fun w (caller, reply) =>
      w.wake (.answered caller.lane caller.dispatch reply caller.begin)) w
    { woken with link := some link }.goOn .serve
  | none => { w with serving := false }

/-! ## Turns -/

def perform (w : World) (task : Task) : World :=
  match task with
  | .drive index point state => w.drive index point state
  | .attempt index dispatch => w.attempt index dispatch
  | .answered index dispatch reply begin => w.begin index dispatch (begin reply w.clock)
  | .conclude index dispatch ending => w.conclude index dispatch ending
  | .storeRecord index pair next => w.storeRecord index pair next
  | .storeJob index pair next => w.storeJob index pair next
  | .release index => w.release index
  | .collect => w.collect
  | .serve => w.serve
  | .idle => w

/-- No task can go on now, those apart that have let others go first. -/
def isQuiet (w : World) : Bool := w.ready.isEmpty

/-- One turn: of the first task that is ready, else of those that stood back, else of
those that wake next.  Nothing is left to do if there are none. -/
def step? (w : World) : Option World :=
  match w.ready with
  | task :: ready => some ({ w with ready := ready }.perform task)
  | [] =>
    match w.deferred with
    | task :: deferred => some { w with ready := task :: deferred, deferred := [] }
    | [] =>
      match w.timers with
      | (due, _) :: _ =>
        some { w with
          clock := { w.clock with now := max w.clock.now due }
          ready := (w.timers.takeWhile (·.1 = due)).map (·.2)
          timers := w.timers.dropWhile (·.1 = due) }
      | [] => none

/-- Takes turns until nothing is left to do, or until `enough` holds when no task is
ready; one unit of `fuel` each. -/
def run (enough : World → Bool) : Nat → World → World
  | 0, w => w
  | fuel + 1, w =>
    if w.isQuiet && enough w then w
    else match w.step? with
      | some w => run enough fuel w
      | none => w

/-! ## Turns there can be -/

/-- More turns than one task can lead to on its own. -/
def turnsPerSlot : Nat := 64

/-- More turns than the replay of a trace can take, its invocations included. -/
def turnsOf (plan : Driver.Plan) : Nat :=
  turnsPerSlot * (plan.configuration.traceDuration + plan.function.totalInvocations + 1)

/-- Tasks wherever they stand, and messages that nobody has taken. -/
def population (w : World) : Nat :=
  w.ready.length + w.deferred.length + w.timers.length
    + w.records.queue.length + w.records.waiting.length
    + w.jobs.queue.length + w.jobs.waiting.length
    + (match w.link with
      | some link => link.callers.length
      | none => 0)

/-- More turns than all lanes can take together. -/
def turns (w : World) : Nat :=
  turnsPerSlot * (w.population + 1) + (w.lanes.map fun lane => turnsOf lane.plan).foldr (· + ·) 0

def runToEnd (w : World) : World := w.run (fun _ => false) w.turns

/-- A lane whose driver is about to start. -/
def start (w : World) (plan : Driver.Plan) (context : Experiment.Context)
    (specification : Specification) : World :=
  let lane : Lane := {
    plan := plan, context := context
    counters := Counters.zero plan.configuration.traceDuration }
  { w with lanes := w.lanes ++ [lane] }.wake
    (.drive w.lanes.length .head (Driver.begin plan specification w.clock))

/-- A lane with one invocation that is about to begin, and no driver. -/
def startAlone (w : World) (plan : Driver.Plan) (context : Experiment.Context)
    (dispatch : Dispatch) : World :=
  let lane : Lane := {
    plan := plan, context := context, inFlight := 1
    counters := Counters.zero plan.configuration.traceDuration }
  { w with lanes := w.lanes ++ [lane] }.wake (.attempt w.lanes.length dispatch)

/-- The world with only some of the collector's streams open. -/
def listening (w : World) (records jobs : Bool) : World :=
  { w with
    records := { w.records with isOpen := records }
    jobs := { w.jobs with isOpen := jobs } }

/-- The world after all drivers have been given up.  Their invocations go on. -/
def abort (w : World) : World :=
  let withoutDrivers (box : Mailbox Delivery) : Mailbox Delivery :=
    { box with waiting := box.waiting.filter (!·.next.isDriver) }
  { w with
    ready := w.ready.filter (!Task.isDriver ·)
    deferred := w.deferred.filter (!Task.isDriver ·)
    timers := w.timers.filter fun (_, task) => !Task.isDriver task
    records := withoutDrivers w.records
    jobs := withoutDrivers w.jobs
    lanes := w.lanes.map fun lane => { lane with waiting := none } }

end World
end Replay
end TraceReplay
