import TraceReplay.Proofs.Replay.Standing

/-!
# Views of a replay

A view is what the properties of a replay speak of: which tasks stand where, what
the lanes have counted, which records are with the collector, what has been issued
and which drivers have ended.  How mailboxes, timers and services bring this about
is left out.  `View.Step` says, once, everything a turn can do to a view.
-/

namespace TraceReplay.Replay

/-- The lane without the driver that may wait in it, which is a standing task. -/
def Lane.unparked (lane : Lane) : Lane := { lane with waiting := none }

@[ext]
structure View where
  clock : Clock
  /-- All tasks that belong to lanes. -/
  standing : Standing
  lane : Nat → Option Lane
  /-- Records that the collector has or will find in its mailbox. -/
  records : Multiset ExecutionRecord
  jobs : Multiset JobRecord
  recordsOpen : Bool
  jobsOpen : Bool
  issues : List (Nat × Driver.Issue)
  finished : List Finish

namespace View

def add (v : View) (place : Place) (task : Task) : View :=
  { v with standing := (place, task) ::ₘ v.standing }

def setLane (v : View) (index : Nat) (lane : Lane) : View :=
  { v with lane := Function.update v.lane index (some lane) }

@[simp]
theorem setLane_lane_self (v : View) (index : Nat) (lane : Lane) :
    (v.setLane index lane).lane index = some lane := by
  simp [setLane]

theorem setLane_lane_ne (v : View) {index other : Nat} (lane : Lane) (hne : other ≠ index) :
    (v.setLane index lane).lane other = v.lane other := by
  simp [setLane, hne]

/-- What a driver asks for; `lane` is its own. -/
def move (v : View) (index : Nat) (lane : Lane) (s : Driver.State) : Driver.Move → View
  | .proceed next => v.add .ready (.drive index next s)
  | .sleep micros next => v.add (.asleep (v.clock.wakeTime micros)) (.drive index next s)
  | .yield next => v.add .deferred (.drive index next s)
  | .deliver pair next => v.add .ready (.storeRecord index pair (.drive index next s))
  | .launch dispatch next =>
    ((v.setLane index { lane with inFlight := lane.inFlight + 1 }).add .ready
      (.attempt index dispatch)).add .ready (.drive index next s)
  | .await next => v.add (if lane.inFlight = 0 then .ready else .held) (.drive index next s)
  | .finish report => { v with finished := ⟨index, v.clock.now, .ok report⟩ :: v.finished }
  | .fail error => { v with finished := ⟨index, v.clock.now, .error error⟩ :: v.finished }

/-- The turn of a driver. -/
def drive (v : View) (index : Nat) (lane : Lane) (turn : Driver.Turn) : View :=
  let lane := { lane with counters := turn.counters }
  ({ v with issues := turn.issue.toList.map (index, ·) ++ v.issues }.setLane index lane).move
    index lane turn.state turn.move

/-- Where an execution that begins now waits for its end. -/
def executing (clock : Clock) (index : Nat) (dispatch : Dispatch) (execution : Execution) :
    Place × Task :=
  (if execution.delay = 0 then .ready else .asleep (clock.now + execution.delay),
    .conclude index dispatch execution.ending)

def request (lane : Lane) (dispatch : Dispatch) : InvocationRequest :=
  dispatch.request lane.context.promptFunctions lane.plan.configuration.loader
    lane.context.hasAdmission

/-- How an invocation that has not ended goes on: it is executed, or it asks the
scheduler and perhaps nobody is there. -/
inductive Proceeds (clock : Clock) (index : Nat) (lane : Lane) : Task → Place × Task → Prop
  | executes {dispatch execution}
      (hattempt : lane.context.invoker.attempt (request lane dispatch) clock =
        .execute execution) :
      Proceeds clock index lane (.attempt index dispatch)
        (executing clock index dispatch execution)
  | consults {dispatch question begin}
      (hattempt : lane.context.invoker.attempt (request lane dispatch) clock =
        .consult question begin) :
      Proceeds clock index lane (.attempt index dispatch)
        (.held, .answered index dispatch none begin)
  | unheard {dispatch question begin}
      (hattempt : lane.context.invoker.attempt (request lane dispatch) clock =
        .consult question begin) :
      Proceeds clock index lane (.attempt index dispatch)
        (.ready, .answered index dispatch none begin)
  | answered {dispatch reply begin} :
      Proceeds clock index lane (.answered index dispatch reply begin)
        (executing clock index dispatch (begin reply clock))

/-- The task waits for room in a mailbox when it is held. -/
def isStore : Task → Bool
  | .storeRecord .. => true
  | .storeJob .. => true
  | _ => false

/-- Tasks that have let others go first go on. -/
def rouse : Place × Task → Place × Task
  | (.deferred, task) => (.ready, task)
  | x => x

/-- Tasks that sleep until `time` wake. -/
def wakeAt (time : Nat) : Place × Task → Place × Task
  | (.asleep due, task) => if due = time then (.ready, task) else (.asleep due, task)
  | x => x

/-- Everything one turn can do, of a driver or else. -/
inductive Step : Option Nat → View → View → Prop
  | drive {v : View} {index point s lane rest}
      (hstanding : v.standing = (.ready, .drive index point s) ::ₘ rest)
      (hlane : v.lane index = some lane) :
      Step (some index) v ({ v with standing := rest }.drive index lane
        (Driver.turn lane.plan v.clock lane.counters point s))
  | proceed {v : View} {index lane task x rest}
      (hstanding : v.standing = (.ready, task) ::ₘ rest) (hlane : v.lane index = some lane)
      (hproceeds : Proceeds v.clock index lane task x) :
      Step none v { v with standing := x ::ₘ rest }
  | answer {v : View} {index dispatch begin reply rest}
      (hstanding : v.standing = (.held, .answered index dispatch none begin) ::ₘ rest) :
      Step none v { v with standing := (.ready, .answered index dispatch reply begin) ::ₘ rest }
  | panic {v : View} {index dispatch rest}
      (hstanding : v.standing = (.ready, .conclude index dispatch .panics) ::ₘ rest) :
      Step none v { v with standing := (.ready, .release index) ::ₘ rest }
  | publish {v : View} {index lane dispatch outcome rest}
      (hstanding : v.standing = (.ready, .conclude index dispatch (.returns outcome)) ::ₘ rest)
      (hlane : v.lane index = some lane) :
      Step none v (({ v with standing := rest }.setLane index
        { lane with counters := dispatch.count outcome lane.counters }).add .ready
          (.storeRecord index (dispatch.label outcome) (.release index)))
  | storeRecord {v : View} {place index lane pair next rest}
      (hstanding : v.standing = (place, .storeRecord index pair next) ::ₘ rest)
      (hplace : place = .ready ∨ place = .held) (hlane : v.lane index = some lane)
      (hsink : lane.sinkOpen = true) :
      Step none v { v with
        standing := (.ready, .storeJob index pair next) ::ₘ rest
        records := pair.record ::ₘ v.records }
  | storeJob {v : View} {place index lane pair next rest}
      (hstanding : v.standing = (place, .storeJob index pair next) ::ₘ rest)
      (hplace : place = .ready ∨ place = .held) (hlane : v.lane index = some lane)
      (hsink : lane.sinkOpen = true) :
      Step none v { v with
        standing := (.ready, next) ::ₘ rest
        jobs := pair.job ::ₘ v.jobs }
  | queue {v : View} {task rest}
      (hstanding : v.standing = (.ready, task) ::ₘ rest) (hstore : isStore task) :
      Step none v { v with standing := (.held, task) ::ₘ rest }
  | loseRecord {v : View} {index lane pair next rest}
      (hstanding : v.standing = (.ready, .storeRecord index pair next) ::ₘ rest)
      (hlane : v.lane index = some lane)
      (hclosed : lane.sinkOpen = false ∨ v.recordsOpen = false) :
      Step none v { v with standing := (.ready, next) ::ₘ rest }
  | loseJob {v : View} {index lane pair next rest}
      (hstanding : v.standing = (.ready, .storeJob index pair next) ::ₘ rest)
      (hlane : v.lane index = some lane)
      (hclosed : lane.sinkOpen = false ∨ v.jobsOpen = false) :
      Step none v { v with standing := (.ready, next) ::ₘ rest }
  | release {v : View} {index lane rest}
      (hstanding : v.standing = (.ready, .release index) ::ₘ rest)
      (hlane : v.lane index = some lane)
      (hwaits : lane.inFlight - 1 = 0 → ∀ point s, (.held, .drive index point s) ∉ rest) :
      Step none v ({ v with standing := rest }.setLane index
        { lane with inFlight := lane.inFlight - 1 })
  | resume {v : View} {index lane point s rest}
      (hstanding : v.standing = (.ready, .release index) ::ₘ (.held, .drive index point s) ::ₘ rest)
      (hlane : v.lane index = some lane) (hlast : lane.inFlight - 1 = 0) :
      Step none v (({ v with standing := rest }.setLane index
        { lane with inFlight := lane.inFlight - 1 }).add .ready (.drive index point s))
  | rouse {v : View} (hready : ∀ x ∈ v.standing, x.1 ≠ .ready) :
      Step none v { v with standing := v.standing.map rouse }
  | tick {v : View} {time : Nat}
      (hready : ∀ x ∈ v.standing, x.1 ≠ .ready) (hdeferred : ∀ x ∈ v.standing, x.1 ≠ .deferred)
      (hdue : ∀ x ∈ v.standing, ∀ due, x.1 = .asleep due → time ≤ due)
      (hstores : ∀ x ∈ v.standing, isStore x.2 = false) (hlater : v.clock.now < time) :
      Step none v { v with
        clock := { v.clock with now := time }
        standing := v.standing.map (wakeAt time) }

/-- The drivers of a lane, whether they stand somewhere or have ended. -/
def drivers (v : View) (index : Nat) : Nat :=
  v.standing.countP (fun x => x.2.driving?.map (·.1) = some index)
    + v.finished.countP (fun finish => finish.lane = index)

/-- What has been issued by one lane, the oldest first. -/
def issuesOf (v : View) (index : Nat) : List Driver.Issue :=
  (v.issues.filterMap fun (lane, issue) => if lane = index then some issue else none).reverse

end View

/-- Tasks that belong to lanes. -/
def ofLanes (standing : Standing) : Standing := standing.filter fun x => x.2.lane?.isSome

@[simp]
theorem ofLanes_cons {x : Place × Task} (hlane : x.2.lane?.isSome) (standing : Standing) :
    ofLanes (x ::ₘ standing) = x ::ₘ ofLanes standing :=
  Multiset.filter_cons_of_pos standing hlane

@[simp]
theorem ofLanes_cons_service {x : Place × Task} (hlane : x.2.lane? = none)
    (standing : Standing) : ofLanes (x ::ₘ standing) = ofLanes standing :=
  Multiset.filter_cons_of_neg standing (by simp [hlane])

@[simp]
theorem ofLanes_add (left right : Standing) :
    ofLanes (left + right) = ofLanes left + ofLanes right :=
  Multiset.filter_add _ _ _

theorem mem_ofLanes {standing : Standing} {x : Place × Task} :
    x ∈ ofLanes standing ↔ x ∈ standing ∧ x.2.lane?.isSome :=
  Multiset.mem_filter

namespace World

def view (w : World) : View where
  clock := w.clock
  standing := ofLanes w.standing
  lane index := w.lanes[index]?.map Lane.unparked
  records := (w.collector.records ++ w.records.queue.map (·.pair.record) : List ExecutionRecord)
  jobs := (w.collector.jobs ++ w.jobs.queue.map (·.pair.job) : List JobRecord)
  recordsOpen := w.records.isOpen
  jobsOpen := w.jobs.isOpen
  issues := w.issues
  finished := w.finished

end World
end TraceReplay.Replay
