import TraceReplay.Proofs.Driver.Turn
import TraceReplay.Proofs.Replay.View

/-!
# What stands where

Not every task stands everywhere: an invocation begins when it is ready, only
drivers let others go first, and what follows the delivery of records is the end of
an invocation or the turn of a driver.  Every step keeps it so.
-/

namespace TraceReplay.Replay.View

/-- What may follow once both records of a slot are with the collector. -/
def AfterStore (index : Nat) (next : Task) : Prop :=
  next = .release index ∨ ∃ s, next = .drive index .stored s

/-- Where a driver may stand. -/
def MayStand (point : Driver.Point) : Place → Prop
  | .ready => True
  | .deferred => point = .check
  | .asleep _ => point = .head ∨ ∃ gap, point = .due gap
  | .held => point = .drained

/-- Where a task of a lane may stand. -/
def Allowed (place : Place) : Task → Prop
  | .drive _ point _ => MayStand point place
  | .attempt .. => place = .ready
  | .answered .. => place = .ready ∨ place = .held
  | .conclude .. => place = .ready ∨ ∃ due, place = .asleep due
  | .storeRecord index _ next => (place = .ready ∨ place = .held) ∧ AfterStore index next
  | .storeJob index _ next => (place = .ready ∨ place = .held) ∧ AfterStore index next
  | .release _ => place = .ready
  | .collect => False
  | .serve => False
  | .idle => False

structure Orderly (v : View) : Prop where
  allowed : ∀ x ∈ v.standing, Allowed x.1 x.2
  owned : ∀ x ∈ v.standing, ∀ index, x.2.lane? = some index → (v.lane index).isSome

theorem AfterStore.lane? {index : Nat} {next : Task} (hnext : AfterStore index next) :
    next.lane? = some index := by
  rcases hnext with rfl | ⟨s, rfl⟩ <;> rfl

theorem AfterStore.allowed {index : Nat} {next : Task} (hnext : AfterStore index next) :
    Allowed .ready next := by
  rcases hnext with rfl | ⟨s, rfl⟩
  · exact rfl
  · exact True.intro

theorem AfterStore.ne_drained {index : Nat} {next : Task} (hnext : AfterStore index next)
    (lane : Nat) (s : Driver.State) : next ≠ .drive lane .drained s := by
  rcases hnext with rfl | ⟨other, rfl⟩ <;> simp

theorem isSome_update {lanes : Nat → Option Lane} {index other : Nat} {lane : Lane}
    (hother : (lanes other).isSome) :
    (Function.update lanes index (some lane) other).isSome := by
  by_cases heq : other = index
  · simp [heq]
  · simpa [heq] using hother

namespace Orderly

variable {v : View}

theorem add (horderly : Orderly v) {place : Place} {task : Task} {index : Nat}
    (hallowed : Allowed place task) (hindex : task.lane? = some index)
    (hlane : (v.lane index).isSome) : Orderly (v.add place task) where
  allowed x hx := by
    rcases Multiset.mem_cons.mp hx with rfl | hmem
    · exact hallowed
    · exact horderly.allowed x hmem
  owned x hx other hother := by
    rcases Multiset.mem_cons.mp hx with rfl | hmem
    · obtain rfl : index = other := Option.some.inj (hindex.symm.trans hother)
      exact hlane
    · exact horderly.owned x hmem other hother

theorem setLane (horderly : Orderly v) (index : Nat) (lane : Lane) :
    Orderly (v.setLane index lane) where
  allowed := horderly.allowed
  owned x hx other hother := isSome_update (horderly.owned x hx other hother)

theorem first (horderly : Orderly v) {place : Place} {task : Task} {rest : Standing}
    (hstanding : v.standing = (place, task) ::ₘ rest) : Allowed place task :=
  horderly.allowed (place, task) (by rw [hstanding]; exact Multiset.mem_cons_self _ _)

/-- A view without the first of its tasks. -/
theorem rest (horderly : Orderly v) {x : Place × Task} {rest : Standing}
    (hstanding : v.standing = x ::ₘ rest) : Orderly { v with standing := rest } where
  allowed y hy := horderly.allowed y (by rw [hstanding]; exact Multiset.mem_cons_of_mem hy)
  owned y hy := horderly.owned y (by rw [hstanding]; exact Multiset.mem_cons_of_mem hy)

/-- A task may take the place of another of its lane. -/
theorem replace (horderly : Orderly v) {x y : Place × Task} {rest : Standing} {index : Nat}
    (hstanding : v.standing = x ::ₘ rest) (hx : x.2.lane? = some index)
    (hy : y.2.lane? = some index) (hallowed : Allowed y.1 y.2) :
    Orderly { v with standing := y ::ₘ rest } :=
  (horderly.rest hstanding).add hallowed hy
    (horderly.owned x (by simp [hstanding]) index hx)

theorem move (horderly : Orderly v) {index : Nat} {lane : Lane} (hlane : (v.lane index).isSome)
    {s : Driver.State} {move : Driver.Move}
    {point : Driver.Point} (hleads : move.Leads point) : Orderly (v.move index lane s move) := by
  cases move with
  | proceed next => exact horderly.add trivial rfl hlane
  | sleep micros next => exact horderly.add hleads.2 rfl hlane
  | yield next => exact horderly.add hleads rfl hlane
  | deliver pair next =>
    obtain rfl := hleads
    exact horderly.add ⟨.inl rfl, .inr ⟨s, rfl⟩⟩ rfl hlane
  | launch dispatch next =>
    have hset := horderly.setLane index { lane with inFlight := lane.inFlight + 1 }
    have hattempt : Orderly ((v.setLane index _).add .ready (.attempt index dispatch)) :=
      hset.add rfl rfl (isSome_update hlane)
    exact hattempt.add trivial rfl (isSome_update hlane)
  | await next =>
    simp only [View.move]
    split
    · exact horderly.add trivial rfl hlane
    · exact horderly.add hleads rfl hlane
  | finish report => exact ⟨horderly.allowed, horderly.owned⟩
  | fail error => exact ⟨horderly.allowed, horderly.owned⟩

theorem map (horderly : Orderly v) {f : Place × Task → Place × Task}
    (htask : ∀ x, (f x).2 = x.2) (hallowed : ∀ x, Allowed x.1 x.2 → Allowed (f x).1 (f x).2)
    (clock : Clock) :
    Orderly { v with clock := clock, standing := v.standing.map f } where
  allowed y hy := by
    obtain ⟨x, hx, rfl⟩ := Multiset.mem_map.mp hy
    exact hallowed x (horderly.allowed x hx)
  owned y hy index hindex := by
    obtain ⟨x, hx, rfl⟩ := Multiset.mem_map.mp hy
    exact horderly.owned x hx index (by rw [← htask x, hindex])

end Orderly

theorem rouse_task (x : Place × Task) : (rouse x).2 = x.2 := by
  obtain ⟨place, task⟩ := x
  cases place <;> rfl

theorem wakeAt_task (time : Nat) (x : Place × Task) : (wakeAt time x).2 = x.2 := by
  obtain ⟨place, task⟩ := x
  cases place with
  | asleep due =>
    simp only [wakeAt]
    split <;> rfl
  | _ => rfl

/-- What may stand anywhere may be ready. -/
theorem Allowed.ready {place : Place} {task : Task} (hallowed : Allowed place task) :
    Allowed .ready task := by
  cases task with
  | drive => exact trivial
  | attempt => exact rfl
  | answered => exact .inl rfl
  | conclude => exact .inl rfl
  | storeRecord => exact ⟨.inl rfl, hallowed.2⟩
  | storeJob => exact ⟨.inl rfl, hallowed.2⟩
  | release => exact rfl
  | collect => exact hallowed
  | serve => exact hallowed
  | idle => exact hallowed

/-- Nothing sleeps that delivers records. -/
theorem Allowed.not_isStore {place : Place} {task : Task} (hallowed : Allowed place task)
    {due : Nat} (hplace : place = .asleep due) : isStore task = false := by
  subst hplace
  cases task with
  | storeRecord => exact absurd hallowed.1 (by simp)
  | storeJob => exact absurd hallowed.1 (by simp)
  | _ => rfl

/-- A driver is held only after its trace, unless it delivers records. -/
theorem Allowed.drained {task : Task} (hallowed : Allowed .held task)
    (hstore : isStore task = false) {lane : Nat} {point : Driver.Point} {s : Driver.State}
    (hdriving : task.driving? = some (lane, point, s)) : point = .drained := by
  cases task with
  | drive other point' s' =>
    obtain ⟨rfl, rfl, rfl⟩ : other = lane ∧ point' = point ∧ s' = s := by
      simpa [Task.driving?] using hdriving
    exact hallowed
  | storeRecord => exact absurd hstore (by simp [isStore])
  | storeJob => exact absurd hstore (by simp [isStore])
  | _ => exact absurd hdriving (by simp [Task.driving?])

theorem Proceeds.orderly {clock : Clock} {index : Nat} {lane : Lane} {task : Task}
    {x : Place × Task} (hproceeds : Proceeds clock index lane task x) :
    task.lane? = some index ∧ x.2.lane? = some index ∧ Allowed x.1 x.2 := by
  have hexecuting (dispatch : Dispatch) (execution : Execution) :
      Allowed (executing clock index dispatch execution).1
        (executing clock index dispatch execution).2 := by
    simp only [executing]
    split
    · exact .inl rfl
    · exact .inr ⟨_, rfl⟩
  cases hproceeds with
  | executes => exact ⟨rfl, rfl, hexecuting _ _⟩
  | consults => exact ⟨rfl, rfl, .inr rfl⟩
  | unheard => exact ⟨rfl, rfl, .inl rfl⟩
  | answered => exact ⟨rfl, rfl, hexecuting _ _⟩

theorem Orderly.step {v v' : View} (horderly : Orderly v) {who : Option Nat} (hstep : Step who v v') :
    Orderly v' := by
  cases hstep with
  | @drive _ index point s lane rest hstanding hlane =>
    have hissued : Orderly ({ v with
        standing := rest
        issues := (Driver.turn lane.plan v.clock lane.counters point s).issue.toList.map
          (index, ·) ++ v.issues }) :=
      ⟨(horderly.rest hstanding).allowed, (horderly.rest hstanding).owned⟩
    exact (hissued.setLane index _).move (by simp) (Driver.turn_leads _ _ _ _ _)
  | proceed hstanding _ hproceeds =>
    obtain ⟨htask, hx, hallowed⟩ := hproceeds.orderly
    exact horderly.replace hstanding htask hx hallowed
  | answer hstanding => exact horderly.replace hstanding rfl rfl (.inl rfl)
  | panic hstanding => exact horderly.replace hstanding rfl rfl rfl
  | publish hstanding hlane =>
    exact ((horderly.rest hstanding).setLane _ _).add ⟨.inl rfl, .inl rfl⟩ rfl (by simp)
  | @storeRecord _ _ index _ pair next rest hstanding =>
    have hallowed := horderly.first hstanding
    have hnext : Orderly { v with standing := (.ready, .storeJob index pair next) ::ₘ rest } :=
      horderly.replace hstanding rfl rfl ⟨.inl rfl, hallowed.2⟩
    exact ⟨hnext.allowed, hnext.owned⟩
  | @storeJob _ _ index _ pair next rest hstanding =>
    have hallowed := horderly.first hstanding
    have hnext : Orderly { v with standing := (.ready, next) ::ₘ rest } :=
      horderly.replace hstanding rfl hallowed.2.lane? hallowed.2.allowed
    exact ⟨hnext.allowed, hnext.owned⟩
  | @queue _ task _ hstanding hstore =>
    have hallowed := horderly.first hstanding
    cases task with
    | storeRecord => exact horderly.replace hstanding rfl rfl ⟨.inr rfl, hallowed.2⟩
    | storeJob => exact horderly.replace hstanding rfl rfl ⟨.inr rfl, hallowed.2⟩
    | _ => exact absurd hstore (by simp [isStore])
  | loseRecord hstanding =>
    have hallowed := horderly.first hstanding
    exact horderly.replace hstanding rfl hallowed.2.lane? hallowed.2.allowed
  | loseJob hstanding =>
    have hallowed := horderly.first hstanding
    exact horderly.replace hstanding rfl hallowed.2.lane? hallowed.2.allowed
  | release hstanding => exact (horderly.rest hstanding).setLane _ _
  | resume hstanding =>
    have hrest := (horderly.rest hstanding).rest (v := { v with standing := _ }) rfl
    exact (hrest.setLane _ _).add trivial rfl (by simp)
  | rouse =>
    refine horderly.map rouse_task (fun x hallowed => ?_) v.clock
    obtain ⟨place, task⟩ := x
    cases place with
    | deferred => exact hallowed.ready
    | _ => exact hallowed
  | tick =>
    refine horderly.map (wakeAt_task _) (fun x hallowed => ?_) _
    obtain ⟨place, task⟩ := x
    cases place with
    | asleep due =>
      simp only [wakeAt]
      split
      · exact hallowed.ready
      · exact hallowed
    | _ => exact hallowed

/-! ## Drivers do not multiply -/

theorem countP_map_task {f : Place × Task → Place × Task} (htask : ∀ x, (f x).2 = x.2)
    (p : Task → Prop) [DecidablePred p] (standing : Standing) :
    (standing.map f).countP (fun x => p x.2) = standing.countP (fun x => p x.2) := by
  rw [Multiset.countP_map, ← Multiset.countP_eq_card_filter]
  simp only [htask]

theorem countP_same_driver {x y : Place × Task} (hsame : x.2.driving? = y.2.driving?)
    (rest : Standing) (index : Nat) :
    (x ::ₘ rest).countP (fun x => x.2.driving?.map (·.1) = some index) =
      (y ::ₘ rest).countP (fun x => x.2.driving?.map (·.1) = some index) := by
  simp only [Multiset.countP_cons, hsame]

theorem Proceeds.driving? {clock : Clock} {index : Nat} {lane : Lane} {task : Task}
    {x : Place × Task} (hproceeds : Proceeds clock index lane task x) :
    task.driving? = none ∧ x.2.driving? = none := by
  cases hproceeds <;> exact ⟨rfl, rfl⟩

theorem drivers_move (v : View) (index other : Nat) (lane : Lane) (s : Driver.State)
    (move : Driver.Move) :
    (v.move index lane s move).drivers other = v.drivers other + if index = other then 1 else 0 := by
  cases move <;>
    simp [View.move, drivers, add, setLane, Task.driving?, Multiset.countP_cons,
      List.countP_cons] <;> omega

/-- No step makes a driver or loses one. -/
theorem drivers_step {v v' : View} {who : Option Nat} (hstep : Step who v v') (index : Nat) :
    v'.drivers index = v.drivers index := by
  cases hstep with
  | drive hstanding =>
    rw [View.drive, drivers_move]
    simp only [drivers, setLane, hstanding, Multiset.countP_cons, Task.driving?, Option.map_some,
      Option.some.injEq]
    omega
  | proceed hstanding _ hproceeds =>
    obtain ⟨htask, hx⟩ := hproceeds.driving?
    simp [drivers, hstanding, htask, hx]
  | queue hstanding | storeRecord hstanding | storeJob hstanding | loseRecord hstanding
  | loseJob hstanding =>
    rw [drivers, drivers, hstanding, countP_same_driver]
    rfl
  | rouse => simp only [drivers, countP_map_task rouse_task (fun task => task.driving?.map (·.1) = some index)]
  | tick =>
    simp only [drivers, countP_map_task (wakeAt_task _) (fun task => task.driving?.map (·.1) = some index)]
  | _ hstanding =>
    simp [drivers, add, setLane, hstanding, Multiset.countP_cons, Task.driving?]

/-! ## Lanes stay what they are -/

/-- What never changes of a lane. -/
def setup (v : View) (index : Nat) : Option (Driver.Plan × Experiment.Context × Bool) :=
  (v.lane index).map fun lane => (lane.plan, lane.context, lane.sinkOpen)

theorem setup_setLane {v : View} {index : Nat} {lane : Lane} (hlane : v.lane index = some lane)
    (next : Lane) (hplan : next.plan = lane.plan) (hcontext : next.context = lane.context)
    (hsink : next.sinkOpen = lane.sinkOpen) (other : Nat) :
    (v.setLane index next).setup other = v.setup other := by
  by_cases heq : other = index
  · subst heq
    simp [setup, hlane, hplan, hcontext, hsink]
  · simp only [setup, setLane_lane_ne v next heq]

theorem setup_step {v v' : View} {who : Option Nat} (hstep : Step who v v') (other : Nat) :
    v'.setup other = v.setup other := by
  cases hstep with
  | @drive _ index point s lane rest hstanding hlane =>
    generalize Driver.turn lane.plan v.clock lane.counters point s = turn
    set issued : View := { v with
      standing := rest
      issues := turn.issue.toList.map (index, ·) ++ v.issues }
    set counted : Lane := { lane with counters := turn.counters }
    have hcounted : (issued.setLane index counted).setup other = v.setup other :=
      setup_setLane (v := issued) hlane counted rfl rfl rfl other
    simp only [View.drive]
    cases turn.move with
    | launch dispatch next =>
      exact (setup_setLane (setLane_lane_self issued index counted)
        { counted with inFlight := counted.inFlight + 1 } rfl rfl rfl other).trans hcounted
    | _ => exact hcounted
  | @publish _ _ lane dispatch outcome rest hstanding hlane =>
    exact setup_setLane (v := { v with standing := rest }) hlane
      { lane with counters := dispatch.count outcome lane.counters } rfl rfl rfl other
  | @release _ _ lane rest hstanding hlane =>
    exact setup_setLane (v := { v with standing := rest }) hlane
      { lane with inFlight := lane.inFlight - 1 } rfl rfl rfl other
  | @resume _ _ lane _ _ rest hstanding hlane =>
    exact setup_setLane (v := { v with standing := rest }) hlane
      { lane with inFlight := lane.inFlight - 1 } rfl rfl rfl other
  | _ => rfl

/-! ## Turns -/

/-- What a whole turn does: the turn of a driver is one step, any other a row of them. -/
def Turn : Option Nat → View → View → Prop
  | some index => Step (some index)
  | none => Relation.ReflTransGen (Step none)

/-- What the steps of a turn keep is kept by the turn. -/
theorem Turn.keeps {who : Option Nat} {P : View → Prop}
    (hkeeps : ∀ {u u'}, Orderly u → Step who u u' → P u → P u') {v v' : View}
    (horderly : Orderly v) (hturn : Turn who v v') (hP : P v) : Orderly v' ∧ P v' := by
  cases who with
  | some index => exact ⟨horderly.step hturn, hkeeps horderly hturn hP⟩
  | none =>
    change Relation.ReflTransGen (Step none) v v' at hturn
    induction hturn with
    | refl => exact ⟨horderly, hP⟩
    | tail _ hstep ih => exact ⟨ih.1.step hstep, hkeeps ih.1 hstep ih.2⟩

end TraceReplay.Replay.View
