import TraceReplay.Proofs.Replay.Orderly

/-!
# Tracks

The track of a lane is what its own driver and invocations do in a replay: the part of
a view that belongs to the lane.  A step of the view is a step of the track or leaves
it alone, so what only concerns one lane can be shown as if there were no other.
-/

namespace TraceReplay.Replay

structure Track where
  clock : Clock
  lane : Lane
  standing : Standing
  /-- The oldest first. -/
  issues : List Driver.Issue
  finished : List Finish

namespace Track

def add (t : Track) (place : Place) (task : Task) : Track :=
  { t with standing := (place, task) ::ₘ t.standing }

/-- What the driver asks for. -/
def move (t : Track) (index : Nat) (s : Driver.State) : Driver.Move → Track
  | .proceed next => t.add .ready (.drive index next s)
  | .sleep micros next => t.add (.asleep (t.clock.wakeTime micros)) (.drive index next s)
  | .yield next => t.add .deferred (.drive index next s)
  | .deliver pair next => t.add .ready (.storeRecord index pair (.drive index next s))
  | .launch dispatch next =>
    (({ t with lane := { t.lane with inFlight := t.lane.inFlight + 1 } }.add .ready
      (.attempt index dispatch)).add .ready (.drive index next s))
  | .await next => t.add (if t.lane.inFlight = 0 then .ready else .held) (.drive index next s)
  | .finish report => { t with finished := ⟨index, t.clock.now, .ok report⟩ :: t.finished }
  | .fail error => { t with finished := ⟨index, t.clock.now, .error error⟩ :: t.finished }

/-- The turn of the driver. -/
def drive (t : Track) (index : Nat) (turn : Driver.Turn) : Track :=
  { t with
    lane := { t.lane with counters := turn.counters }
    issues := t.issues ++ turn.issue.toList }.move index turn.state turn.move

/-- A task that delivers records goes on with what is left of it, or waits for room. -/
inductive Delivers : Task → Place × Task → Prop
  | record {index pair next} :
      Delivers (.storeRecord index pair next) (.ready, .storeJob index pair next)
  | job {index pair next} : Delivers (.storeJob index pair next) (.ready, next)
  | lost {index pair next} : Delivers (.storeRecord index pair next) (.ready, next)
  | waits {task} (hstore : View.isStore task) : Delivers task (.held, task)

/-- Everything one turn can do to a track, of its driver or else. -/
inductive Step (index : Nat) : Bool → Track → Track → Prop
  | drive {t : Track} {point s rest}
      (hstanding : t.standing = (.ready, .drive index point s) ::ₘ rest) :
      Step index true t ({ t with standing := rest }.drive index
        (Driver.turn t.lane.plan t.clock t.lane.counters point s))
  | proceed {t : Track} {task x rest} (hstanding : t.standing = (.ready, task) ::ₘ rest)
      (hproceeds : View.Proceeds t.clock index t.lane task x) :
      Step index false t { t with standing := x ::ₘ rest }
  | answer {t : Track} {dispatch begin reply rest}
      (hstanding : t.standing = (.held, .answered index dispatch none begin) ::ₘ rest) :
      Step index false t { t with standing := (.ready, .answered index dispatch reply begin) ::ₘ rest }
  | panic {t : Track} {dispatch rest}
      (hstanding : t.standing = (.ready, .conclude index dispatch .panics) ::ₘ rest) :
      Step index false t { t with standing := (.ready, .release index) ::ₘ rest }
  | publish {t : Track} {dispatch outcome rest}
      (hstanding : t.standing = (.ready, .conclude index dispatch (.returns outcome)) ::ₘ rest) :
      Step index false t { t with
        lane := { t.lane with counters := dispatch.count outcome t.lane.counters }
        standing :=
          (.ready, .storeRecord index (dispatch.label outcome) (.release index)) ::ₘ rest }
  | deliver {t : Track} {place task x rest} (hstanding : t.standing = (place, task) ::ₘ rest)
      (hplace : place = .ready ∨ place = .held) (hdelivers : Delivers task x) :
      Step index false t { t with standing := x ::ₘ rest }
  | release {t : Track} {rest} (hstanding : t.standing = (.ready, .release index) ::ₘ rest)
      (hwaits : t.lane.inFlight - 1 = 0 → ∀ point s, (.held, .drive index point s) ∉ rest) :
      Step index false t { t with
        lane := { t.lane with inFlight := t.lane.inFlight - 1 }
        standing := rest }
  | resume {t : Track} {point s rest}
      (hstanding :
        t.standing = (.ready, .release index) ::ₘ (.held, .drive index point s) ::ₘ rest)
      (hlast : t.lane.inFlight - 1 = 0) :
      Step index false t { t with
        lane := { t.lane with inFlight := t.lane.inFlight - 1 }
        standing := (.ready, .drive index point s) ::ₘ rest }
  | rouse {t : Track} (hready : ∀ x ∈ t.standing, x.1 ≠ .ready) :
      Step index false t { t with standing := t.standing.map View.rouse }
  | tick {t : Track} {time : Nat} (hready : ∀ x ∈ t.standing, x.1 ≠ .ready)
      (hdeferred : ∀ x ∈ t.standing, x.1 ≠ .deferred)
      (hdue : ∀ x ∈ t.standing, ∀ due, x.1 = .asleep due → time ≤ due)
      (hstores : ∀ x ∈ t.standing, View.isStore x.2 = false) (hlater : t.clock.now < time) :
      Step index false t { t with
        clock := { t.clock with now := time }
        standing := t.standing.map (View.wakeAt time) }

@[simp]
theorem move_counters (t : Track) (index : Nat) (s : Driver.State) (move : Driver.Move) :
    (t.move index s move).lane.counters = t.lane.counters := by
  cases move <;> rfl

@[simp]
theorem move_plan (t : Track) (index : Nat) (s : Driver.State) (move : Driver.Move) :
    (t.move index s move).lane.plan = t.lane.plan := by
  cases move <;> rfl

@[simp]
theorem move_context (t : Track) (index : Nat) (s : Driver.State) (move : Driver.Move) :
    (t.move index s move).lane.context = t.lane.context := by
  cases move <;> rfl

@[simp]
theorem move_issues (t : Track) (index : Nat) (s : Driver.State) (move : Driver.Move) :
    (t.move index s move).issues = t.issues := by
  cases move <;> rfl

@[simp]
theorem move_clock (t : Track) (index : Nat) (s : Driver.State) (move : Driver.Move) :
    (t.move index s move).clock = t.clock := by
  cases move <;> rfl

end Track

/-- Tasks that belong to a lane. -/
def ofLane (index : Nat) (standing : Standing) : Standing :=
  standing.filter fun x => x.2.lane? = some index

section OfLane

variable {index : Nat}

@[simp]
theorem ofLane_cons {place : Place} {task : Task} (hlane : task.lane? = some index)
    (standing : Standing) :
    ofLane index ((place, task) ::ₘ standing) = (place, task) ::ₘ ofLane index standing :=
  Multiset.filter_cons_of_pos standing hlane

theorem ofLane_cons_other {place : Place} {task : Task} {other : Nat}
    (hlane : task.lane? = some other) (hne : other ≠ index) (standing : Standing) :
    ofLane index ((place, task) ::ₘ standing) = ofLane index standing :=
  Multiset.filter_cons_of_neg standing (by simp [hlane, hne])

theorem ofLane_map {f : Place × Task → Place × Task} (htask : ∀ x, (f x).2 = x.2)
    (standing : Standing) : ofLane index (standing.map f) = (ofLane index standing).map f := by
  rw [ofLane, Multiset.filter_map]
  refine congrArg (Multiset.map f) (Multiset.filter_congr fun x _ => ?_)
  simp [htask]

theorem mem_ofLane {standing : Standing} {x : Place × Task} :
    x ∈ ofLane index standing ↔ x ∈ standing ∧ x.2.lane? = some index :=
  Multiset.mem_filter

end OfLane

namespace View

def track (v : View) (index : Nat) (lane : Lane) : Track where
  clock := v.clock
  lane := lane
  standing := ofLane index v.standing
  issues := v.issuesOf index
  finished := v.finished.filter (·.lane = index)

theorem issuesOf_append (v : View) (index : Nat) (issue : Option Driver.Issue) :
    { v with issues := issue.toList.map (index, ·) ++ v.issues }.issuesOf index =
      v.issuesOf index ++ issue.toList := by
  cases issue <;> simp [issuesOf]

theorem issuesOf_append_other (v : View) {index other : Nat} (hne : other ≠ index)
    (issue : Option Driver.Issue) :
    { v with issues := issue.toList.map (other, ·) ++ v.issues }.issuesOf index =
      v.issuesOf index := by
  cases issue <;> simp [issuesOf, hne]

section Moves

variable {v : View} {index other : Nat} {lane : Lane}

/-- A task of the lane that is added to the view is added to the track. -/
theorem track_add (v : View) (lane : Lane) (place : Place) {task : Task}
    (htask : task.lane? = some index) :
    (v.add place task).track index lane = (v.track index lane).add place task := by
  simp only [track, Track.add, add, ofLane_cons htask]
  rfl

theorem track_add_other (v : View) (lane : Lane) (place : Place) {task : Task}
    (htask : task.lane? = some other) (hne : other ≠ index) :
    (v.add place task).track index lane = v.track index lane := by
  simp only [track, add, ofLane_cons_other htask hne]
  rfl

theorem track_move (hlane : v.lane index = some lane) (s : Driver.State) (move : Driver.Move) :
    ∃ lane', (v.move index lane s move).lane index = some lane' ∧
      (v.move index lane s move).track index lane' = (v.track index lane).move index s move := by
  cases move with
  | proceed next => exact ⟨lane, hlane, track_add v lane _ rfl⟩
  | sleep micros next => exact ⟨lane, hlane, track_add v lane _ rfl⟩
  | yield next => exact ⟨lane, hlane, track_add v lane _ rfl⟩
  | deliver pair next => exact ⟨lane, hlane, track_add v lane _ rfl⟩
  | launch dispatch next =>
    refine ⟨_, setLane_lane_self v index _, ?_⟩
    simp only [View.move, Track.move]
    rw [track_add _ _ _ rfl, track_add _ _ _ rfl]
    rfl
  | await next => exact ⟨lane, hlane, track_add v lane _ rfl⟩
  | finish report =>
    refine ⟨lane, hlane, ?_⟩
    simp only [View.move, Track.move, track, List.filter_cons_of_pos, decide_true]
    rfl
  | fail error =>
    refine ⟨lane, hlane, ?_⟩
    simp only [View.move, Track.move, track, List.filter_cons_of_pos, decide_true]
    rfl

theorem track_move_other (hne : other ≠ index) (lane mover : Lane) (s : Driver.State)
    (move : Driver.Move) :
    (v.move other mover s move).lane index = v.lane index ∧
      (v.move other mover s move).track index lane = v.track index lane := by
  cases move with
  | proceed next => exact ⟨rfl, track_add_other v lane _ rfl hne⟩
  | sleep micros next => exact ⟨rfl, track_add_other v lane _ rfl hne⟩
  | yield next => exact ⟨rfl, track_add_other v lane _ rfl hne⟩
  | deliver pair next => exact ⟨rfl, track_add_other v lane _ rfl hne⟩
  | launch dispatch next =>
    refine ⟨setLane_lane_ne v _ hne.symm, ?_⟩
    simp only [View.move]
    rw [track_add_other _ _ _ rfl hne, track_add_other _ _ _ rfl hne]
    rfl
  | await next => exact ⟨rfl, track_add_other v lane _ rfl hne⟩
  | finish report => exact ⟨rfl, by simp [View.move, track, hne, issuesOf]⟩
  | fail error => exact ⟨rfl, by simp [View.move, track, hne, issuesOf]⟩

end Moves

theorem track_first {v : View} {index : Nat} (lane : Lane) {place : Place} {task : Task}
    {rest : Standing} (hstanding : v.standing = (place, task) ::ₘ rest)
    (htask : task.lane? = some index) :
    (v.track index lane).standing = (place, task) ::ₘ ofLane index rest := by
  simp only [track, hstanding, ofLane_cons htask]

theorem ofLane_first_other {v : View} {index owner : Nat} {place : Place} {task : Task}
    {rest : Standing} (hstanding : v.standing = (place, task) ::ₘ rest)
    (htask : task.lane? = some owner) (hne : owner ≠ index) :
    ofLane index v.standing = ofLane index rest := by
  rw [hstanding, ofLane_cons_other htask hne]

/-- What a step is for the track of a lane: the turn of its driver, or something else. -/
def Tracks (who : Option Nat) (index : Nat) (lane : Lane) (v v' : View) : Prop :=
  ∃ lane', v'.lane index = some lane' ∧
    (who = some index ∧ Track.Step index true (v.track index lane) (v'.track index lane') ∨
      who ≠ some index ∧ Relation.ReflGen (Track.Step index false) (v.track index lane)
        (v'.track index lane'))

theorem Tracks.same {who : Option Nat} {index : Nat} {lane : Lane} {v v' : View}
    (hlane : v'.lane index = some lane) (hwho : who ≠ some index)
    (hsame : v'.track index lane = v.track index lane) : Tracks who index lane v v' :=
  ⟨lane, hlane, .inr ⟨hwho, by rw [hsame]⟩⟩

theorem Tracks.step {index : Nat} {lane lane' : Lane} {v v' : View}
    (hlane : v'.lane index = some lane')
    (hstep : Track.Step index false (v.track index lane) (v'.track index lane')) :
    Tracks none index lane v v' :=
  ⟨lane', hlane, .inr ⟨by simp, .single hstep⟩⟩

/-- A step of one lane leaves the others alone. -/
theorem tracks_owner {who : Option Nat} {index owner : Nat} {lane mover : Lane} {v v' : View}
    (hlane : v.lane index = some lane) (hmover : v.lane owner = some mover)
    (hown : Tracks who owner mover v v') (hwho : owner ≠ index → who ≠ some index)
    (hothers : owner ≠ index →
      v'.lane index = v.lane index ∧ v'.track index lane = v.track index lane) :
    Tracks who index lane v v' := by
  by_cases hne : owner = index
  · subst hne
    obtain rfl : mover = lane := Option.some.inj (hmover.symm.trans hlane)
    exact hown
  · obtain ⟨hsame, htrack⟩ := hothers hne
    exact .same (hsame.trans hlane) (hwho hne) htrack

/-- A step that puts one task of a lane in the place of another. -/
theorem tracks_replace {v v' : View} {index owner : Nat} {lane : Lane} {x y : Place × Task}
    {rest : Standing} (hlane : v'.lane index = some lane) (hstanding : v.standing = x ::ₘ rest)
    (hx : x.2.lane? = some owner) (hy : y.2.lane? = some owner)
    (hstanding' : v'.standing = y ::ₘ rest) (hclock : v'.clock = v.clock)
    (hissues : v'.issues = v.issues) (hfinished : v'.finished = v.finished)
    (hown : owner = index → (v.track index lane).standing = x ::ₘ ofLane index rest →
      Track.Step index false (v.track index lane)
        { v.track index lane with standing := y ::ₘ ofLane index rest }) :
    Tracks none index lane v v' := by
  by_cases hne : owner = index
  · subst hne
    have hnew : v'.track owner lane =
        { v.track owner lane with standing := y ::ₘ ofLane owner rest } := by
      simp only [View.track, issuesOf, hstanding', ofLane_cons hy, hclock, hissues, hfinished]
    refine .step hlane ?_
    rw [hnew]
    exact hown rfl (by simp only [View.track, hstanding, ofLane_cons hx])
  · refine .same hlane (by simp) ?_
    simp only [View.track, issuesOf, hstanding, hstanding', ofLane_cons_other hx hne,
      ofLane_cons_other hy hne, hclock, hissues, hfinished]

section Own

variable {v : View} {index owner : Nat} {lane mover : Lane}

/-- The turn of a driver is a step of its own track. -/
theorem tracks_drive_own {point : Driver.Point} {s : Driver.State} {rest : Standing}
    (hstanding : v.standing = (.ready, .drive owner point s) ::ₘ rest) :
    Tracks (some owner) owner mover v ({ v with standing := rest }.drive owner mover
      (Driver.turn mover.plan v.clock mover.counters point s)) := by
  set turn := Driver.turn mover.plan v.clock mover.counters point s
  set issued : View := { v with
    standing := rest
    issues := turn.issue.toList.map (owner, ·) ++ v.issues }
  obtain ⟨lane', hlane', htrack⟩ := track_move
    (setLane_lane_self issued owner { mover with counters := turn.counters })
    turn.state turn.move
  refine ⟨lane', hlane', .inl ⟨rfl, ?_⟩⟩
  have hstep := Track.Step.drive (track_first mover hstanding rfl)
  have hissued : issued.issuesOf owner = v.issuesOf owner ++ turn.issue.toList :=
    issuesOf_append v owner turn.issue
  convert hstep using 1
  refine htrack.trans ?_
  simp only [Track.drive, View.track, setLane, issuesOf] at hissued ⊢
  rw [hissued]

/-- The turn of a driver changes nothing in other lanes. -/
theorem track_drive_other (hne : owner ≠ index) {point : Driver.Point} {s : Driver.State}
    {rest : Standing} (hstanding : v.standing = (.ready, .drive owner point s) ::ₘ rest)
    (turn : Driver.Turn) :
    ({ v with standing := rest }.drive owner mover turn).lane index = v.lane index ∧
      ({ v with standing := rest }.drive owner mover turn).track index lane =
        v.track index lane := by
  obtain ⟨hsame, htrack⟩ := track_move_other hne lane { mover with counters := turn.counters }
    turn.state turn.move
    (v := { v with
      standing := rest
      issues := turn.issue.toList.map (owner, ·) ++ v.issues }.setLane owner
        { mover with counters := turn.counters })
  refine ⟨hsame.trans (setLane_lane_ne _ _ (Ne.symm hne)), htrack.trans ?_⟩
  have hissued := issuesOf_append_other v hne turn.issue
  simp only [View.track, setLane, issuesOf] at hissued ⊢
  rw [hissued, ofLane_first_other hstanding rfl hne]

/-- A lane that is set, and a task of it that is gone, are no matter of other lanes. -/
theorem track_setLane_other (lane : Lane) (hne : owner ≠ index) {place : Place} {task : Task}
    {rest : Standing} (hstanding : v.standing = (place, task) ::ₘ rest)
    (htask : task.lane? = some owner) (next : Lane) :
    ({ v with standing := rest }.setLane owner next).lane index = v.lane index ∧
      ({ v with standing := rest }.setLane owner next).track index lane = v.track index lane := by
  refine ⟨setLane_lane_ne _ _ (Ne.symm hne), ?_⟩
  simp only [View.track, setLane, issuesOf, ofLane_first_other hstanding htask hne]

end Own

/-- A step of a view is a step of the track of a lane or leaves it alone. -/
theorem Step.tracks {v v' : View} (horderly : Orderly v) {who : Option Nat} (hstep : Step who v v')
    {index : Nat} {lane : Lane} (hlane : v.lane index = some lane) :
    Tracks who index lane v v' := by
  cases hstep with
  | drive hstanding hmover =>
    exact tracks_owner hlane hmover (tracks_drive_own hstanding) (by simp)
      fun hne => track_drive_other hne hstanding _
  | proceed hstanding hmover hproceeds =>
    obtain ⟨htask, hx, -⟩ := hproceeds.orderly
    refine tracks_replace hlane hstanding htask hx rfl rfl rfl rfl fun howner hown => ?_
    subst howner
    obtain rfl := Option.some.inj (hmover.symm.trans hlane)
    exact .proceed hown hproceeds
  | answer hstanding =>
    refine tracks_replace hlane hstanding rfl rfl rfl rfl rfl rfl fun howner hown => ?_
    subst howner
    exact .answer hown
  | panic hstanding =>
    refine tracks_replace hlane hstanding rfl rfl rfl rfl rfl rfl fun howner hown => ?_
    subst howner
    exact .panic hown
  | @publish _ owner mover dispatch outcome rest hstanding hmover =>
    refine tracks_owner hlane hmover (.step (setLane_lane_self _ owner _) ?_) (by simp)
      fun hne => ?_
    · rw [track_add _ _ _ rfl]
      exact .publish (track_first mover hstanding rfl)
    · rw [track_add_other _ _ _ rfl hne]
      exact track_setLane_other lane hne hstanding rfl _
  | storeRecord hstanding hplace =>
    refine tracks_replace hlane hstanding rfl rfl rfl rfl rfl rfl fun howner hown => ?_
    exact .deliver hown hplace .record
  | storeJob hstanding hplace =>
    have hnext := (horderly.first hstanding).2
    refine tracks_replace hlane hstanding rfl hnext.lane? rfl rfl rfl rfl fun howner hown => ?_
    exact .deliver hown hplace .job
  | @queue _ task rest hstanding hstore =>
    obtain ⟨owner, howner⟩ : ∃ owner, task.lane? = some owner := by
      cases task with
      | storeRecord owner => exact ⟨owner, rfl⟩
      | storeJob owner => exact ⟨owner, rfl⟩
      | _ => exact absurd hstore (by simp [isStore])
    refine tracks_replace hlane hstanding howner howner rfl rfl rfl rfl fun _ hown => ?_
    exact .deliver hown (.inl rfl) (.waits hstore)
  | loseRecord hstanding =>
    have hnext := (horderly.first hstanding).2
    refine tracks_replace hlane hstanding rfl hnext.lane? rfl rfl rfl rfl fun howner hown => ?_
    exact .deliver hown (.inl rfl) .lost
  | loseJob hstanding =>
    have hnext := (horderly.first hstanding).2
    refine tracks_replace hlane hstanding rfl hnext.lane? rfl rfl rfl rfl fun howner hown => ?_
    exact .deliver hown (.inl rfl) .job
  | @release _ owner mover rest hstanding hmover hwaits =>
    refine tracks_owner hlane hmover (.step (setLane_lane_self _ owner _) ?_) (by simp)
      fun hne => track_setLane_other lane hne hstanding rfl _
    exact .release (track_first mover hstanding rfl) fun hlast point s hmem =>
      hwaits hlast point s (mem_ofLane.mp hmem).1
  | @resume _ owner mover point s rest hstanding hmover hlast =>
    refine tracks_owner hlane hmover (.step (setLane_lane_self _ owner _) ?_) (by simp)
      fun hne => ?_
    · rw [track_add _ _ _ rfl]
      have hown := track_first mover hstanding rfl
      rw [ofLane_cons rfl] at hown
      exact .resume hown hlast
    · rw [track_add_other _ _ _ rfl hne]
      obtain ⟨hsame, htrack⟩ := track_setLane_other lane hne hstanding rfl
        { mover with inFlight := mover.inFlight - 1 }
      exact ⟨hsame, (track_add_other _ lane .held rfl hne).symm.trans htrack⟩
  | rouse hready =>
    refine .step hlane ?_
    have hrouse : Track.Step index false (v.track index lane) { v.track index lane with
        standing := (v.track index lane).standing.map View.rouse } :=
      .rouse fun x hx => hready x (mem_ofLane.mp hx).1
    convert hrouse using 1
    simp only [View.track, ofLane_map rouse_task]
    rfl
  | @tick _ time hready hdeferred hdue hstores hlater =>
    refine .step hlane ?_
    have htick : Track.Step index false (v.track index lane) { v.track index lane with
        clock := { v.clock with now := time }
        standing := (v.track index lane).standing.map (View.wakeAt time) } :=
      .tick (fun x hx => hready x (mem_ofLane.mp hx).1)
        (fun x hx => hdeferred x (mem_ofLane.mp hx).1)
        (fun x hx => hdue x (mem_ofLane.mp hx).1)
        (fun x hx => hstores x (mem_ofLane.mp hx).1) hlater
    convert htick using 1
    simp only [View.track, ofLane_map (wakeAt_task time)]
    rfl

/-- What the track of a lane has is kept by whole turns, if steps of the track keep it. -/
theorem Turn.track {P : Track → Prop} {index : Nat} {who : Option Nat} {v v' : View}
    (horderly : Orderly v) (hturn : Turn who v v') {lane : Lane}
    (hlane : v.lane index = some lane) (hP : P (v.track index lane))
    (hdrive : who = some index → ∀ t', Track.Step index true (v.track index lane) t' → P t')
    (hpass : ∀ {u : View} {mid t'}, Orderly u → P (u.track index mid) →
      Track.Step index false (u.track index mid) t' → P t') :
    ∃ lane', v'.lane index = some lane' ∧ P (v'.track index lane') := by
  have hothers {u u' : View} {mid mid' : Lane} (horderly : Orderly u)
      (hP : P (u.track index mid))
      (hsteps : Relation.ReflGen (Track.Step index false) (u.track index mid)
        (u'.track index mid')) : P (u'.track index mid') := by
    generalize u'.track index mid' = t' at hsteps
    cases hsteps with
    | refl => exact hP
    | single hstep => exact hpass horderly hP hstep
  cases who with
  | some other =>
    obtain ⟨lane', hlane', ⟨hwho, hstep⟩ | ⟨-, hsteps⟩⟩ := Step.tracks horderly hturn hlane
    · exact ⟨lane', hlane', hdrive hwho _ hstep⟩
    · exact ⟨lane', hlane', hothers horderly hP hsteps⟩
  | none =>
    refine (hturn.keeps (P := fun u => ∃ mid, u.lane index = some mid ∧ P (u.track index mid))
      (fun horderly hstep ⟨mid, hmid, hP⟩ => ?_) horderly ⟨lane, hlane, hP⟩).2
    obtain ⟨mid', hmid', ⟨hwho, -⟩ | ⟨-, hsteps⟩⟩ := hstep.tracks horderly hmid
    · exact absurd hwho (by simp)
    · exact ⟨mid', hmid', hothers horderly hP hsteps⟩

end View
end TraceReplay.Replay
