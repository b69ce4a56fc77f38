import TraceReplay.Proofs.Replay.Conservation
import TraceReplay.Proofs.Replay.Upheld

/-!
# Labels of records

Records are labelled with the slot they belong to: both of a pair carry its ID, and the phase
is that of its step.  It does not matter whether the records were made up or came back from an
invocation, what the invoker wrote into them, or in which phase the driver was by then.
-/

namespace TraceReplay

namespace Driver

/-- The pair carries the ID of an issued slot and the phase of its step. -/
structure Plan.Labels (plan : Plan) (issue : Issue) (pair : RecordPair) : Prop where
  record : pair.record.invocationId =
    invocationId plan.function.name plan.configuration.granularity issue.step issue.slot
  job : pair.job.invocationId =
    invocationId plan.function.name plan.configuration.granularity issue.step issue.slot
  phase : pair.record.phase =
    if 0 < plan.configuration.loader.warmupDuration ∧
      issue.step ≤ plan.configuration.loader.warmupDuration then 1 else 2

/-- Only the steps up to the end of warmup belong to it, and none without warmup. -/
theorem Plan.phaseOf_eq_warmup {plan : Plan} {step : Nat} :
    plan.phaseOf step = .warmup ↔ 0 < plan.configuration.loader.warmupDuration ∧
      step ≤ plan.configuration.loader.warmupDuration := by
  simp only [Plan.phaseOf, ReplayConfiguration.withWarmup, decide_eq_true_iff,
    ite_eq_left_iff, reduceCtorEq, imp_false, not_not]

/-- After a step of execution no step belongs to warmup. -/
theorem Plan.phaseOf_of_le {plan : Plan} {step later : Nat} (hle : step ≤ later)
    (hphase : plan.phaseOf step = .execution) : plan.phaseOf later = .execution := by
  simp only [Plan.phaseOf, ite_eq_right_iff, reduceCtorEq, imp_false, not_and] at hphase ⊢
  exact fun hwarmup hlater => hphase hwarmup (hle.trans hlater)

theorem Plan.code_phaseOf (plan : Plan) (step : Nat) :
    (plan.phaseOf step).code =
      if 0 < plan.configuration.loader.warmupDuration ∧
        step ≤ plan.configuration.loader.warmupDuration then 1 else 2 := by
  simp only [← Plan.phaseOf_eq_warmup]
  cases plan.phaseOf step <;> rfl

variable {plan : Plan} {clock : Clock} {counters : Counters} {s : State} {point next : Point}

/-- What is launched is the slot that is issued. -/
theorem issue_of_launch {dispatch : Dispatch}
    (hmove : (turn plan clock counters point s).move = .launch dispatch next) :
    ∃ issue, (turn plan clock counters point s).issue = some issue ∧
      issue.dispatch = some dispatch := by
  rcases turn_issue_cases plan clock counters point s with
    ⟨-, hlaunch, -⟩ | ⟨due, other, hissue, hlaunch, -⟩ | ⟨_, -, hdeliver⟩
  · exact absurd hmove (hlaunch _ _)
  · obtain ⟨rfl, -⟩ := Move.launch.inj (hlaunch.symm.trans hmove)
    exact ⟨_, hissue, rfl⟩
  · rw [hdeliver] at hmove
    exact absurd hmove (by simp)

/-- Records that are made up are labelled with the slot that is issued. -/
theorem labels_of_deliver {pair : RecordPair}
    (hmove : (turn plan clock counters point s).move = .deliver pair next)
    (hphase : s.phase = plan.phaseOf s.step) :
    ∃ issue, (turn plan clock counters point s).issue = some issue ∧ plan.Labels issue pair := by
  obtain ⟨due, hstep, hsame, hissue, rfl⟩ := issue_of_deliver hmove
  refine ⟨_, hissue, rfl, rfl, ?_⟩
  have hdue : due.phase = plan.phaseOf due.step := by rw [hsame, hphase, hstep]
  exact (congrArg Phase.code hdue).trans (plan.code_phaseOf _)

/-- A slot goes to the invoker under its ID and in the phase of its step. -/
theorem Plan.dispatch_eq_some {phase : Phase} {requested : Option RuntimeSpecification}
    {step slot number : Nat} {dispatch : Dispatch}
    (hdispatch : plan.dispatch phase requested step slot number = some dispatch) :
    dispatch.invocationId =
        invocationId plan.function.name plan.configuration.granularity step slot ∧
      dispatch.phase = phase := by
  unfold Plan.dispatch at hdispatch
  split at hdispatch
  · split at hdispatch
    · exact absurd hdispatch (by simp)
    · obtain ⟨_, -, rfl⟩ := Option.map_eq_some_iff.mp hdispatch
      exact ⟨rfl, rfl⟩
  · exact absurd hdispatch (by simp)
  · exact absurd hdispatch (by simp)

end Driver

namespace Replay

open Driver (Issue Plan)

/-- What the task carries belongs to a slot that has been issued. -/
def Task.Labelled (plan : Plan) (issues : List Issue) : Task → Prop
  | .attempt _ dispatch => ∃ issue ∈ issues, issue.dispatch = some dispatch
  | .answered _ dispatch _ _ => ∃ issue ∈ issues, issue.dispatch = some dispatch
  | .conclude _ dispatch _ => ∃ issue ∈ issues, issue.dispatch = some dispatch
  | .storeRecord _ pair _ => ∃ issue ∈ issues, plan.Labels issue pair
  | .storeJob _ pair _ => ∃ issue ∈ issues, plan.Labels issue pair
  | _ => True

theorem Task.Labelled.mono {plan : Plan} {issues more : List Issue} (hsubset : issues ⊆ more)
    {task : Task} (hlabelled : task.Labelled plan issues) : task.Labelled plan more := by
  cases task with
  | attempt | answered | conclude | storeRecord | storeJob =>
    obtain ⟨issue, hmem, hissue⟩ := hlabelled
    exact ⟨issue, hsubset hmem, hissue⟩
  | _ => trivial

theorem View.AfterStore.labelled {index : Nat} {next : Task} (hnext : View.AfterStore index next)
    (plan : Plan) (issues : List Issue) : next.Labelled plan issues := by
  rcases hnext with rfl | ⟨s, rfl⟩ <;> trivial

namespace Track

variable {plan : Plan} {given : Specification} {index : Nat} {t t' : Track}

/-- A slot of the lane went to the invoker under its ID and in the phase of its step. -/
theorem Settled.labels (hsettled : t.Settled plan given) {issue : Issue}
    (hmem : issue ∈ t.issues) {dispatch : Dispatch} (hdispatch : issue.dispatch = some dispatch)
    (outcome : Outcome) : plan.Labels issue (dispatch.label outcome) := by
  obtain ⟨place, hplace⟩ := List.getElem?_of_mem hmem
  have hissue := hsettled.issues place issue hplace
  obtain ⟨hid, hphase⟩ := Plan.dispatch_eq_some
    ((congrArg Issue.dispatch hissue).symm.trans hdispatch)
  exact ⟨hid, hid, (congrArg Phase.code hphase).trans (plan.code_phaseOf _)⟩

/-- What is on its way in the lane is labelled with slots of the lane. -/
structure Labelled (plan : Plan) (given : Specification) (index : Nat) (t : Track) : Prop where
  serves : t.Serves plan given index
  phased : t.Upholds (Driver.phased plan)
  tasks : ∀ x ∈ t.standing, x.2.Labelled plan t.issues

/-- The driver asks for nothing that does not belong to the slot it issues. -/
theorem Labelled.drive (hlabelled : t.Labelled plan given index) {point : Driver.Point}
    {s : Driver.State} {rest : Standing}
    (hstanding : t.standing = (.ready, .drive index point s) ::ₘ rest) :
    ∀ x ∈ ({ t with standing := rest }.drive index
        (Driver.turn t.lane.plan t.clock t.lane.counters point s)).standing,
      x.2.Labelled plan (t.issues ++
        (Driver.turn t.lane.plan t.clock t.lane.counters point s).issue.toList) := by
  have hphase : s.phase = plan.phaseOf s.step := (hlabelled.phased.driver
    (.ready, .drive index point s) (by simp [hstanding]) index point s rfl).1
  have hrest : ∀ x ∈ rest, x.2.Labelled plan (t.issues ++
      (Driver.turn t.lane.plan t.clock t.lane.counters point s).issue.toList) := fun x hx =>
    (hlabelled.tasks x (by simp [hstanding, hx])).mono (List.subset_append_left _ _)
  intro x hx
  rw [hlabelled.phased.planned] at hx hrest ⊢
  simp only [Track.drive] at hx
  generalize hmove : (Driver.turn plan t.clock t.lane.counters point s).move = move at hx
  cases move with
  | launch dispatch next =>
    obtain ⟨issue, hissue, hdispatch⟩ := Driver.issue_of_launch hmove
    rcases Multiset.mem_cons.mp hx with rfl | hx
    · trivial
    · rcases Multiset.mem_cons.mp hx with rfl | hx
      · exact ⟨issue, by simp [hissue], hdispatch⟩
      · exact hrest x hx
  | deliver pair next =>
    obtain ⟨issue, hissue, hlabels⟩ := Driver.labels_of_deliver hmove hphase
    rcases Multiset.mem_cons.mp hx with rfl | hx
    · exact ⟨issue, by simp [hissue], hlabels⟩
    · exact hrest x hx
  | finish r => exact hrest x hx
  | fail error => exact hrest x hx
  | _ =>
    rcases Multiset.mem_cons.mp hx with rfl | hx
    · trivial
    · exact hrest x hx

/-- An invocation that goes on keeps its slot. -/
theorem labelled_of_proceeds {clock : Clock} {lane : Lane} {task : Task} {x : Place × Task}
    (hproceeds : View.Proceeds clock index lane task x) {issues : List Issue}
    (hlabelled : task.Labelled plan issues) : x.2.Labelled plan issues := by
  cases hproceeds <;> exact hlabelled

theorem Labelled.step (hlabelled : t.Labelled plan given index) (horderly : t.Orderly index)
    {own : Bool} (hstep : Step index own t t') : t'.Labelled plan given index := by
  have hmanned := hlabelled.serves.manned
  refine ⟨hlabelled.serves.step horderly hstep, hlabelled.phased.step hmanned horderly hstep, ?_⟩
  -- All tasks but the first stay where they are, and the issues stay what they are.
  have hreplace {x y : Place × Task} {rest : Standing} (hstanding : t.standing = x ::ₘ rest)
      (hy : x.2.Labelled plan t.issues → y.2.Labelled plan t.issues) :
      ∀ z ∈ y ::ₘ rest, z.2.Labelled plan t.issues := by
    intro z hz
    rcases Multiset.mem_cons.mp hz with rfl | hz
    · exact hy (hlabelled.tasks x (by simp [hstanding]))
    · exact hlabelled.tasks z (by simp [hstanding, hz])
  have hmap {f : Place × Task → Place × Task} (htask : ∀ x, (f x).2 = x.2) :
      ∀ z ∈ t.standing.map f, z.2.Labelled plan t.issues := by
    intro z hz
    obtain ⟨x, hx, rfl⟩ := Multiset.mem_map.mp hz
    rw [htask]
    exact hlabelled.tasks x hx
  cases hstep with
  | drive hstanding =>
    simp only [Track.drive, move_issues]
    exact hlabelled.drive hstanding
  | proceed hstanding hproceeds => exact hreplace hstanding (labelled_of_proceeds hproceeds)
  | answer hstanding => exact hreplace hstanding id
  | panic hstanding => exact hreplace hstanding fun _ => trivial
  | publish hstanding =>
    apply hreplace hstanding
    rintro ⟨issue, hmem, hdispatch⟩
    exact ⟨issue, hmem, hlabelled.serves.settled.labels hmem hdispatch _⟩
  | deliver hstanding _ hdelivers =>
    have hallowed := (horderly.first hstanding).1
    cases hdelivers with
    | record => exact hreplace hstanding id
    | job => exact hreplace hstanding fun _ => hallowed.2.labelled _ _
    | lost => exact hreplace hstanding fun _ => hallowed.2.labelled _ _
    | waits => exact hreplace hstanding id
  | release hstanding =>
    exact fun z hz => hlabelled.tasks z (by simp [hstanding, hz])
  | resume hstanding =>
    intro z hz
    rcases Multiset.mem_cons.mp hz with rfl | hz
    · trivial
    · exact hlabelled.tasks z (by simp [hstanding, hz])
  | rouse => exact hmap View.rouse_task
  | tick => exact hmap (View.wakeAt_task _)

/-- What a lane has issued stays issued. -/
theorem Step.issues_subset (horderly : t.Orderly index) {own : Bool} (hstep : Step index own t t') :
    t.issues ⊆ t'.issues := by
  cases own with
  | true =>
    cases hstep with
    | drive =>
      simp only [Track.drive, move_issues]
      exact List.subset_append_left _ _
  | false =>
    rw [(hstep.onward horderly).issues]
    exact List.Subset.refl _

end Track

namespace View

variable {v v' : View} {who : Option Nat} {starts : List Start} {first : Nat}

/-- The pair is labelled with a slot that one of the drivers has issued. -/
def Traces (v : View) (starts : List Start) (first : Nat) (pair : RecordPair) : Prop :=
  ∃ place start issue, starts[place]? = some start ∧ issue ∈ v.issuesOf (first + place) ∧
    start.plan.Labels issue pair

/-- All that has come to the collector, or is on its way in the lanes of some drivers, is
labelled with slots that these have issued. -/
structure Labelled (starts : List Start) (first : Nat) (v : View) : Prop where
  hears : v.Hears (List.range' first starts.length).toFinset
  lanes : ∀ place start, starts[place]? = some start → ∃ lane, v.lane (first + place) = some lane ∧
    (v.track (first + place) lane).Labelled start.plan start.specification (first + place)
  records : ∀ record ∈ v.records, ∃ pair, v.Traces starts first pair ∧ pair.record = record
  jobs : ∀ job ∈ v.jobs, ∃ pair, v.Traces starts first pair ∧ pair.job = job

/-- Only records that are delivered come to the collector, from lanes that it hears. -/
theorem collected_step (hstep : Step who v v') :
    v'.records = v.records ∧ v'.jobs = v.jobs ∨
    ∃ place index lane pair next, v.lane index = some lane ∧ lane.sinkOpen = true ∧
      ((place, .storeRecord index pair next) ∈ v.standing ∧
          v'.records = pair.record ::ₘ v.records ∧ v'.jobs = v.jobs ∨
        (place, .storeJob index pair next) ∈ v.standing ∧
          v'.records = v.records ∧ v'.jobs = pair.job ::ₘ v.jobs) := by
  cases hstep with
  | storeRecord hstanding _ hlane hsink =>
    exact .inr ⟨_, _, _, _, _, hlane, hsink,
      .inl ⟨hstanding ▸ Multiset.mem_cons_self _ _, rfl, rfl⟩⟩
  | storeJob hstanding _ hlane hsink =>
    exact .inr ⟨_, _, _, _, _, hlane, hsink,
      .inr ⟨hstanding ▸ Multiset.mem_cons_self _ _, rfl, rfl⟩⟩
  | @drive _ index point s lane =>
    left
    simp only [drive]
    cases (Driver.turn lane.plan v.clock lane.counters point s).move <;> exact ⟨rfl, rfl⟩
  | _ => exact .inl ⟨rfl, rfl⟩

namespace Labelled

/-- What a lane that is heard delivers is labelled. -/
theorem traces (hlabelled : v.Labelled starts first) {place : Place} {task : Task} {index : Nat}
    {lane : Lane} (hmem : (place, task) ∈ v.standing) (htask : task.lane? = some index)
    (hlane : v.lane index = some lane) (hsink : lane.sinkOpen = true) :
    ∃ at_ start, starts[at_]? = some start ∧
      task.Labelled start.plan (v.issuesOf (first + at_)) := by
  obtain ⟨hle, hlt⟩ : first ≤ index ∧ index < first + starts.length := by
    simpa using hlabelled.hears index lane hlane hsink
  obtain ⟨start, hstart⟩ : ∃ start, starts[index - first]? = some start :=
    ⟨_, List.getElem?_eq_getElem (by omega)⟩
  obtain ⟨own, -, hown⟩ := hlabelled.lanes _ start hstart
  have hindex : first + (index - first) = index := by omega
  rw [hindex] at hown
  refine ⟨index - first, start, hstart, ?_⟩
  rw [hindex]
  exact hown.tasks (place, task) (mem_ofLane.mpr ⟨hmem, htask⟩)

theorem step (hlabelled : v.Labelled starts first) (horderly : v.Orderly)
    (hstep : Step who v v') : v'.Labelled starts first := by
  have hlanes : ∀ place start, starts[place]? = some start →
      v.issuesOf (first + place) ⊆ v'.issuesOf (first + place) ∧
        ∃ lane, v'.lane (first + place) = some lane ∧ (v'.track (first + place) lane).Labelled
          start.plan start.specification (first + place) := by
    intro place start hstart
    obtain ⟨lane, hlane, hown⟩ := hlabelled.lanes place start hstart
    obtain ⟨lane', hlane', ⟨-, hturn⟩ | ⟨-, hother⟩⟩ := hstep.tracks horderly hlane
    · exact ⟨hturn.issues_subset (horderly.track _ _), lane', hlane',
        hown.step (horderly.track _ _) hturn⟩
    · rcases Relation.reflGen_iff _ _ _ |>.mp hother with hsame | hother
      · have hissues : v'.issuesOf (first + place) = v.issuesOf (first + place) :=
          congrArg Track.issues hsame
        exact ⟨hissues ▸ List.Subset.refl _, lane', hlane', hsame ▸ hown⟩
      · exact ⟨hother.issues_subset (horderly.track _ _), lane', hlane',
          hown.step (horderly.track _ _) hother⟩
  have hkeeps {pair : RecordPair} (htraces : v.Traces starts first pair) :
      v'.Traces starts first pair := by
    obtain ⟨place, start, issue, hstart, hmem, hlabels⟩ := htraces
    exact ⟨place, start, issue, hstart, (hlanes place start hstart).1 hmem, hlabels⟩
  have hrecords : ∀ record ∈ v.records,
      ∃ pair, v'.Traces starts first pair ∧ pair.record = record := fun record hmem =>
    (hlabelled.records record hmem).imp fun _ hpair => ⟨hkeeps hpair.1, hpair.2⟩
  have hjobs : ∀ job ∈ v.jobs, ∃ pair, v'.Traces starts first pair ∧ pair.job = job :=
    fun job hmem => (hlabelled.jobs job hmem).imp fun _ hpair => ⟨hkeeps hpair.1, hpair.2⟩
  have hcollected : (∀ record ∈ v'.records,
        ∃ pair, v'.Traces starts first pair ∧ pair.record = record) ∧
      ∀ job ∈ v'.jobs, ∃ pair, v'.Traces starts first pair ∧ pair.job = job := by
    rcases collected_step hstep with ⟨hsame, hsameJobs⟩ |
      ⟨place, index, lane, pair, next, hlane, hsink, hdelivers⟩
    · rw [hsame, hsameJobs]
      exact ⟨hrecords, hjobs⟩
    · have htraces {task : Task} (hmem : (place, task) ∈ v.standing)
          (htask : task.lane? = some index) (hpair : ∀ plan issues, task.Labelled plan issues →
            ∃ issue ∈ issues, plan.Labels issue pair) : v'.Traces starts first pair := by
        obtain ⟨at_, start, hstart, hown⟩ := hlabelled.traces hmem htask hlane hsink
        obtain ⟨issue, hissue, hlabels⟩ := hpair _ _ hown
        exact hkeeps ⟨at_, start, issue, hstart, hissue, hlabels⟩
      rcases hdelivers with ⟨hmem, hrecord, hsameJobs⟩ | ⟨hmem, hsame, hjob⟩
      · rw [hrecord, hsameJobs]
        refine ⟨fun record hrecord => ?_, hjobs⟩
        rcases Multiset.mem_cons.mp hrecord with rfl | hold
        · exact ⟨pair, htraces hmem rfl fun _ _ => id, rfl⟩
        · exact hrecords record hold
      · rw [hsame, hjob]
        refine ⟨hrecords, fun job hjob => ?_⟩
        rcases Multiset.mem_cons.mp hjob with rfl | hold
        · exact ⟨pair, htraces hmem rfl fun _ _ => id, rfl⟩
        · exact hjobs job hold
  exact ⟨hlabelled.hears.step hstep, fun place start hstart => (hlanes place start hstart).2,
    hcollected.1, hcollected.2⟩

end Labelled

end View

/-! ## Whole replays -/

/-- The driver of a lane is at some point. -/
def World.Drives (w : World) (index : Nat) (point : Driver.Point) (s : Driver.State) : Prop :=
  ∃ x ∈ w.view.standing, x.2.driving? = some (index, point, s)

/-- A driver stands in its lane. -/
theorem World.Drives.exists_mem {w : World} {index : Nat} {point : Driver.Point}
    {s : Driver.State} (hdrives : w.Drives index point s) (horderly : w.view.Orderly)
    (lane : Lane) :
    ∃ x ∈ (w.view.track index lane).standing, x.2.driving? = some (index, point, s) := by
  obtain ⟨⟨stands, task⟩, hx, hdriving⟩ := hdrives
  refine ⟨_, mem_ofLane.mpr ⟨hx, ?_⟩, hdriving⟩
  have hallowed := horderly.allowed _ hx
  have hafter {owner : Nat} {next : Task} (hnext : View.AfterStore owner next)
      (hdriving : next.driving? = some (index, point, s)) : owner = index := by
    rcases hnext with rfl | ⟨_, rfl⟩
    · exact absurd hdriving (by simp [Task.driving?])
    · exact (Prod.mk.inj (Option.some.inj hdriving)).1
  cases task with
  | drive => exact congrArg some (Prod.mk.inj (Option.some.inj hdriving)).1
  | storeRecord | storeJob => exact congrArg some (hafter hallowed.2 hdriving)
  | _ => exact absurd hdriving (by simp [Task.driving?])

section Replays

variable {w w' w'' : World} {starts : List Start} {place : Nat} {start : Start}

/-- The phase of a driver is that of its step, and a step that it has reached is not gone
back to. -/
theorem Sound.phase_drives (hsound : Sound w') {index : Nat} {plan : Plan}
    {given : Specification} (htrack : w'.HasTrack index fun t =>
      t.Serves plan given index ∧ t.Upholds (Driver.phased plan))
    {point next : Driver.Point} {s later : Driver.State} (hdrives : w'.Drives index point s)
    (hpasses : w'.Passes w'') (hlater : w''.Drives index next later) :
    s.phase = plan.phaseOf s.step ∧ s.step ≤ later.step := by
  obtain ⟨lane, hlane, hserves, hphased⟩ := htrack
  obtain ⟨x, hx, hdriving⟩ := hdrives.exists_mem hsound.orderly lane
  have honward : w'.HasTrack index fun t =>
      t.Serves plan given index ∧ t.Upholds (Driver.onward plan s.step) :=
    ⟨lane, hlane, hserves, hserves.upholds hx hdriving le_rfl⟩
  obtain ⟨lane', -, -, hupholds⟩ := hsound.upholds honward hpasses
  have hsound' : Sound w'' := (hsound.passes (P := fun _ => True) trivial
    (fun _ _ _ _ => trivial) hpasses).1
  obtain ⟨y, hy, hgoes⟩ := hlater.exists_mem hsound'.orderly lane'
  exact ⟨(hphased.driver x hx index point s hdriving).1,
    hupholds.driver y hy index next later hgoes⟩

/-- All that has come to the collector in a replay, or is on its way there, is labelled with
slots that have been issued. -/
theorem Attentive.view_labelled (hattentive : Attentive w)
    (hpasses : (w.startAll starts).Passes w') : w'.view.Labelled starts w.lanes.length := by
  obtain ⟨hfounded, -, hnew⟩ := hattentive.toFounded.startAll starts
  obtain ⟨hrecords, hjobs, -⟩ := w.startAll_records starts
  refine hfounded.toSound.view_passes
    (fun horderly hstep hlabelled => hlabelled.step horderly hstep) ?_ hpasses
  refine ⟨hattentive.hears_startAll starts, fun place start hstart => ?_, ?_, ?_⟩
  · obtain ⟨hlane, htrack⟩ := hnew place start hstart
    refine ⟨start.lane, hlane, ?_⟩
    rw [htrack]
    refine ⟨⟨start.track_manned _ _, start.track_settled _ _⟩,
      start.track_upholds _ _ (Driver.phased_begin _ _ _), fun x hx => ?_⟩
    obtain rfl := Multiset.mem_singleton.mp hx
    trivial
  · rw [hrecords, hattentive.noRecords]
    simp
  · rw [hjobs, hattentive.noJobs]
    simp

/-- Wherever a driver is in a replay its phase is that of its step, and from the execution
phase it does not go back.  With warmup the first step is left out.  Whatever its invocations
come to, and however late, each pair that is on its way in its lane is labelled with a slot of
the lane, and so is every record that has come to the collector. -/
theorem Attentive.records_labelled (hattentive : Attentive w) (hpasses : (w.startAll starts).Passes w') :
    (∀ place start, starts[place]? = some start →
      (∀ point s, w'.Drives (w.lanes.length + place) point s →
        (s.phase = .warmup ↔ 0 < start.plan.configuration.loader.warmupDuration ∧
          s.step ≤ start.plan.configuration.loader.warmupDuration) ∧
        ∀ w'' next later, w'.Passes w'' → w''.Drives (w.lanes.length + place) next later →
          s.phase = .execution → later.phase = .execution) ∧
      (0 < start.plan.configuration.loader.warmupDuration →
        ∀ issue ∈ w'.view.issuesOf (w.lanes.length + place), issue.step ≠ 0) ∧
      ∀ x ∈ w'.view.standing, x.2.lane? = some (w.lanes.length + place) →
        x.2.Labelled start.plan (w'.view.issuesOf (w.lanes.length + place))) ∧
    (∀ record ∈ w'.view.records, ∃ pair,
      w'.view.Traces starts w.lanes.length pair ∧ pair.record = record) ∧
    ∀ job ∈ w'.view.jobs, ∃ pair,
      w'.view.Traces starts w.lanes.length pair ∧ pair.job = job := by
  have hlabelled := hattentive.view_labelled hpasses
  have hsound := hattentive.toFounded.sound hpasses
  refine ⟨fun place start hstart => ?_, hlabelled.records, hlabelled.jobs⟩
  obtain ⟨lane, hlane, hown⟩ := hlabelled.lanes place start hstart
  have hphase {u u' : World} (hbefore : (w.startAll starts).Passes u) (hafter : u.Passes u')
      {point next : Driver.Point} {s later : Driver.State}
      (hdrives : u.Drives (w.lanes.length + place) point s)
      (hlater : u'.Drives (w.lanes.length + place) next later) :=
    (hattentive.toFounded.sound hbefore).phase_drives
      (hattentive.toFounded.upholds hstart hbefore (Driver.phased_begin _ _ _)) hdrives hafter
      hlater
  refine ⟨fun point s hdrives => ?_, fun hwarmup => ?_, fun x hx howns => ?_⟩
  · have hnow : s.phase = start.plan.phaseOf s.step := (hphase hpasses .refl hdrives hdrives).1
    refine ⟨hnow ▸ Driver.Plan.phaseOf_eq_warmup, fun w'' next later hon hlater hexecution => ?_⟩
    have hlate : later.phase = start.plan.phaseOf later.step :=
      (hphase (hpasses.trans hon) .refl hlater hlater).1
    rw [hlate]
    exact Driver.Plan.phaseOf_of_le (hphase hpasses hon hdrives hlater).2 (hnow ▸ hexecution)
  · obtain ⟨point, s, -, hlast⟩ := hown.phased.last
    exact fun issue hissue =>
      Nat.one_le_iff_ne_zero.mp ((hlast (decide_eq_true hwarmup)).2 issue hissue)
  · exact hown.tasks x (mem_ofLane.mpr ⟨hx, howns⟩)

end Replays

/-- A step for profiling, one of warmup and one of execution, with a slot each.  The
invocation of the second takes two minutes, and the invoker writes labels of its own. -/
def Start.warm : Start where
  plan := {
    index := 0
    function := { name := "f", invocationStats := [1, 1, 1] }
    siblings := []
    policy := .passThrough
    configuration := .ofLoader { experimentDuration := 1, warmupDuration := 1 } }
  context := { invoker := .scripted fun id => {
    delay := if id = "f-min1.inv0" then 120000 else 0
    record := fun record => { record with phase := 7, invocationId := "g" } } }
  specification := {
    gaps := [[250], [250], [250]], perStepCount := [1, 1, 1], rawDuration := []
    slots := List.replicate 3 [{ runtime := 100, memory := 64 }] }

/-- The record of the warmup step is the last to come, when its driver is in execution. -/
theorem records_labelled_warm :
    Attentive {} ∧
      (({} : World).startAll [.warm]).Passes (({} : World).startAll [.warm]).runToEnd ∧
      ((({} : World).startAll [.warm]).runToEnd.collector.records.map fun record =>
        (record.invocationId, record.phase)) = [("f-min1.inv0", 1), ("f-min2.inv0", 2)] ∧
      (∀ issue ∈ (({} : World).startAll [.warm]).runToEnd.view.issuesOf 0, issue.step ≠ 0) ∧
      ∀ record ∈ (({} : World).startAll [.warm]).runToEnd.view.records, ∃ pair,
        (({} : World).startAll [.warm]).runToEnd.view.Traces [.warm] 0 pair ∧
          pair.record = record := by
  have hpasses := World.runToEnd_passes (({} : World).startAll [.warm])
  obtain ⟨hlanes, hrecords, -⟩ := Attentive.empty.records_labelled hpasses
  exact ⟨Attentive.empty, hpasses, by decide +kernel, (hlanes 0 .warm rfl).2.1 Nat.one_pos,
    hrecords⟩

end Replay
end TraceReplay
