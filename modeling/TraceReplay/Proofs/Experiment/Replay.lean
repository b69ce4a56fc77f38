import TraceReplay.Proofs.Experiment.Preparation
import TraceReplay.Proofs.Replay.Ended

/-!
# The replay of a run

A run that succeeds has started a driver for each of its assignments and let the world go
on until all of them had ended, none with an error.  The collector was then told how many
records to expect, and had them.
-/

namespace TraceReplay

/-! ## Assignments -/

/-- Only functions that are there are assigned to drivers. -/
theorem index_of_assignDrivers {functions : List Function} {grouping : SiblingGrouping}
    {assignment : Assignment} (hmem : assignment ∈ assignDrivers functions grouping) :
    ∃ f, functions[assignment.index]? = some f := by
  have hplace {f : Function} {index : Nat} (hmem : (f, index) ∈ functions.zipIdx) :
      functions[index]? = some f := List.mem_zipIdx_iff_getElem?.mp hmem
  cases grouping with
  | all =>
    obtain ⟨⟨f, index⟩, hindex, rfl⟩ := List.mem_map.mp hmem
    exact ⟨f, hplace hindex⟩
  | gpuVariants | serverfulCopies =>
    obtain ⟨⟨f, index⟩, hindex, hassigned⟩ := List.mem_filterMap.mp hmem
    simp only [Option.ite_none_right_eq_some, Option.some.injEq] at hassigned
    obtain ⟨-, rfl⟩ := hassigned
    exact ⟨f, hplace hindex⟩

/-- What is picked from a list is in its order. -/
theorem sublist_map_filterMap {α β γ : Type} {f : α → Option β} {g : β → γ} {h : α → γ}
    (hsame : ∀ x y, f x = some y → g y = h x) (xs : List α) :
    ((xs.filterMap f).map g).Sublist (xs.map h) := by
  induction xs with
  | nil => exact .slnil
  | cons x xs ih =>
    cases hx : f x with
    | none =>
      rw [List.filterMap_cons_none hx]
      exact ih.cons _
    | some y =>
      rw [List.filterMap_cons_some hx, List.map_cons, List.map_cons, hsame x y hx]
      exact ih.cons_cons _

/-- Drivers are assigned in the order of their functions, to none of them twice. -/
theorem sublist_assignDrivers (functions : List Function) (grouping : SiblingGrouping) :
    ((assignDrivers functions grouping).map (·.index)).Sublist
      (List.range' 0 functions.length) := by
  rw [← List.zipIdx_map_snd]
  cases grouping with
  | all =>
    rw [assignDrivers, List.map_map]
    exact List.Sublist.refl _
  | gpuVariants | serverfulCopies =>
    refine sublist_map_filterMap (fun x assignment hassigned => ?_) _
    simp only [Option.ite_none_right_eq_some, Option.some.injEq] at hassigned
    rw [← hassigned.2]

namespace Replay.World

/-- The world with an empty collector, of whose lanes nobody hears any more. -/
def renewed (w : World) : World :=
  { w with
    lanes := w.lanes.map fun lane => { lane with sinkOpen := false }
    records := { capacity := recordCapacity }
    jobs := { capacity := recordCapacity }
    collector := {}, recordTimes := [], jobTimes := [], finished := [] }

end Replay.World

namespace Experiment

open Replay (Driverless Ended World Start Track Unmanned)
open Trial

/-! ## Drivers -/

/-- What the driver of an assignment is started with. -/
def startOf? (e : Experiment) (hasAdmission : Bool) (assignment : Assignment) : Option Start :=
  e.functions[assignment.index]?.map fun f => {
    plan := {
      index := assignment.index, function := f, siblings := assignment.siblings
      policy := e.policy, configuration := e.configuration }
    context := {
      invoker := e.invoker, promptFunctions := e.promptFunctions, hasAdmission := hasAdmission }
    specification := e.specifications.getD assignment.index .empty }

/-- The drivers of an experiment, in the order in which they are started. -/
def starts (e : Experiment) (hasAdmission : Bool) : List Start :=
  (assignDrivers e.functions e.policy.grouping).filterMap (e.startOf? hasAdmission)

theorem isSome_startOf? {e : Experiment} {hasAdmission : Bool} {assignment : Assignment}
    (hmem : assignment ∈ assignDrivers e.functions e.policy.grouping) :
    (e.startOf? hasAdmission assignment).isSome := by
  obtain ⟨f, hf⟩ := index_of_assignDrivers hmem
  simp [startOf?, hf]

theorem length_starts (e : Experiment) (hasAdmission : Bool) :
    (e.starts hasAdmission).length = (assignDrivers e.functions e.policy.grouping).length := by
  rw [starts, List.filterMap_length_eq_length]
  exact fun assignment hmem => isSome_startOf? hmem

theorem getElem?_filterMap {α β : Type} {f : α → Option β} {xs : List α}
    (hall : ∀ x ∈ xs, (f x).isSome) (place : Nat) :
    (xs.filterMap f)[place]? = xs[place]?.bind f := by
  induction xs generalizing place with
  | nil => simp
  | cons x xs ih =>
    obtain ⟨y, hy⟩ := Option.isSome_iff_exists.mp (hall x List.mem_cons_self)
    rw [List.filterMap_cons_some hy]
    cases place with
    | zero => simp [hy]
    | succ place => exact ih (fun x hmem => hall x (List.mem_cons_of_mem _ hmem)) place

/-- Drivers are started in the order of their assignments. -/
theorem getElem?_starts (e : Experiment) (hasAdmission : Bool) (place : Nat) :
    (e.starts hasAdmission)[place]? =
      (assignDrivers e.functions e.policy.grouping)[place]?.bind (e.startOf? hasAdmission) := by
  rw [starts]
  exact getElem?_filterMap (fun assignment hmem => isSome_startOf? hmem) place

/-- The drivers of a fitted experiment have specifications that fit. -/
theorem Fitted.validate {e : Experiment} (hfitted : e.Fitted) {hasAdmission : Bool}
    {start : Start} (hmem : start ∈ e.starts hasAdmission) :
    start.specification.validate start.plan.function = .ok () := by
  obtain ⟨assignment, -, hstart⟩ := List.mem_filterMap.mp hmem
  obtain ⟨f, hf, rfl⟩ := Option.map_eq_some_iff.mp hstart
  exact hfitted.specification hf

/-- Drivers started one by one, where an assignment has one, are started together. -/
theorem foldl_eq_startAll {begin : World → Assignment → World}
    {startOf : Assignment → Option Start}
    (hnone : ∀ w assignment, startOf assignment = none → begin w assignment = w)
    (hsome : ∀ w assignment start, startOf assignment = some start →
      begin w assignment = w.begun start)
    (assignments : List Assignment) (w : World) :
    assignments.foldl begin w = w.startAll (assignments.filterMap startOf) := by
  induction assignments generalizing w with
  | nil => rfl
  | cons assignment assignments ih =>
    rw [List.foldl_cons, ih]
    cases hstart : startOf assignment with
    | none => rw [hnone w assignment hstart, List.filterMap_cons_none hstart]
    | some start =>
      rw [hsome w assignment start hstart, List.filterMap_cons_some hstart]
      rfl

variable {p q : Progress} {u : Unit}

theorem startDrivers_gives {drivers : Nat} (hgives : startDrivers.Gives p drivers q) :
    drivers = (p.experiment.starts p.site.world.link.isSome).length ∧
      q.site.world =
        p.site.world.renewed.startAll (p.experiment.starts p.site.world.link.isSome) ∧
      q.site.files = p.site.files ∧
      ∃ specifications, q.experiment = { p.experiment with specifications := specifications } := by
  unfold startDrivers at hgives
  simp only [gives_bind, gives_experiment, gives_world, gives_setWorld, gives_setExperiment,
    gives_pure, and_assoc, exists_and_left, exists_eq_left] at hgives
  obtain ⟨rfl, _, _, rfl⟩ := hgives
  refine ⟨(length_starts _ _).symm, ?_, rfl, _, rfl⟩
  refine foldl_eq_startAll (fun w assignment hstart => ?_) (fun w assignment start hstart => ?_) _ _
  · rw [startOf?, Option.map_eq_none_iff] at hstart
    simp only [hstart]
  · obtain ⟨f, hf, rfl⟩ := Option.map_eq_some_iff.mp hstart
    simp only [hf]
    rfl

/-! ## Reports of drivers -/

/-- Some reports have been settled: nothing but the specifications has changed. -/
structure Settled (p q : Progress) : Prop where
  world : ∃ notices, q.site.world = p.site.world.report notices
  files : q.site.files = p.site.files
  experiment : ∃ specifications,
    q.experiment = { p.experiment with specifications := specifications }

namespace Settled

@[refl]
theorem refl (p : Progress) : Settled p p := ⟨⟨[], rfl⟩, rfl, _, rfl⟩

theorem trans {mid : Progress} (hfirst : Settled p mid) (hsecond : Settled mid q) :
    Settled p q := by
  obtain ⟨first, hfirstWorld⟩ := hfirst.world
  obtain ⟨second, hsecondWorld⟩ := hsecond.world
  obtain ⟨_, hfirstExperiment⟩ := hfirst.experiment
  obtain ⟨specifications, hsecondExperiment⟩ := hsecond.experiment
  refine ⟨⟨first ++ second, ?_⟩, hsecond.files.trans hfirst.files, specifications, ?_⟩
  · simp [hsecondWorld, hfirstWorld, World.report]
  · rw [hsecondExperiment, hfirstExperiment]

theorem configuration (hsettled : Settled p q) :
    q.experiment.configuration = p.experiment.configuration := by
  obtain ⟨_, hexperiment⟩ := hsettled.experiment
  rw [hexperiment]

end Settled

theorem settle_gives {r : Driver.Report} (hgives : (settle r).Gives p u q) : Settled p q := by
  unfold settle at hgives
  simp only at hgives
  split at hgives
  · simp only [gives_bind, gives_report, gives_experiment, gives_setExperiment, and_assoc,
      exists_and_left, exists_eq_left] at hgives
    obtain ⟨_, rfl⟩ := hgives
    exact ⟨⟨_, rfl⟩, rfl, _, rfl⟩
  · simp only [gives_bind, gives_experiment, gives_setExperiment, and_assoc, exists_and_left,
      exists_eq_left] at hgives
    subst hgives
    exact ⟨⟨[], rfl⟩, rfl, _, rfl⟩

/-- What the ends of some drivers come to: the error of one of them, or none. -/
def Outcome (finishes : List Replay.Finish) : Option ReplayError → Prop
  | none => ∀ finish ∈ finishes, ∃ r, finish.result = .ok r
  | some error => ∃ finish ∈ finishes, finish.result = .error error

theorem settleAll_gives {finishes : List Replay.Finish} {outcome : Option ReplayError}
    (hgives : (settleAll finishes).Gives p outcome q) : Outcome finishes outcome ∧ Settled p q := by
  induction finishes generalizing p with
  | nil =>
    obtain ⟨rfl, rfl⟩ := gives_pure.mp hgives
    exact ⟨by simp [Outcome], .refl _⟩
  | cons finish finishes ih =>
    rw [settleAll] at hgives
    split at hgives
    · rename_i r hresult
      rw [gives_bind] at hgives
      obtain ⟨_, mid, hsettle, hrest⟩ := hgives
      obtain ⟨houtcome, hkept⟩ := ih hrest
      refine ⟨?_, (settle_gives hsettle).trans hkept⟩
      cases outcome with
      | none => exact List.forall_mem_cons.mpr ⟨⟨r, hresult⟩, houtcome⟩
      | some error => exact List.exists_mem_cons_of_exists houtcome
    · rename_i error hresult
      obtain ⟨rfl, rfl⟩ := gives_pure.mp hgives
      exact ⟨⟨finish, List.mem_cons_self, hresult⟩, .refl _⟩

/-! ## Time that passes -/

/-- Some time has passed.  Where nobody is driven it was enough time, and nobody is ready when it
has passed who was not ready before. -/
structure Waited (p : Progress) (time : Nat) (q : Progress) : Prop where
  experiment : q.experiment = p.experiment
  files : q.site.files = p.site.files
  rests : p.site.world.Rests q.site.world
  late : Driverless p.site.world → time ≤ q.site.world.clock.now
  ready : Driverless p.site.world → p.site.world.ready = [] → q.site.world.ready = []

theorem passUntil_succeeds (time : Nat) (p : Progress) : (passUntil time).Succeeds p := by
  unfold passUntil Succeeds
  simp only [gives_bind, gives_world, and_assoc, exists_and_left, exists_eq_left]
  split <;> simp

theorem passUntil_gives {time : Nat} (hgives : (passUntil time).Gives p u q) : Waited p time q := by
  unfold passUntil at hgives
  simp only [gives_bind, gives_world, and_assoc, exists_and_left, exists_eq_left] at hgives
  split at hgives
  · rename_i hlater
    rw [gives_setWorld] at hgives
    subst hgives
    exact {
      experiment := rfl
      files := rfl
      rests := .inr ⟨time, _, _, hlater, rfl⟩
      late := fun hdriverless => (hdriverless.waits hlater).2
      ready := fun hdriverless _ => (hdriverless.waits hlater).1 }
  · rename_i hnow
    rw [gives_pure] at hgives
    obtain ⟨-, rfl⟩ := hgives
    exact ⟨rfl, rfl, .inl rfl, fun _ => Nat.le_of_not_lt hnow, fun _ hready => hready⟩

/-- What is sampled if the sampling that started at a time is stopped now, and when it stops. -/
def Progress.sampled (p : Progress) (source : MetricSource) (started : Clock) :
    List Sample × Nat :=
  Sampling.run source (p.experiment.configuration.loader.scrapingPeriodSeconds * 1000) started
    p.experiment.samplesTaken p.site.world.clock.now

/-- A sampling has been stopped: its samples are in its files, and the last of them is
complete. -/
structure Stopped (source : MetricSource) (started : Clock) (p q : Progress) : Prop where
  experiment : q.experiment = { p.experiment with
    samplesTaken := p.experiment.samplesTaken + (p.sampled source started).1.length }
  files : q.site.files =
    Sampling.fillFiles (p.sampled source started).1 p.experiment.configuration p.site.files
  rests : p.site.world.Rests q.site.world
  late : Driverless p.site.world → (p.sampled source started).2 ≤ q.site.world.clock.now
  ready : Driverless p.site.world → p.site.world.ready = [] → q.site.world.ready = []

theorem stopSampling_succeeds {p : Progress}
    (hperiod : p.experiment.configuration.loader.scrapingPeriodSeconds ≠ 0)
    (source : MetricSource) (started : Clock) : (stopSampling source started).Succeeds p := by
  unfold stopSampling Succeeds
  simp only [gives_bind, gives_experiment, gives_world, gives_files, gives_setFiles,
    gives_setExperiment, hperiod, if_false, and_assoc, exists_and_left, exists_eq_left]
  obtain ⟨_, q, hpass⟩ := passUntil_succeeds _ _
  exact ⟨_, q, ⟨⟩, ⟨⟩, hpass⟩

theorem stopSampling_gives {source : MetricSource} {started : Clock}
    (hgives : (stopSampling source started).Gives p u q) : Stopped source started p q := by
  unfold stopSampling at hgives
  simp only [gives_bind, gives_experiment, and_assoc, exists_and_left, exists_eq_left] at hgives
  split at hgives
  · exact absurd hgives gives_throw
  · simp only [gives_bind, gives_world, gives_files, gives_setFiles, gives_setExperiment,
      and_assoc, exists_and_left, exists_eq_left] at hgives
    obtain ⟨_, _, hpass⟩ := hgives
    obtain ⟨hexperiment, hfiles, hrests, hlate, hready⟩ := passUntil_gives hpass
    exact ⟨hexperiment, hfiles, hrests, hlate, hready⟩

/-! ## Collection -/

theorem tell_gives {event : Collector.Event} (hgives : (tell event).Gives p u q) :
    (∃ notices, q.site.world = { p.site.world.report notices with
      collector := p.site.world.collector.accept event }) ∧
      q.site.files = p.site.files ∧ q.experiment = p.experiment := by
  unfold tell at hgives
  simp only [gives_bind, gives_world, gives_report, gives_setWorld, and_assoc, exists_and_left,
    exists_eq_left] at hgives
  obtain ⟨_, rfl⟩ := hgives
  exact ⟨⟨_, rfl⟩, rfl, rfl⟩

/-- What a collector comes to that is told a total, and that no more will come. -/
def closing (collector : Collector) (summary : Summary) : Collector :=
  ((collector.accept
    (if 0 < summary.issued then .announced summary.issued.toNat else .unannounced)).accept
      .recordsClosed).accept .jobsClosed

/-- What is left of a run once its collector has been closed: `rested` is the world when
this began. -/
structure Collected (p : Progress) (summary : Summary) (rested : World) (q : Progress) : Prop where
  rests : p.site.world.Rests rested
  world : ∃ notices, q.site.world =
    { rested.report notices with collector := closing rested.collector summary }
  complete : ∃ collection, (closing rested.collector summary).result = .ok collection
  files : ∃ files, p.site.files.Grows files ∧
    q.site.files =
      (closing rested.collector summary).fillFiles p.experiment.configuration files

/-- Waits for the end of the sampling, if samples are taken. -/
def endSampling (started : Clock) : Trial Unit := do
  match activeSource (← experiment) with
  | some source => stopSampling source started
  | none => pure ()

/-- Tells the collector the total and that no more will come. -/
def close (summary : Summary) : Trial Unit := do
  tell (if 0 < summary.issued then .announced summary.issued.toNat else .unannounced)
  tell .recordsClosed
  tell .jobsClosed

/-- Writes what the collector has, if it has all. -/
def deliver : Trial Unit := do
  let collector := (← world).collector
  setFiles (collector.fillFiles (← experiment).configuration (← files))
  match collector.result with
  | .ok _ => pure ()
  | .error error => throw error

theorem collectAll_eq (summary : Summary) (started : Clock) :
    collectAll summary started = (do endSampling started; close summary; deliver) := by
  simp only [collectAll, endSampling, close, deliver, bind_assoc]
  congr 1
  funext e
  cases activeSource e with
  | some source => rfl
  | none => rfl

theorem endSampling_gives {started : Clock} (hgives : (endSampling started).Gives p u q) :
    p.site.world.Rests q.site.world ∧ p.site.files.Grows q.site.files ∧
      q.experiment.configuration = p.experiment.configuration ∧
      (Driverless p.site.world → p.site.world.ready = [] → q.site.world.ready = []) := by
  unfold endSampling at hgives
  simp only [gives_bind, gives_experiment, and_assoc, exists_and_left, exists_eq_left] at hgives
  split at hgives
  · have hstopped := stopSampling_gives hgives
    refine ⟨hstopped.rests, ?_, by rw [hstopped.experiment], hstopped.ready⟩
    rw [hstopped.files]
    exact (Files.Grows.fill _ _ _).trans (.fill _ _ _)
  · rw [gives_pure] at hgives
    obtain ⟨-, rfl⟩ := hgives
    exact ⟨.inl rfl, .refl _, rfl, fun _ hready => hready⟩

theorem close_gives {summary : Summary} (hgives : (close summary).Gives p u q) :
    (∃ notices, q.site.world = { p.site.world.report notices with
      collector := closing p.site.world.collector summary }) ∧
      q.site.files = p.site.files ∧ q.experiment = p.experiment := by
  unfold close at hgives
  simp only [gives_bind] at hgives
  obtain ⟨_, first, hfirst, _, second, hsecond, hthird⟩ := hgives
  obtain ⟨⟨heard, hfirstWorld⟩, hfirstFiles, hfirstExperiment⟩ := tell_gives hfirst
  obtain ⟨⟨closed, hsecondWorld⟩, hsecondFiles, hsecondExperiment⟩ := tell_gives hsecond
  obtain ⟨⟨done, hthirdWorld⟩, hthirdFiles, hthirdExperiment⟩ := tell_gives hthird
  refine ⟨⟨heard ++ (closed ++ done), ?_⟩, ?_, ?_⟩
  · rw [hthirdWorld, hsecondWorld, hfirstWorld]
    simp [World.report, closing]
  · rw [hthirdFiles, hsecondFiles, hfirstFiles]
  · rw [hthirdExperiment, hsecondExperiment, hfirstExperiment]

theorem deliver_gives (hgives : deliver.Gives p u q) :
    (∃ collection, p.site.world.collector.result = .ok collection) ∧
      q.site.world = p.site.world ∧
      q.site.files =
        p.site.world.collector.fillFiles p.experiment.configuration p.site.files := by
  unfold deliver at hgives
  simp only [gives_bind, gives_world, gives_experiment, gives_files, gives_setFiles, and_assoc,
    exists_and_left, exists_eq_left] at hgives
  obtain ⟨_, hgives⟩ := hgives
  split at hgives
  · rename_i collection hresult
    rw [gives_pure] at hgives
    obtain ⟨-, rfl⟩ := hgives
    exact ⟨⟨collection, hresult⟩, rfl, rfl⟩
  · exact absurd hgives gives_throw

theorem collectAll_gives {summary : Summary} {started : Clock}
    (hgives : (collectAll summary started).Gives p u q) :
    ∃ rested, Collected p summary rested q := by
  simp only [collectAll_eq, gives_bind] at hgives
  obtain ⟨_, rested, hended, _, closed, hclosed, hdelivered⟩ := hgives
  obtain ⟨hrests, hgrows, hconfiguration, -⟩ := endSampling_gives hended
  obtain ⟨⟨notices, hworld⟩, hfiles, hexperiment⟩ := close_gives hclosed
  obtain ⟨hresult, hsame, hfilled⟩ := deliver_gives hdelivered
  simp only [hworld, hfiles, hexperiment, hconfiguration] at hresult hsame hfilled
  exact ⟨rested.site.world, hrests, ⟨notices, hsame⟩, hresult, rested.site.files, hgrows, hfilled⟩

/-! ## The whole replay -/

@[simp]
theorem gives_createOutputs {paths : List String} :
    (createOutputs paths).Gives p u q ↔ ∃ files, p.site.files.createOutputs paths = .ok files ∧
      q = { p with site := { p.site with files := files } } := by
  induction paths generalizing p with
  | nil =>
    change (pure () : Trial Unit).Gives p u q ↔ ∃ files, Except.ok p.site.files = .ok files ∧ _
    simp [eq_comm]
  | cons path paths ih =>
    change Gives (do changeFiles (·.createOutput path); createOutputs paths) p u q ↔ _
    rw [Files.createOutputs, List.foldlM_cons]
    simp only [gives_bind, gives_changeFiles, ih]
    cases p.site.files.createOutput path with
    | error error => simp [Bind.bind, Except.bind]
    | ok first => simp [Bind.bind, Except.bind, Files.createOutputs]

/-- What is said when a replay starts. -/
def announcement (e : Experiment) (hasAdmission : Bool) : List Notice :=
  (match TrainingMode.ofTag? e.configuration.loader.clientTraining with
    | some mode =>
      if mode.requiresAdmission && !hasAdmission then [.withoutAdmission mode] else []
    | none => []) ++
    [.started e.functions.length e.configuration.traceDuration e.policy.name]

theorem gives_announceStart : announceStart.Gives p u q ↔
    q = { p with site := { p.site with
      world := p.site.world.report (p.experiment.announcement p.site.world.link.isSome) } } := by
  unfold announceStart announcement
  simp only [gives_bind, gives_experiment, gives_world, and_assoc, exists_and_left,
    exists_eq_left]
  cases TrainingMode.ofTag? p.experiment.configuration.loader.clientTraining with
  | none => simp
  | some mode =>
    by_cases hwithout : (mode.requiresAdmission && !p.site.world.link.isSome) = true
    · simp only [hwithout, if_true]
      simp [World.report]
    · simp only [hwithout]
      simp

/-- The drivers of a prepared run, in the order in which they are started. -/
def Progress.drivers (p : Progress) : List Start := p.experiment.starts p.site.world.link.isSome

/-- The world in which the drivers of a prepared run are started. -/
def Progress.started (p : Progress) (notices : List Notice) : World :=
  (p.site.world.renewed.report notices).startAll p.drivers

/-- The world of a prepared run whose drivers have just been started. -/
def Progress.begun (p : Progress) : World :=
  p.started (p.experiment.announcement p.site.world.link.isSome)

/-- The drivers have ended, or one of them has failed. -/
def drivenOut (drivers : Nat) (w : World) : Bool :=
  (failed? w).isSome || w.finished.length = drivers

/-- Opens the outputs of a replay and starts its drivers: at what time, and how many. -/
def launch : Trial (Clock × Nat) := do
  announceStart
  let e ← experiment
  createOutputs (Collector.paths e.configuration)
  if (activeSource e).isSome then createOutputs (Sampling.paths e.configuration)
  let started := (← world).clock
  let drivers ← startDrivers
  pure (started, drivers)

/-- Drives some drivers out, and settles what they have left. -/
def conclude (started : Clock) (drivers : Nat) : Trial Summary := do
  let w ← world
  let w := w.run (drivenOut drivers) w.turns
  setWorld w
  match ← settleAll w.finished.reverse with
  | some error =>
    abandon error started
    throw error
  | none =>
    if w.finished.length ≠ drivers then throw .stalled
    let summary := totals w
    collectAll summary started
    report [.finished summary.issued summary.successful summary.failed]
    pure summary

theorem replay_eq :
    replay = (do
      let launched ← launch
      conclude launched.1 launched.2) := by
  simp only [launch, bind_assoc, replay]
  refine bind_congr fun _ => bind_congr fun e => bind_congr fun _ => ?_
  cases (activeSource e).isSome with
  | true =>
    simp only [if_true, conclude, bind_assoc, pure_bind]
    rfl
  | false =>
    simp only [Bool.false_eq_true, if_false, conclude, bind_assoc, pure_bind]
    rfl

/-- The drivers of a prepared run have been started: nothing but reports has happened in its
world, and its output files are open. -/
structure Launched (p q : Progress) : Prop where
  world : q.site.world = p.begun
  experiment : ∃ specifications,
    q.experiment = { p.experiment with specifications := specifications }
  opened : Collector.HasOutputs p.experiment.configuration q.site.files
  sampling : (activeSource p.experiment).isSome → ∀ path ∈ Sampling.paths p.experiment.configuration,
    ∃ location, q.site.files.HasFile path location

theorem launch_gives {launched : Clock × Nat} (hgives : launch.Gives p launched q) :
    launched = (p.site.world.clock, p.drivers.length) ∧ Launched p q := by
  unfold launch at hgives
  simp only [gives_bind, gives_announceStart, gives_experiment, gives_createOutputs, and_assoc,
    exists_and_left, exists_eq_left] at hgives
  obtain ⟨_, _, _, ⟨files, hcreate, rfl⟩, hgives⟩ := hgives
  rw [gives_ite_bind] at hgives
  obtain ⟨_, opened, hopened, hgives⟩ := hgives
  simp only [gives_bind, gives_world, gives_pure, and_assoc, exists_and_left,
    exists_eq_left] at hgives
  obtain ⟨drivers, _, hbegun, rfl, rfl⟩ := hgives
  obtain ⟨sampled, hgrows, hsampling, rfl⟩ : ∃ sampled, files.Grows sampled ∧
      ((activeSource p.experiment).isSome → ∀ path ∈ Sampling.paths p.experiment.configuration,
        ∃ location, sampled.HasFile path location) ∧ opened = _ := by
    split at hopened
    · obtain ⟨sampled, hsampled, hsame⟩ := gives_createOutputs.mp hopened
      exact ⟨sampled, .createOutputs hsampled,
        fun _ path hpath => Files.hasFile_of_createOutputs hsampled hpath, hsame⟩
    · rename_i hnone
      obtain ⟨-, hsame⟩ := gives_pure.mp hopened
      exact ⟨files, .refl files, fun hsome => absurd hsome hnone, hsame.symm⟩
  obtain ⟨hdrivers, hworld, hfiles, hexperiment⟩ := startDrivers_gives hbegun
  change _ = sampled at hfiles
  rw [← hfiles] at hgrows hsampling
  refine ⟨?_, hworld, hexperiment, ?_, hsampling⟩
  · rw [hdrivers]
    rfl
  · exact (Collector.hasOutputs_of_createOutputs hcreate).grows hgrows

/-- The replay of a run that succeeded: `last` is its world when the drivers had ended, and
`rested` when no samples were taken any more. -/
structure Replayed (p : Progress) (summary : Summary) (last rested : World) (q : Progress) :
    Prop where
  /-- The drivers were given all the turns they could take. -/
  ran : ∃ notices,
    last = (p.started notices).run (drivenOut p.drivers.length) (p.started notices).turns
  ended : last.finished.length = p.drivers.length
  well : ∀ finish ∈ last.finished, ∃ r, finish.result = .ok r
  total : summary = totals last
  rests : ∃ notices, (last.report notices).Rests rested
  world : ∃ notices, q.site.world =
    { rested.report notices with collector := closing rested.collector summary }
  complete : ∃ collection, (closing rested.collector summary).result = .ok collection
  files : ∃ files, Collector.HasOutputs p.experiment.configuration files ∧ q.site.files =
    (closing rested.collector summary).fillFiles p.experiment.configuration files

theorem replay_gives {summary : Summary} (hgives : replay.Gives p summary q) :
    ∃ last rested, Replayed p summary last rested q := by
  rw [replay_eq, gives_bind] at hgives
  obtain ⟨launched, begun, hlaunch, hgives⟩ := hgives
  obtain ⟨rfl, hlaunched⟩ := launch_gives hlaunch
  unfold conclude at hgives
  simp only [gives_bind, gives_world, gives_setWorld, and_assoc, exists_and_left,
    exists_eq_left] at hgives
  obtain ⟨_, outcome, settled, hsettled, hgives⟩ := hgives
  generalize hlast : begun.site.world.run (drivenOut p.drivers.length) begun.site.world.turns = last
    at hsettled hgives
  cases outcome with
  | some error =>
    simp only [gives_bind] at hgives
    obtain ⟨_, _, -, hthrow⟩ := hgives
    exact absurd hthrow gives_throw
  | none =>
    simp only at hgives
    split at hgives
    · simp only [gives_bind] at hgives
      obtain ⟨_, _, hthrow, -⟩ := hgives
      exact absurd hthrow gives_throw
    rename_i hended
    simp only [gives_bind, gives_report, gives_pure, exists_eq_left] at hgives
    obtain ⟨_, collected, hcollected, _, rfl, rfl⟩ := hgives
    obtain ⟨rested, hcollected⟩ := collectAll_gives hcollected
    obtain ⟨hwell, hsettledKept⟩ := settleAll_gives hsettled
    obtain ⟨settledNotices, hsettledWorld⟩ := hsettledKept.world
    obtain ⟨collectedNotices, hcollectedWorld⟩ := hcollected.world
    obtain ⟨files, hgrows, hfilled⟩ := hcollected.files
    have hconfiguration : settled.experiment.configuration = p.experiment.configuration := by
      obtain ⟨_, hsame⟩ := hlaunched.experiment
      rw [hsettledKept.configuration, hsame]
    refine ⟨last, rested, {
      ran := ⟨p.experiment.announcement p.site.world.link.isSome, ?_⟩
      ended := not_not.mp hended
      well := fun finish hmem => hwell finish (List.mem_reverse.mpr hmem)
      total := rfl
      rests := ⟨settledNotices, hsettledWorld ▸ hcollected.rests⟩
      world := ⟨collectedNotices ++ [.finished (totals last).issued (totals last).successful
        (totals last).failed], ?_⟩
      complete := hcollected.complete
      files := ⟨files, ?_, ?_⟩ }⟩
    · rw [← hlast, hlaunched.world]
      rfl
    · simp only [hcollectedWorld]
      simp [World.report]
    · rw [hsettledKept.files] at hgrows
      exact hlaunched.opened.grows hgrows
    · rw [hfilled, hconfiguration]

/-- The run of an experiment that succeeds replays its drivers, each with a specification
that fits, in the world as it was but for reports. -/
structure Succeeded (e : Experiment) (site : Site) (generated : Bool) (summary : Summary)
    (last rested : World) (p : Progress) : Prop where
  replayed : Replayed (e.prepared site generated) summary last rested p
  fitted : (e.prepared site generated).experiment.Fitted
  configuration : (e.prepared site generated).experiment.configuration = e.configuration
  ran : ∃ notices, last =
    ((site.world.renewed.report notices).startAll (e.prepared site generated).drivers).run
      (drivenOut (e.prepared site generated).drivers.length)
      ((site.world.renewed.report notices).startAll (e.prepared site generated).drivers).turns

theorem succeeded_of_run {e : Experiment} {site : Site} {generated : Bool} {summary : Summary}
    (hrun : e.run site false generated = (.ok summary, p)) :
    ∃ last rested, Succeeded e site generated summary last rested p := by
  obtain ⟨hprepare, hreplay⟩ := run_gives hrun
  obtain ⟨hquiet, hfitted⟩ := prepare_gives hprepare
  obtain ⟨last, rested, hreplayed⟩ := replay_gives hreplay
  obtain ⟨heard, hworld⟩ := hquiet.world
  obtain ⟨notices, hran⟩ := hreplayed.ran
  refine ⟨last, rested, hreplayed, hfitted, hquiet.configuration, heard ++ notices, ?_⟩
  have hrenewed : (e.prepared site generated).site.world.renewed.report notices =
      site.world.renewed.report (heard ++ notices) := by
    rw [hworld]
    simp [World.report, World.renewed]
  rw [hran, Progress.started, hrenewed]

namespace Succeeded

variable {e : Experiment} {site : Site} {generated : Bool} {summary : Summary}
  {last rested : World}

/-- Its replay has ended well. -/
theorem ended (hsucceeded : Succeeded e site generated summary last rested p)
    (hunmanned : Unmanned site.world.renewed) : ∃ notices,
      Ended (site.world.renewed.report notices) (e.prepared site generated).drivers last rested := by
  obtain ⟨notices, hran⟩ := hsucceeded.ran
  exact ⟨notices, {
    unmanned := hunmanned.report notices
    fresh := rfl
    passes := hran ▸ World.run_passes _ _ _
    ended := hsucceeded.replayed.ended
    well := hsucceeded.replayed.well
    rests := hsucceeded.replayed.rests }⟩

/-- Each driver has issued what its schedule has, or the first steps of it. -/
theorem issuesOf (hsucceeded : Succeeded e site generated summary last rested p)
    (hunmanned : Unmanned site.world.renewed) {place : Nat} {start : Start}
    (hstart : (e.prepared site generated).drivers[place]? = some start) :
    ∃ count, p.site.world.view.issuesOf (site.world.lanes.length + place) =
        (start.schedule site.world.clock).issues start.specification count ∧
      (start.plan.configuration.granularity = .second →
        count = (start.schedule site.world.clock).steps) := by
  have hfits := Specification.fits_of_validate
    (hsucceeded.fitted.validate (List.mem_of_getElem? hstart))
  obtain ⟨notices, hended⟩ := hsucceeded.ended hunmanned
  have hlength : (site.world.renewed.report notices).lanes.length = site.world.lanes.length :=
    List.length_map _
  obtain ⟨finish, hfinish, hfinishLane⟩ := hended.exists_finish hstart
  obtain ⟨r, hresult⟩ := hsucceeded.replayed.well finish hfinish
  obtain ⟨lane, -, hfollows, hmem⟩ := hended.hasTrack hstart hfinish hfinishLane
    (start.track_follows site.world.clock _ hfits) fun horderly hfollows hstep =>
      hfollows.step horderly hstep
  rw [hlength] at hfollows hmem
  obtain ⟨count, hissues, hsecond⟩ := hfollows.issues hmem hresult
  refine ⟨count, ?_, hsecond⟩
  obtain ⟨notices, hworld⟩ := hsucceeded.replayed.world
  have hsame : p.site.world.view.issuesOf (site.world.lanes.length + place) =
      rested.view.issuesOf (site.world.lanes.length + place) := by
    rw [hworld]
    rfl
  exact hsame.trans hissues

end Succeeded

end Experiment
end TraceReplay
