import TraceReplay.Proofs.Experiment.Success
import TraceReplay.Proofs.Replay.Abort
import TraceReplay.Proofs.Replay.Failure
import TraceReplay.Proofs.Sampling.Course

/-!
# Runs that are given up

A driver that fails stops its run at once.  The other drivers are given up wherever they are, so
nothing is issued any more; a sample that has begun is still taken, and all samples are in their
files when the run comes back with the error.
-/

namespace TraceReplay.Experiment

open Replay (Driverless FirstFailure Prepends Sound World Unmanned)
open Trial

variable {p q : Progress}

/-! ## Failures -/

theorem isSome_failed?_iff {w : World} : (failed? w).isSome ↔ w.HasFailed := by
  rw [failed?, List.findSome?_isSome_iff]
  simp only [List.mem_reverse, World.HasFailed, Replay.Finish.Failed]
  refine exists_congr fun finish => and_congr_right fun _ => ?_
  cases finish.result <;> simp

theorem drivenOut_iff {drivers : Nat} {w : World} :
    drivenOut drivers w = true ↔ w.HasFailed ∨ w.finished.length = drivers := by
  rw [drivenOut, Bool.or_eq_true, decide_eq_true_eq, isSome_failed?_iff]

/-- Where a driver has failed there is the error of one that has. -/
theorem Outcome.eq_some {w : World} {outcome : Option ReplayError}
    (houtcome : Outcome w.finished.reverse outcome) (hfailed : w.HasFailed) :
    ∃ error, outcome = some error ∧ ∃ finish ∈ w.finished, finish.result = .error error := by
  cases outcome with
  | none =>
    obtain ⟨finish, hfinish, error, herror⟩ := hfailed
    obtain ⟨r, hresult⟩ := houtcome finish (List.mem_reverse.mpr hfinish)
    exact absurd (herror.symm.trans hresult) (by simp)
  | some error =>
    obtain ⟨finish, hfinish, herror⟩ := houtcome
    exact ⟨error, rfl, finish, List.mem_reverse.mp hfinish, herror⟩

/-! ## Samples -/

/-- The period of the sampling of a prepared run, in milliseconds. -/
def Progress.period (p : Progress) : Nat :=
  p.experiment.configuration.loader.scrapingPeriodSeconds * 1000

/-- Where the sampling of a prepared run starts. -/
def Progress.sampling (p : Progress) : Sampling.Position :=
  .start p.period p.site.world.clock p.experiment.samplesTaken

/-- The sampling of a prepared run was stopped at a time: its source was asked for the samples
that begin until then and for no others, they are complete, and they are in their files. -/
structure Persisted (p : Progress) (source : MetricSource) (stop count : Nat) (q : Progress) :
    Prop where
  takes : p.sampling.Takes source p.period stop count
  asked : q.experiment.samplesTaken = p.experiment.samplesTaken + count
  complete : ∀ k < count,
    ((p.sampling.after source p.period k).ends source).now ≤ q.site.world.clock.now
  usage : q.site.files.read (Sampling.usagePath p.experiment.configuration) =
    .ok (some (Lines.write ((List.range count).map fun k =>
      ((p.sampling.after source p.period k).sample source).usage.toJson)))
  platform : q.site.files.read (Sampling.platformPath p.experiment.configuration) =
    .ok (some (utf8Bytes (Table.write PlatformStats.header ((List.range count).map fun k =>
      ((p.sampling.after source p.period k).sample source).platform.row))))

/-- A sampling that is stopped where nobody is driven is persisted. -/
theorem Stopped.persisted {mid : Progress} {source : MetricSource}
    (hstopped : Stopped source p.site.world.clock mid q)
    (hexperiment : ∃ specifications,
      mid.experiment = { p.experiment with specifications := specifications })
    (houtputs : ∀ path ∈ Sampling.paths p.experiment.configuration,
      ∃ location, mid.site.files.HasFile path location)
    (hperiod : p.experiment.configuration.loader.scrapingPeriodSeconds ≠ 0)
    (hdriverless : Driverless mid.site.world) :
    ∃ count, Persisted p source mid.site.world.clock.now count q := by
  obtain ⟨_, hexperiment⟩ := hexperiment
  have hpositive : 0 < p.period := Nat.mul_pos (Nat.pos_of_ne_zero hperiod) (by decide)
  obtain ⟨count, htakes, hrun⟩ := Sampling.run_eq source hpositive p.site.world.clock
    p.experiment.samplesTaken mid.site.world.clock.now
  have hsampled : mid.sampled source p.site.world.clock =
      ((List.range count).map fun k => (p.sampling.after source p.period k).sample source,
        max (p.sampling.after source p.period count).clock.now mid.site.world.clock.now) := by
    rw [Progress.sampled, hexperiment]
    exact hrun
  have hlate := hstopped.late hdriverless
  obtain ⟨husage, hplatform⟩ := Sampling.read_fillFiles houtputs
    (mid.sampled source p.site.world.clock).1
  have hfiles := hstopped.files
  rw [hsampled] at hlate husage hplatform hfiles
  refine ⟨count, htakes, ?_, fun k hk => ?_, ?_, ?_⟩
  · rw [hstopped.experiment, hsampled, hexperiment]
    simp
  · exact (Sampling.ends_le hk).trans ((le_max_left _ _).trans hlate)
  · rw [hfiles, hexperiment, husage, List.map_map]
    rfl
  · rw [hfiles, hexperiment, hplatform, List.map_map]
    rfl

/-! ## Giving up -/

/-- Stops the sampling of a replay that is given up, and reports it if that fails. -/
def ceaseSampling (started : Clock) : Trial Unit := do
  match activeSource (← experiment) with
  | some source =>
    tryCatch (stopSampling source started) fun cause => report [.samplingFailed cause]
  | none => pure ()

/-- The sampling that started at a time is over, if there was one, and so is the driving. -/
structure Ceased (started : Clock) (p q : Progress) : Prop where
  driverless : Driverless q.site.world
  issues : q.site.world.issues = p.site.world.issues
  rests : ∃ rested notices, p.site.world.Rests rested ∧ q.site.world = rested.report notices
  stopped : ∀ source, activeSource p.experiment = some source →
    p.experiment.configuration.loader.scrapingPeriodSeconds ≠ 0 → Stopped source started p q
  idle : activeSource p.experiment = none ∨
    p.experiment.configuration.loader.scrapingPeriodSeconds = 0 →
      q.experiment = p.experiment ∧ q.site.files = p.site.files

theorem stopSampling_fails (hperiod : p.experiment.configuration.loader.scrapingPeriodSeconds = 0)
    (source : MetricSource) (started : Clock) :
    (stopSampling source started).Fails p (.panicked Sampling.noPeriod) p := by
  unfold stopSampling
  refine (gives_experiment.mpr ⟨rfl, rfl⟩).bind_fails ?_
  simp only [hperiod, if_true]
  exact fails_throw _ p

theorem ceaseSampling_gives (hdriverless : Driverless p.site.world) (started : Clock) :
    ∃ q, (ceaseSampling started).Gives p () q ∧ Ceased started p q := by
  unfold ceaseSampling
  simp only [gives_bind, gives_experiment, and_assoc, exists_and_left, exists_eq_left]
  cases hsource : activeSource p.experiment with
  | none =>
    exact ⟨p, by simp, hdriverless, rfl, ⟨_, [], .inl rfl, rfl⟩, by simp [hsource],
      fun _ => ⟨rfl, rfl⟩⟩
  | some source =>
    by_cases hperiod : p.experiment.configuration.loader.scrapingPeriodSeconds = 0
    · have hcaught := (stopSampling_fails hperiod source started).tryCatch
        (fun cause => report [.samplingFailed cause]) ((gives_report (u := ⟨⟩)).mpr rfl)
      exact ⟨_, hcaught, hdriverless.report _, rfl, ⟨_, _, .inl rfl, rfl⟩,
        fun _ _ hrhythm => absurd hperiod hrhythm, fun _ => ⟨rfl, rfl⟩⟩
    · obtain ⟨_, q, hstop⟩ := stopSampling_succeeds hperiod source started
      have hstopped := stopSampling_gives hstop
      obtain ⟨hkept, hissues⟩ := hdriverless.rests hstopped.rests
      refine ⟨q, hstop.tryCatch _, hkept, hissues, ⟨_, [], hstopped.rests, rfl⟩, ?_, ?_⟩
      · rintro other hother -
        obtain rfl := Option.some.inj (hsource.symm.trans hother)
        exact hstopped
      · rintro (hnone | hzero)
        · exact absurd (hsource.symm.trans hnone) (by simp)
        · exact absurd hzero hperiod

theorem abandon_eq (error : ReplayError) (started : Clock) :
    abandon error started = (do
      report [.replayFailed error]
      setWorld (← world).abort
      ceaseSampling started
      setWorld { (← world) with
        lanes := (← world).lanes.map fun lane => { lane with sinkOpen := false } }) := by
  simp only [abandon, ceaseSampling, bind_assoc]
  refine bind_congr fun _ => bind_congr fun w => bind_congr fun _ => bind_congr fun e => ?_
  cases activeSource e with
  | some source => rfl
  | none => rfl

/-- A progress whose drivers are given up because of an error. -/
def Progress.aborted (p : Progress) (error : ReplayError) : Progress :=
  { p with site := { p.site with world := (p.site.world.report [.replayFailed error]).abort } }

/-- A progress to whose lanes nobody listens any more. -/
def Progress.unheard (p : Progress) : Progress :=
  { p with site := { p.site with world := p.site.world.unheard } }

theorem abandon_gives (hsound : Sound p.site.world) (error : ReplayError) (started : Clock) :
    ∃ q, Ceased started (p.aborted error) q ∧ (abandon error started).Gives p () q.unheard := by
  obtain ⟨q, hgives, hceased⟩ :=
    ceaseSampling_gives (p := p.aborted error) (hsound.report _).abort started
  refine ⟨q, hceased, ?_⟩
  simp only [abandon_eq, gives_bind, gives_report, gives_world, gives_setWorld, and_assoc,
    exists_and_left, exists_eq_left]
  exact ⟨⟨⟩, ⟨⟩, ⟨⟩, q, hgives, rfl⟩

/-! ## The whole replay -/

/-- A replay has been given up because of a driver that failed: no driver failed before it, it
had a reason, nothing was issued after it, nobody is driven any more, and if there was a sampling
it was stopped at the time of the failure. -/
structure GivenUp (p : Progress) (finish : Replay.Finish) (error : ReplayError) (q : Progress) :
    Prop where
  failed : finish ∈ p.begun.runToEnd.finished ∧ finish.result = .error error
  first : ∀ other ∈ p.begun.runToEnd.finished, other.Failed → finish.time ≤ other.time
  reason : ∃ place start, p.drivers[place]? = some start ∧
    finish.lane = p.site.world.lanes.length + place ∧
    start.plan.FailsWith start.specification error
  issues : Prepends (·.2.time ≤ finish.time) p.site.world.issues q.site.world.issues
  idle : ∀ x ∈ q.site.world.view.standing, x.2.driving? = none
  sampled : ∀ source, activeSource p.experiment = some source →
    p.experiment.configuration.loader.scrapingPeriodSeconds ≠ 0 →
      ∃ count, Persisted p source finish.time count q
  unsampled : activeSource p.experiment = none ∨
    p.experiment.configuration.loader.scrapingPeriodSeconds = 0 →
      q.experiment.samplesTaken = p.experiment.samplesTaken

/-- The world in which a run starts its drivers. -/
def Progress.opened (p : Progress) : World :=
  p.site.world.renewed.report (p.experiment.announcement p.site.world.link.isSome)

theorem length_lanes_opened (p : Progress) :
    p.opened.lanes.length = p.site.world.lanes.length := List.length_map _

theorem issues_begun (p : Progress) : p.begun.issues = p.site.world.issues :=
  (World.startAll_notes p.opened p.drivers).2

/-- Drivers that came to a first failure, and whose ends were settled before they were given up,
were given up because of that failure. -/
theorem Ceased.givenUp {begun settled ceased : Progress} {last : World} {finish : Replay.Finish}
    {error : ReplayError} (hlaunched : Launched p begun)
    (hunmanned : Unmanned p.site.world.renewed) (hpasses : p.begun.Passes last)
    (hfirst : FirstFailure p.begun last) (hfinish : finish ∈ last.finished)
    (herror : finish.result = .error error)
    (hsettled : Settled { begun with site := { begun.site with world := last } } settled)
    (hceased : Ceased p.site.world.clock (settled.aborted error) ceased) :
    GivenUp p finish error ceased.unheard := by
  have hopened : Unmanned p.opened := hunmanned.report _
  have htime : finish.time = last.clock.now := hfirst.now finish hfinish ⟨error, herror⟩
  obtain ⟨notices, hworld⟩ := hsettled.world
  have haborted : Driverless (settled.aborted error).site.world := by
    apply Sound.abort
    rw [hworld]
    exact ((hopened.toFounded.sound hpasses).report _).report _
  -- Until the sampling is stopped only the specifications of the experiment have changed.
  obtain ⟨_, hlaunchedExperiment⟩ := hlaunched.experiment
  obtain ⟨specifications, hsettledExperiment⟩ := hsettled.experiment
  have hexperiment : (settled.aborted error).experiment =
      { p.experiment with specifications := specifications } := by
    refine hsettledExperiment.trans ?_
    rw [hlaunchedExperiment]
  have hsource : activeSource (settled.aborted error).experiment = activeSource p.experiment := by
    rw [hexperiment]
    rfl
  have hconfiguration : (settled.aborted error).experiment.configuration =
      p.experiment.configuration := by
    rw [hexperiment]
  exact {
    failed := ⟨hfirst.before hfinish, herror⟩
    first := fun other hother hfailed => htime ▸ hfirst.first other hother hfailed
    reason := by
      rw [← length_lanes_opened]
      exact hopened.failsWith rfl hpasses hfinish herror
    issues := by
      have hsame : ceased.unheard.site.world.issues = last.issues := by
        refine hceased.issues.trans ?_
        change settled.site.world.issues = _
        rw [hworld]
        rfl
      rw [hsame, ← issues_begun, htime]
      exact hpasses.issues.mono fun entry htimes => htimes.2
    idle := by
      rw [Progress.unheard, World.standing_unheard]
      exact hceased.driverless.idle
    sampled := fun source hactive hperiod => by
      have hstopped := hceased.stopped source (hsource.trans hactive) (hconfiguration ▸ hperiod)
      have hopen : ∀ path ∈ Sampling.paths p.experiment.configuration,
          ∃ location, (settled.aborted error).site.files.HasFile path location := by
        change ∀ path ∈ _, ∃ location, settled.site.files.HasFile path location
        rw [hsettled.files]
        exact hlaunched.sampling (by simp [hactive])
      obtain ⟨count, hpersisted⟩ :=
        hstopped.persisted ⟨_, hexperiment⟩ hopen hperiod haborted
      have hstop : (settled.aborted error).site.world.clock.now = finish.time := by
        change settled.site.world.clock.now = _
        rw [hworld, htime]
        rfl
      exact ⟨count, hstop ▸ { hpersisted with }⟩
    unsampled := fun hnone => by
      obtain ⟨hsame, -⟩ := hceased.idle (by rwa [hsource, hconfiguration])
      refine (congrArg Experiment.samplesTaken hsame).trans ?_
      rw [hexperiment] }

/-- Drivers that have been started, and one of which fails, are given up. -/
theorem conclude_fails {begun : Progress} (hlaunched : Launched p begun)
    (hunmanned : Unmanned p.site.world.renewed) (hfails : p.begun.runToEnd.HasFailed) :
    ∃ finish error q, GivenUp p finish error q ∧
      (conclude p.site.world.clock p.drivers.length).Fails begun error q := by
  have hopened : Unmanned p.opened := hunmanned.report _
  have hpasses := World.run_passes (drivenOut p.drivers.length) p.begun.turns p.begun
  have hfirst : FirstFailure p.begun (p.begun.run (drivenOut p.drivers.length) p.begun.turns) :=
    hopened.firstFailure rfl (fun _ => drivenOut_iff) hfails
  generalize hlast : p.begun.run (drivenOut p.drivers.length) p.begun.turns = last
    at hpasses hfirst
  have hsound : Sound last := hopened.toFounded.sound hpasses
  obtain ⟨outcome, settled, hsettled⟩ := settleAll_succeeds last.finished.reverse
    { begun with site := { begun.site with world := last } }
  obtain ⟨houtcome, hkept⟩ := settleAll_gives hsettled
  obtain ⟨error, rfl, finish, hfinish, herror⟩ := houtcome.eq_some hfirst.failed
  obtain ⟨notices, hworld⟩ := hkept.world
  obtain ⟨ceased, hceased, habandon⟩ :=
    abandon_gives (hworld ▸ hsound.report notices) error p.site.world.clock
  refine ⟨finish, error, ceased.unheard,
    hceased.givenUp hlaunched hunmanned hpasses hfirst hfinish herror hkept, ?_⟩
  unfold conclude
  refine (gives_world.mpr ⟨rfl, rfl⟩).bind_fails ?_
  refine ((gives_setWorld (u := ⟨⟩)).mpr rfl).bind_fails ?_
  rw [hlaunched.world, hlast]
  refine hsettled.bind_fails ?_
  exact habandon.bind_fails (fails_throw _ _)

/-- A replay one of whose drivers would fail is given up at its first failure, and so is every
run that it belongs to. -/
theorem replay_gives_up (hunmanned : Unmanned p.site.world.renewed)
    (hroom : p.experiment.HasRoom p.site.files) (hfails : p.begun.runToEnd.HasFailed) :
    ∃ finish error q, GivenUp p finish error q ∧ replay.Fails p error q ∧
      ∀ {e : Experiment} {site : Site} {generated : Bool},
        (prepare generated).Gives { experiment := e, site := site } () p →
          e.run site false generated = (.error error, q) := by
  obtain ⟨launched, begun, hlaunch⟩ := launch_succeeds hroom
  obtain ⟨rfl, hlaunched⟩ := launch_gives hlaunch
  obtain ⟨finish, error, q, hgivenUp, hconclude⟩ := conclude_fails hlaunched hunmanned hfails
  have hreplay : replay.Fails p error q := by
    rw [replay_eq]
    exact hlaunch.bind_fails hconclude
  refine ⟨finish, error, q, hgivenUp, hreplay, fun {e site generated} hprepare => ?_⟩
  have htrial : (trial false generated).Fails { experiment := e, site := site } error q := by
    rw [trial_eq]
    exact hprepare.bind_fails hreplay
  exact htrial

/-! ## A policy that breaks -/

/-- Passes the first three slots of each function through and panics on the fourth. -/
def breaking : Policy where
  name := "BreakingPolicy"
  kind := .passThrough
  grouping := .all
  resolve ctx :=
    if 3 < ctx.issued then ⟨[], .panic "policy failure"⟩ else ⟨[], .fire ctx.function none⟩

/-- Two functions, the first of which has a fourth slot, with invocations that take long and
samples that take half a second. -/
def Progress.breaking : Progress where
  experiment := {
    configuration := .ofLoader {
      outputStem := "t", experimentDuration := 2, granularity := .second
      scrapingEnabled := true, scrapingPeriodSeconds := 1 }
    functions := [
      { name := "f", invocationStats := [2, 2] }, { name := "g", invocationStats := [1, 0] }]
    specifications := [
      { gaps := [[0, 500000], [0, 500000]], perStepCount := [2, 2], rawDuration := []
        slots := [[{ runtime := 100, memory := 64 }, { runtime := 100, memory := 64 }],
          [{ runtime := 100, memory := 64 }, { runtime := 100, memory := 64 }]] },
      { gaps := [[0], []], perStepCount := [1, 0], rawDuration := []
        slots := [[{ runtime := 100, memory := 64 }], []] }]
    generator := .ofSeed 42
    invoker := .scripted fun _ => { delay := 5000 }
    policy := Experiment.breaking
    metricSource := some { usage := fun _ => (250, {}), platform := fun _ => (250, {}) } }
  site := {}

theorem replay_gives_up_breaking : (activeSource Progress.breaking.experiment).isSome ∧
    Progress.breaking.begun.runToEnd.HasFailed ∧
      ∃ finish error q, finish.time = 1000 ∧ GivenUp .breaking finish error q ∧
        replay.Fails .breaking error q := by
  have hunmanned : Unmanned (World.renewed {}) := Unmanned.empty
  have hroom : Progress.breaking.experiment.HasRoom Progress.breaking.site.files := by
    obtain ⟨sampled, hopened⟩ := exists_of_isOk (x := do
      let created ← Progress.breaking.site.files.createOutputs
        (Collector.paths Progress.breaking.experiment.configuration)
      created.createOutputs (Sampling.paths Progress.breaking.experiment.configuration))
      (by decide +kernel)
    obtain ⟨created, hcreated, hsampled⟩ := exists_of_bind hopened
    exact ⟨created, hcreated, fun _ => ⟨sampled, hsampled⟩⟩
  have htimes : (Progress.breaking.begun.runToEnd.finished.filter (!·.result.isOk)).map (·.time) =
      [1000] := by decide +kernel
  have hfails : Progress.breaking.begun.runToEnd.HasFailed :=
    isSome_failed?_iff.mp (by decide +kernel)
  obtain ⟨finish, error, q, hgivenUp, hreplay, -⟩ := replay_gives_up hunmanned hroom hfails
  have htime : finish.time ∈ [1000] := by
    obtain ⟨hfinish, herror⟩ := hgivenUp.failed
    rw [← htimes]
    exact List.mem_map_of_mem (List.mem_filter.mpr ⟨hfinish, by rw [herror]; rfl⟩)
  exact ⟨rfl, hfails, finish, error, q, List.mem_singleton.mp htime, hgivenUp, hreplay⟩

end TraceReplay.Experiment
