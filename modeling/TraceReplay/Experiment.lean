import TraceReplay.Deployment
import TraceReplay.Generation
import TraceReplay.Policy.Assignment
import TraceReplay.Replay.World
import TraceReplay.Sampling
import TraceReplay.Specification.File

/-!
# Experiments

One experiment deploys its functions, gets a specification for each of them, replays
all of them together and collects their records.  An experiment can be run again; it
keeps its deployed functions and goes on with its generator.

A run that fails keeps what it has done so far: files, reports and the state of the
experiment are there whether or not there is a result.
-/

namespace TraceReplay

open Replay (World)

structure Experiment where
  configuration : ReplayConfiguration
  functions : List Function
  promptFunctions : List Function := []
  /-- Specifications by the places of their functions. -/
  specifications : List Specification := []
  generator : Generator
  invoker : Invoker
  policy : Policy
  deployer : Deployer := .preDeployed
  metricSource : Option MetricSource := none
  /-- Samples the source has given so far. -/
  samplesTaken : Nat := 0

/-- Where experiments run: the files they use and the world their tasks live in. -/
structure Site where
  files : Files := .empty
  world : World := {}

/-- Connects an admission scheduler, or the place where one should be. -/
def Site.connect (site : Site) (scheduler : Scheduler) (present : Bool) : Site :=
  { site with world := { site.world with link := some (.connect scheduler present) } }

def Site.disconnect (site : Site) : Site :=
  { site with world := { site.world with link := none } }

/-- Functions handed to the deployer, and the manifest that went with them. -/
structure Deployment where
  functions : Nat
  manifestPath : String
deriving Repr, DecidableEq

namespace Experiment

/-- An experiment with the policy of its training mode. -/
def new (configuration : ReplayConfiguration) (functions : List Function) (invoker : Invoker) :
    List Notice × Experiment :=
  let (notices, policy) := Policy.ofConfiguration configuration.loader
  (notices, {
    configuration := configuration
    functions := functions
    generator := .ofSeed configuration.loader.seed
    invoker := invoker
    policy := policy })

/-- How far a run has come. -/
structure Progress where
  experiment : Experiment
  site : Site
  deployments : List Deployment := []

/-- A part of a run: it may fail, but what it has done stays done. -/
abbrev Trial := ExceptT ReplayError (StateM Progress)

namespace Trial

def report (notices : List Notice) : Trial Unit :=
  modify fun p => { p with site := { p.site with world := p.site.world.report notices } }

def experiment : Trial Experiment := return (← get).experiment
def files : Trial Files := return (← get).site.files
def world : Trial World := return (← get).site.world

def setExperiment (e : Experiment) : Trial Unit := modify fun p => { p with experiment := e }

def setFiles (files : Files) : Trial Unit :=
  modify fun p => { p with site := { p.site with files := files } }

def setWorld (world : World) : Trial Unit :=
  modify fun p => { p with site := { p.site with world := world } }

/-- A change of the files that may fail. -/
def changeFiles (change : Files → Except ReplayError Files) : Trial Unit := do
  setFiles (← liftExcept (change (← files)))
where
  liftExcept : Except ReplayError Files → Trial Files
    | .ok files => pure files
    | .error e => throw e

/-- Creates output files, up to the first that cannot be created. -/
def createOutputs (paths : List String) : Trial Unit :=
  paths.forM fun path => changeFiles (·.createOutput path)

end Trial

open Trial

/-! ## Specifications -/

/-- Generates a specification and saves it. -/
def generateOne (f : Function) (index : Nat) : Trial Specification := do
  let e ← experiment
  let loader := e.configuration.loader
  let (result, generator) := generate f loader.arrivals loader.granularity e.generator
  setExperiment { e with generator := generator }
  match result with
  | .error error => throw error
  | .ok specification =>
    changeFiles fun files => specification.save files loader.specificationDir index
    pure specification

/-- Generates and saves the specifications of all functions. -/
def generateSpecifications : Trial Unit := do
  let e ← experiment
  let dir := e.configuration.loader.specificationDir
  changeFiles fun files =>
    match files.createDirs dir with
    | .ok files => .ok files
    | .error fault => .error (.file dir fault)
  let specifications ← e.functions.zipIdx.mapM fun (f, index) => generateOne f index
  report [.generated specifications.length dir]
  setExperiment { (← experiment) with specifications := specifications }

def loadOne (files : Files) (dir : String) (f : Function) (index : Nat) :
    Except ReplayError Specification := do
  let specification ← Specification.load files dir index
  specification.validate f
  .ok specification

/-- Loads saved specifications, each of which has to fit its function. -/
def loadSpecifications : Trial Unit := do
  let e ← experiment
  let files ← files
  let dir := e.configuration.loader.specificationDir
  match e.functions.zipIdx.mapM fun (f, index) => loadOne files dir f index with
  | .error error => throw error
  | .ok specifications => setExperiment { e with specifications := specifications }

/-! ## Deployment -/

def deploy (functions : List Function) : Trial (List Function) := do
  let e ← experiment
  let manifestPath := e.configuration.manifestPath
  modify fun p =>
    { p with deployments := p.deployments ++ [⟨functions.length, manifestPath⟩] }
  let (notices, result) := e.deployer.deploy e.configuration.loader functions manifestPath
  report notices
  match result with
  | .ok functions => pure functions
  | .error error => throw error

def deployAll : Trial Unit := do
  let functions ← deploy (← experiment).functions
  setExperiment { (← experiment) with functions := functions }
  if (← experiment).configuration.loader.withPromptBank then
    let promptFunctions ← deploy (← experiment).promptFunctions
    setExperiment { (← experiment) with promptFunctions := promptFunctions }

/-! ## Replay -/

def announceStart : Trial Unit := do
  let e ← experiment
  let hasLink := (← world).link.isSome
  match TrainingMode.ofTag? e.configuration.loader.clientTraining with
  | some mode => if mode.requiresAdmission && !hasLink then report [.withoutAdmission mode]
  | none => pure ()
  report [.started e.functions.length e.configuration.traceDuration e.policy.name]

/-- The source of metrics, if samples are to be taken. -/
def activeSource (e : Experiment) : Option MetricSource :=
  if e.configuration.loader.scrapingEnabled then e.metricSource else none

/-- The world with an empty collector, and with a driver for each assigned function.
Drivers take their specifications with them. -/
def startDrivers : Trial Nat := do
  let e ← experiment
  let w ← world
  let context : Context := {
    invoker := e.invoker, promptFunctions := e.promptFunctions, hasAdmission := w.link.isSome }
  let assignments := assignDrivers e.functions e.policy.grouping
  let fresh : World := { w with
    lanes := w.lanes.map fun lane => { lane with sinkOpen := false }
    records := { capacity := Replay.recordCapacity }
    jobs := { capacity := Replay.recordCapacity }
    collector := {}, recordTimes := [], jobTimes := [], finished := [] }
  setWorld <| assignments.foldl (fun w assignment =>
    match e.functions[assignment.index]? with
    | none => w
    | some f =>
      w.start {
        index := assignment.index, function := f, siblings := assignment.siblings
        policy := e.policy, configuration := e.configuration }
        context (e.specifications.getD assignment.index .empty)) fresh
  setExperiment { e with
    specifications := e.specifications.mapIdx fun index specification =>
      if assignments.any (·.index = index) then .empty else specification }
  pure assignments.length

def failed? (w : World) : Option ReplayError :=
  w.finished.reverse.findSome? fun finish =>
    match finish.result with
    | .ok _ => none
    | .error error => some error

/-- Takes back the specification of a driver that has ended. -/
def settle (r : Driver.Report) : Trial Unit := do
  if r.terminatedEarly then report [.terminatedEarly r.name]
  let e ← experiment
  setExperiment { e with specifications := e.specifications.set r.index r.specification }

/-- Settles the drivers in the order in which they ended, up to the first that failed. -/
def settleAll : List Replay.Finish → Trial (Option ReplayError)
  | [] => pure none
  | finish :: others =>
    match finish.result with
    | .ok r => do
      settle r
      settleAll others
    | .error error => pure (some error)

def totals (w : World) : Summary :=
  w.finished.reverse.foldl (fun total finish =>
    match finish.result with
    | .ok r => total.add r.successful r.failed r.issued
    | .error _ => total) {}

/-- Lets time pass until a moment. -/
def passUntil (time : Nat) : Trial Unit := do
  let w ← world
  if w.clock.now < time then
    let w := w.sleepUntil time .idle
    setWorld (w.run (fun w => time ≤ w.clock.now) w.turns)

/-- Stops the sampling that started at a time and waits for its last sample. -/
def stopSampling (source : MetricSource) (started : Clock) : Trial Unit := do
  let e ← experiment
  let seconds := e.configuration.loader.scrapingPeriodSeconds
  if seconds = 0 then throw (.panicked Sampling.noPeriod)
  else
    let (samples, stopped) :=
      Sampling.run source (seconds * 1000) started e.samplesTaken (← world).clock.now
    setFiles (Sampling.fillFiles samples e.configuration (← files))
    setExperiment { e with samplesTaken := e.samplesTaken + samples.length }
    passUntil stopped

/-- Tells the collector something. -/
def tell (event : Collector.Event) : Trial Unit := do
  let w ← world
  report (w.collector.noticesOf event)
  setWorld { (← world) with collector := w.collector.accept event }

/-- After a failure no driver goes on.  Invocations do, but once the sampling has
stopped nobody listens to them. -/
def abandon (error : ReplayError) (started : Clock) : Trial Unit := do
  report [.replayFailed error]
  setWorld (← world).abort
  match activeSource (← experiment) with
  | some source =>
    tryCatch (stopSampling source started) fun cause => report [.samplingFailed cause]
  | none => pure ()
  setWorld { (← world) with
    lanes := (← world).lanes.map fun lane => { lane with sinkOpen := false } }

/-- What the collector has, once all drivers have ended and the streams are closed. -/
def collectAll (summary : Summary) (started : Clock) : Trial Unit := do
  match activeSource (← experiment) with
  | some source => stopSampling source started
  | none => pure ()
  tell (if 0 < summary.issued then .announced summary.issued.toNat else .unannounced)
  tell .recordsClosed
  tell .jobsClosed
  let collector := (← world).collector
  setFiles (collector.fillFiles (← experiment).configuration (← files))
  match collector.result with
  | .ok _ => pure ()
  | .error error => throw error

/-- Replays all functions and collects their records. -/
def replay : Trial Summary := do
  announceStart
  let e ← experiment
  createOutputs (Collector.paths e.configuration)
  if (activeSource e).isSome then createOutputs (Sampling.paths e.configuration)
  let started := (← world).clock
  let drivers ← startDrivers
  let w ← world
  let w := w.run (fun w => (failed? w).isSome || w.finished.length = drivers) w.turns
  setWorld w
  match ← settleAll w.finished.reverse with
  | some error =>
    abandon error started
    throw error
  | none =>
    if w.finished.length ≠ drivers then throw .stalled
    let summary := totals w
    collectAll summary started
    report [.finished summary.issued summary.successful summary.failed]
    pure summary

/-- A whole run.  With `gapsOnly` the specifications are generated and nothing is
invoked; with `generated` those of an earlier run are loaded. -/
def trial (gapsOnly generated : Bool) : Trial Summary := do
  if gapsOnly then
    generateSpecifications
    pure {}
  else
    deployAll
    if generated then loadSpecifications else generateSpecifications
    replay

/-- The result of a run, and how far it came. -/
def run (e : Experiment) (site : Site) (gapsOnly generated : Bool) :
    Except ReplayError Summary × Progress :=
  (trial gapsOnly generated).run.run { experiment := e, site := site }

end Experiment
end TraceReplay
