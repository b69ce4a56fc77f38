import TraceReplay.CommandLine.Options
import TraceReplay.Config.Load
import TraceReplay.Experiment
import TraceReplay.Invoker.Emulated
import TraceReplay.Synthesis

/-!
# Commands

What the program does when it is called: run an experiment against the emulated
function endpoint, or write a synthetic trace.
-/

namespace TraceReplay.CommandLine

/-- How an experiment is to be run. -/
structure Run where
  config : String
  functions : String
  promptFunctions : Option String := none
  gapsOnly : Bool := false
  generated : Bool := false
  testMode : Bool := false
deriving DecidableEq, Repr

inductive Command where
  | run (run : Run)
  | synthesize (ramp : Ramp) (output : String)

def runOptions : List KnownOption :=
  [{ name := "config", short := some 'c' }, { name := "functions", short := some 'f' },
    { name := "prompt-functions" }, { name := "iat-only", takesValue := false },
    { name := "generated", takesValue := false }, { name := "test-mode", takesValue := false }]

def synthesizeOptions : List KnownOption :=
  [{ name := "count", short := some 'c' }, { name := "beginning", short := some 'b' },
    { name := "target", short := some 't' }, { name := "step", short := some 's' },
    { name := "duration", short := some 'd' }, { name := "execution", short := some 'e' },
    { name := "memory", short := some 'm' }, { name := "output", short := some 'o' },
    { name := "seed" }]

def readRun (args : List String) : Option Command := do
  let given ← given? runOptions args
  some (.run {
    config := ← given.path? "config"
    functions := ← given.path? "functions"
    promptFunctions := ← given.optionalPath? "prompt-functions"
    gapsOnly := given.switch "iat-only"
    generated := given.switch "generated"
    testMode := given.switch "test-mode" })

def defaultSeed : Nat := 123

def readSynthesize (args : List String) : Option Command := do
  let given ← given? synthesizeOptions args
  let seed ← if given.switch "seed" then given.word? "seed" else some defaultSeed
  let ramp : Ramp := {
    functions := ← given.word? "count"
    beginning := ← given.word? "beginning"
    target := ← given.word? "target"
    step := ← given.word? "step"
    duration := ← given.word? "duration"
    execution := ← given.halfWord? "execution"
    memory := ← given.halfWord? "memory"
    seed := UInt64.ofNat seed }
  some (.synthesize ramp (← given.path? "output"))

/-- The command that arguments ask for, if they are in order. -/
def Command.ofArgs? : List String → Option Command
  | "run" :: args => readRun args
  | "synthesize" :: args => readSynthesize args
  | _ => none

/-- What is printed about a finished experiment. -/
def summaryText (name : String) (s : Summary) : String :=
  let failureRate :=
    if 0 < s.issued then
      "- failure rate = "
        ++ Decimal.plain.write (Binary64.ofRank (Binary64.ratioRank s.failed s.issued)) ++ "\n"
    else ""
  s!"describing {name}\n"
    ++ "- " ++ Decimal.intText s.issued ++ " issued invocations\n"
    ++ "- " ++ Decimal.intText s.successful ++ " successful invocations\n"
    ++ "- " ++ Decimal.intText s.failed ++ " failed invocations\n"
    ++ failureRate

/-- The experiment a command asks for. -/
def Run.experiment (r : Run) (files : Files) : Except ReplayError Experiment := do
  let loader ← Configuration.load files r.config
  let configuration := { ReplayConfiguration.ofLoader loader with testMode := r.testMode }
  let functions ← loadFunctions files r.functions
  let promptFunctions ← match r.promptFunctions with
    | some path => loadFunctions files path
    | none => .ok []
  let (_, e) := Experiment.new configuration functions .emulated
  .ok { e with promptFunctions := promptFunctions }

/-- Runs the experiment: what is printed, and the site afterwards. -/
def Run.execute (r : Run) (site : Site) : Except ReplayError String × Site :=
  match r.experiment site.files with
  | .error error => (.error error, site)
  | .ok e =>
    let (result, progress) := e.run site r.gapsOnly r.generated
    let text := result.map fun summary =>
      if r.gapsOnly then "" else summaryText e.configuration.loader.clientTraining summary
    (text, progress.site)

/-- Writes the functions of a ramp. -/
def writeTrace (ramp : Ramp) (output : String) (files : Files) :
    Except ReplayError (String × Files) := do
  let functions ← ramp.synthesize
  let files ← saveFunctions files output functions
  let count := functions.length
  .ok (s!"Saved {count} functions to {output}\n", files)

/-- What a command prints, and the site afterwards. -/
def Command.execute (command : Command) (site : Site) : Except ReplayError String × Site :=
  match command with
  | .run r => r.execute site
  | .synthesize ramp output =>
    match writeTrace ramp output site.files with
    | .error error => (.error error, site)
    | .ok (text, files) => (.ok text, { site with files := files })

/-! ## Files -/

/-- The files a command names itself. -/
def Command.inputs : Command → List String
  | .run r => [r.config, r.functions] ++ r.promptFunctions.toList
  | .synthesize _ output => [output]

/-- The files a command may read or write besides, once those it names are there. -/
def Command.workingFiles (command : Command) (files : Files) : List String :=
  match command with
  | .run r =>
    match r.experiment files with
    | .ok e =>
      let dir := e.configuration.loader.specificationDir
      (List.range e.functions.length).map (Specification.path dir)
        ++ Collector.paths e.configuration
    | .error _ => []
  | .synthesize _ output => [output]

end TraceReplay.CommandLine
