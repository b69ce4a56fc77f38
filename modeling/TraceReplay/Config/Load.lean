import TraceReplay.Config.File
import TraceReplay.Function.File
import TraceReplay.Yaml.Document

/-!
# Loading a configuration

The extension of its file tells the format: `yaml` and `yml` are YAML, all else is
JSON.  What is read is validated before it is used.
-/

namespace TraceReplay

/-- The one document of a UTF-8 text. -/
def Yaml.ofBytes (bytes : Bytes) : Option Yaml.Node := do
  Yaml.parse (← String.fromUTF8? ⟨bytes.toArray⟩).toList

def isYamlPath (path : String) : Bool :=
  Path.extension? path = some "yaml" || Path.extension? path = some "yml"

/-- The configuration in a file, not yet validated. -/
def Configuration.readFile (files : Files) (path : String) : Except ReplayError Configuration := do
  if isYamlPath path then
    match Yaml.ofBytes (← files.readFor path .yaml) >>= Configuration.read with
    | some config => .ok config
    | none => .error .yaml
  else
    match Json.parse (← files.readFor path .json) >>= Configuration.read with
    | some config => .ok config
    | none => .error .json

def Configuration.load (files : Files) (path : String) : Except ReplayError Configuration := do
  let config ← Configuration.readFile files path
  config.validate
  .ok config

end TraceReplay
