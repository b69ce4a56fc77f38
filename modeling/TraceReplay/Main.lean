import TraceReplay.CommandLine

/-!
# The program

Takes over the files a command works with, executes the command on them, and writes
back what it has changed.  A replay passes on its own clock, so the program does not
wait for it.
-/

namespace TraceReplay.Program

open CommandLine

/-- A path after the directories above it. -/
def lineage (path : String) : List String := go path.length path [path]
where
  go : Nat → String → List String → List String
    | 0, _, found => found
    | fuel + 1, path, found =>
      match Path.parent? path with
      | some parent => if parent.isEmpty then found else go fuel parent (parent :: found)
      | none => found

/-- What stands at a path, if anything does. -/
def takeOver (files : Files) (path : String) : IO Files := do
  try
    let place ← IO.FS.realPath path
    let taken ← if ← place.isDir then pure (files.createDirs path)
      else
        let content ← IO.FS.readBinFile path
        pure (files.write path content.toList)
    return taken.toOption.getD files
  catch _ => return files

def takeOverAll (files : Files) (paths : List String) : IO Files :=
  (paths.flatMap lineage).foldlM takeOver files

/-- Writes a file that differs from what it was, and makes the directories it is in. -/
def writeBack (old new : Files) (path : String) : IO Unit := do
  match Path.parent? path with
  | some parent =>
    if !parent.isEmpty && (new.read parent).toOption = some none then IO.FS.createDirAll parent
  | none => pure ()
  match (new.read path).toOption.join, (old.read path).toOption.join with
  | some content, before =>
    if before ≠ some content then IO.FS.writeBinFile path ⟨content.toArray⟩
  | none, _ => pure ()

def execute (command : Command) : IO UInt32 := do
  let files ← takeOverAll .empty command.inputs
  let working := command.workingFiles files
  let files ← takeOverAll files working
  let (result, site) := command.execute { files := files }
  for path in working do
    writeBack files site.files path
  for notice in site.world.notices.reverse do
    IO.eprintln notice.line
  match result with
  | .ok text =>
    IO.print text
    return 0
  | .error error =>
    IO.eprintln error.message
    return 1

end TraceReplay.Program

def main (args : List String) : IO UInt32 := do
  match TraceReplay.CommandLine.Command.ofArgs? args with
  | some command => TraceReplay.Program.execute command
  | none =>
    IO.eprintln "the arguments are not those of a command"
    return 2
