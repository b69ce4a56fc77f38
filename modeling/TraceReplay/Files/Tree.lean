import TraceReplay.Files.Path
import TraceReplay.Json.Tree

/-!
# A directory tree

The files a run reads and writes, as a value: locations with the bytes of a file
or the mark of a directory.  The working directory is the empty location and is
always there.
-/

namespace TraceReplay

inductive Files.Entry where
  | file (content : Bytes)
  | directory
deriving Repr

/-- Why an operation on files fails. -/
inductive Files.Fault where
  | notFound
  | notADirectory
  | isADirectory
  | alreadyExists
deriving Repr, DecidableEq

/-- A working directory and everything below it. -/
structure Files where
  entries : List (List String × Files.Entry)
deriving Repr

namespace Files

def empty : Files := ⟨[]⟩

def entryAt (files : Files) (location : List String) : Option Entry :=
  if location.isEmpty then some .directory else files.entries.lookup location

def set (files : Files) (location : List String) (entry : Entry) : Files :=
  if (files.entries.lookup location).isSome then
    ⟨files.entries.map fun (at_, old) => if at_ = location then (at_, entry) else (at_, old)⟩
  else ⟨files.entries ++ [(location, entry)]⟩

/-- The location the components lead to from `location`: every component but the
last has to lead to a directory. -/
def follow (files : Files) : List String → List String → Except Fault (List String)
  | location, [] => .ok location
  | location, name :: names =>
    match files.entryAt location with
    | none => .error .notFound
    | some (.file _) => .error .notADirectory
    | some .directory =>
      follow files (if name = ".." then location.dropLast else location ++ [name]) names

def locate (files : Files) (path : String) : Except Fault (List String) :=
  if path.isEmpty then .error .notFound else files.follow [] (Path.components path)

/-- The content of a file; none for a directory, which opens but has no content. -/
def read (files : Files) (path : String) : Except Fault (Option Bytes) := do
  match files.entryAt (← files.locate path) with
  | none => .error .notFound
  | some .directory => .ok none
  | some (.file content) =>
    if Path.ending path = .name then .ok (some content) else .error .notADirectory

/-- Creates the file, or replaces what it held. -/
def write (files : Files) (path : String) (content : Bytes) : Except Fault Files := do
  let location ← files.locate path
  match files.entryAt location, Path.ending path with
  | some .directory, _ => .error .isADirectory
  | _, .slash => .error .isADirectory
  | some (.file _), .dot => .error .notADirectory
  | none, .dot => .error .notFound
  | _, .name => .ok (files.set location (.file content))

/-- Makes the directories the components lead through from `location`. -/
def makeAlong (files : Files) : List String → List String → Except Fault Files
  | _, [] => .ok files
  | location, name :: names =>
    let next := if name = ".." then location.dropLast else location ++ [name]
    match files.entryAt next with
    | none => makeAlong (files.set next .directory) next names
    | some .directory => makeAlong files next names
    | some (.file _) => .error (if names.isEmpty then .alreadyExists else .notADirectory)

/-- Makes a directory with everything above it; what is there already stays. -/
def createDirs (files : Files) (path : String) : Except Fault Files :=
  files.makeAlong [] (Path.components path)

/-- Paths of all files, in the order of their creation. -/
def filePaths (files : Files) : List String :=
  files.entries.filterMap fun (location, entry) =>
    match entry with
    | .file _ => some (String.intercalate "/" location)
    | .directory => none

end Files
end TraceReplay
