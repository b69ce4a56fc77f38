import TraceReplay.Function.File
import TraceReplay.Output.Lines
import TraceReplay.Output.Table

/-!
# Output files

An output file is created with the directories above it before anything is
written, and holds the rows or lines of its stream once the stream has ended.
-/

namespace TraceReplay

def utf8Bytes (s : String) : Bytes := s.toUTF8.toList

/-- Creates an empty file and the directories above it. -/
def Files.createOutput (files : Files) (path : String) : Except ReplayError Files := do
  let files ← match Path.parent? path with
    | none => .ok files
    | some parent =>
      match if parent.isEmpty then .ok files else files.createDirs parent with
      | .error fault => .error (.file parent fault)
      | .ok files => .ok files
  files.writeFor path []

def Files.createOutputs (files : Files) (paths : List String) : Except ReplayError Files :=
  paths.foldlM createOutput files

/-- The files with the given texts, and the directories they are in. -/
def Files.ofTexts (texts : List (String × String)) : Except Fault Files :=
  texts.foldlM (fun files (path, text) => do
    let files ← match Path.parent? path with
      | some parent => if parent.isEmpty then .ok files else files.createDirs parent
      | none => .ok files
    files.write path (utf8Bytes text)) empty

/-- The text of a file, if there is one. -/
def Files.text? (files : Files) (path : String) : Option String :=
  match files.read path with
  | .ok (some content) => String.fromUTF8? ⟨content.toArray⟩
  | _ => none

/-- Replaces the content of a file that has been created. -/
def Files.fill (files : Files) (path : String) (content : Bytes) : Files :=
  match files.write path content with
  | .ok files => files
  | .error _ => files

/-- The text of a table of records; a record with a list among its fields is no row. -/
def tableText {α : Type} (header : List String) (row? : α → Option (List String))
    (records : List α) : Except ReplayError String :=
  match records.mapM row? with
  | some rows => .ok (Table.write header rows)
  | none => .error .csv

end TraceReplay
