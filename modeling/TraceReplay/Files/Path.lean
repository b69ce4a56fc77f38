/-!
# Paths

Paths are text with components between slashes.  Empty components and single
dots name nothing; the text of a path is kept as it was given, because messages
show it.
-/

namespace TraceReplay.Path

/-- The components that name something; two dots are kept. -/
def components (path : String) : List String :=
  ((path.toList.splitOn '/').map String.ofList).filter fun name => name ≠ "" ∧ name ≠ "."

/-- What a path ends in, after its last component that is no single dot. -/
inductive Ending where
  | name
  | slash
  | dot
deriving Repr, DecidableEq

/-- A path that ends in a slash or a single dot can only lead to a directory. -/
def ending (path : String) : Ending :=
  match path.toList.reverse.dropWhile (· = '/') with
  | ['.'] | '.' :: '/' :: _ => .dot
  | _ => if path.toList.getLast? = some '/' then .slash else .name

/-- `path` without slashes, and components of a single dot, at its end. -/
def trimEnd (path : List Char) : List Char :=
  (go path.reverse).reverse
where
  go : List Char → List Char
    | '/' :: rest => go rest
    | '.' :: '/' :: rest => go rest
    | rest => rest

/-- The path of the directory that holds `path`: empty for a bare name, none for
a path without components. -/
def parent? (path : String) : Option String :=
  let trimmed := trimEnd path.toList
  if trimmed.isEmpty then none
  else
    let upper := (trimmed.reverse.dropWhile (· ≠ '/')).reverse
    let parent := trimEnd upper
    if parent.isEmpty ∧ ¬upper.isEmpty then some "/" else some (String.ofList parent)

/-- The path of `name` in the directory `dir`. -/
def join (dir name : String) : String :=
  if dir.isEmpty ∨ dir.toList.getLast? = some '/' then dir ++ name else dir ++ "/" ++ name

/-- What follows the last dot of the last component, unless that dot begins it. -/
def extension? (path : String) : Option String :=
  match (components path).getLast? with
  | none => none
  | some name =>
    let reversed := name.toList.reverse
    let suffix := reversed.takeWhile (· ≠ '.')
    if name = ".." ∨ reversed.length ≤ suffix.length + 1 then none
    else some (String.ofList suffix.reverse)

end TraceReplay.Path
