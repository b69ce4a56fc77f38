import TraceReplay.Json.Document

/-!
# Members of JSON objects

Access to single members by key, for objects whose members are all optional or are
looked at one by one.  Of several members with one key the first counts.
-/

namespace TraceReplay.Json

variable {α : Type}

def member? (j : Json) (key : String) : Option Json :=
  match j with
  | .object members => (members.find? fun (k, _) => decodeText k == some key).map (·.2)
  | _ => none

/-- A member that has to be there. -/
def field? (j : Json) (key : String) (read : Json → Option α) : Option α :=
  (j.member? key).bind read

/-- A member with a value to fall back on if it is missing or null. -/
def fieldOr (j : Json) (key : String) (read : Json → Option α) (fallback : α) : Option α :=
  match j.member? key with
  | none => some fallback
  | some .null => some fallback
  | some value => read value

/-- A member that may be missing or null. -/
def optional? (j : Json) (key : String) (read : Json → Option α) : Option (Option α) :=
  j.fieldOr key (fun value => (read value).map some) none

/-- The members of `patch` and those of `j` that it leaves alone. -/
def merge (j patch : Json) : Json :=
  match j, patch with
  | .object old, .object new =>
    .object (new ++ old.filter fun (key, _) => !(new.any (·.1 == key)))
  | j, _ => j

end TraceReplay.Json
