import TraceReplay.Policy

/-!
# Driver assignment

Which functions get a driver, and which functions are grouped with each of them.
-/

namespace TraceReplay

/-- A driver to start: the place of the driven function and its siblings. -/
structure Assignment where
  index : Nat
  siblings : List Function

/-- Groups in the order in which their keys first occur, members in order. -/
abbrev Groups := List (String × List Function)

/-- Adds a function at the end of its group, which is opened if it is new. -/
def Groups.add (groups : Groups) (f : Function) : Groups :=
  match groups with
  | [] => [(f.logicalName, [f])]
  | (key, members) :: rest =>
    if key = f.logicalName then (key, members ++ [f]) :: rest
    else (key, members) :: Groups.add rest f

def Groups.ofList (functions : List Function) : Groups := functions.foldl Groups.add []

/-- The members of a group, none if the key is unknown. -/
def Groups.members (groups : Groups) (key : String) : List Function :=
  (groups.lookup key).getD []

/-- Whether the function at a place gets a driver. -/
def SiblingGrouping.drives (grouping : SiblingGrouping) (index : Nat) : Bool :=
  match grouping with
  | .serverfulCopies replicas => index % max replicas 1 = 0
  | _ => true

def assignDrivers (functions : List Function) (grouping : SiblingGrouping) : List Assignment :=
  match grouping with
  | .all => functions.zipIdx.map fun (_, index) => ⟨index, functions⟩
  | _ =>
    let groups := Groups.ofList functions
    functions.zipIdx.filterMap fun (f, index) =>
      if grouping.drives index then some ⟨index, groups.members f.logicalName⟩ else none

end TraceReplay
