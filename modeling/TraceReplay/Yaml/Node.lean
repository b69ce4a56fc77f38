import TraceReplay.Yaml.Layout

/-!
# Documents in YAML

The tree of a text that holds one document.  Aliases are replaced by the value
they name.
-/

namespace TraceReplay.Yaml

inductive Node where
  | scalar (plain : Bool) (tag : Option Tag) (text : String)
  | sequence (items : List Node)
  | mapping (entries : List (Node × Node))
  /-- An alias inside the value it names. -/
  | loop

/-- The value that is not written. -/
def Node.empty : Node := .scalar true none "~"

/-- The tokens left to read, and the values named so far; a value that is still
being read has a name already. -/
structure Source where
  tokens : List Token
  anchors : List (String × Node) := []

abbrev Build := StateT Source Option

namespace Build

def peek : Build (Option Token) := return (← get).tokens.head?

def skip : Build Unit := modify fun s => { s with tokens := s.tokens.tail }

def name (anchor : Option String) (node : Node) : Build Unit :=
  match anchor with
  | some a => modify fun s => { s with anchors := (a, node) :: s.anchors }
  | none => pure ()

def named (anchor : String) : Build Node := do
  match (← get).anchors.lookup anchor with
  | some node => pure node
  | none => failure

/-- Reads a token if it is the next one. -/
def accept (t : Token) : Build Bool := do
  if (← peek) = some t then
    skip
    pure true
  else pure false

def expect (t : Token) : Build Unit := do
  if ← accept t then pure () else failure

/-- The anchor and the tag of a value, in either order. -/
def properties : Build (Option String × Option Tag) := do
  match ← peek with
  | some (.anchor a) =>
    skip
    match ← peek with
    | some (.tag t) =>
      skip
      pure (some a, some t)
    | _ => pure (some a, none)
  | some (.tag t) =>
    skip
    match ← peek with
    | some (.anchor a) =>
      skip
      pure (some a, some t)
    | _ => pure (none, some t)
  | _ => pure (none, none)

def nextIn (stops : List Token) : Build Bool := do
  match ← peek with
  | some t => pure (stops.contains t)
  | none => pure false

mutual

/-- One value.  Block collections are read if `block` allows them, a sequence that
is not indented if `loose` does.  Nesting costs `fuel`. -/
def node : Nat → Bool → Bool → Build Node
  | 0, _, _ => failure
  | fuel + 1, block, loose => do
    match ← peek with
    | some (.alias a) =>
      skip
      named a
    | _ =>
      let (anchor, tag) ← properties
      name anchor .loop
      let result ← content fuel block loose anchor tag
      name anchor result
      pure result

def content : Nat → Bool → Bool → Option String → Option Tag → Build Node
  | 0, _, _, _, _ => failure
  | fuel + 1, block, loose, anchor, tag => do
    match ← peek with
    | some (.scalar plain text) =>
      skip
      pure (.scalar plain tag text)
    | some .flowSequence =>
      skip
      return .sequence (← flowItems fuel true)
    | some .flowMapping =>
      skip
      return .mapping (← flowEntries fuel true)
    | some t =>
      if t = .entry ∧ loose then return .sequence (← looseItems fuel)
      else if t = .blockSequence ∧ block then
        skip
        return .sequence (← blockItems fuel)
      else if t = .blockMapping ∧ block then
        skip
        return .mapping (← blockEntries fuel)
      else if anchor.isSome ∨ tag.isSome then pure (.scalar true tag "~")
      else failure
    | none =>
      if anchor.isSome ∨ tag.isSome then pure (.scalar true tag "~") else failure

/-- The items of a sequence that stands as far out as the mapping around it. -/
def looseItems : Nat → Build (List Node)
  | 0 => failure
  | fuel + 1 => do
    if ← accept .entry then
      let item ← if ← nextIn [.entry, .key, .value, .blockEnd] then pure Node.empty
        else node fuel true false
      return item :: (← looseItems fuel)
    else pure []

def blockItems : Nat → Build (List Node)
  | 0 => failure
  | fuel + 1 => do
    if ← accept .blockEnd then pure []
    else
      expect .entry
      let item ← if ← nextIn [.entry, .blockEnd] then pure Node.empty else node fuel true false
      return item :: (← blockItems fuel)

def blockEntries : Nat → Build (List (Node × Node))
  | 0 => failure
  | fuel + 1 => do
    if ← accept .blockEnd then pure []
    else
      let key ←
        if ← accept .key then
          if ← nextIn [.key, .value, .blockEnd] then pure Node.empty else node fuel true true
        else if ← nextIn [.value] then pure Node.empty
        else failure
      let value ←
        if ← accept .value then
          if ← nextIn [.key, .value, .blockEnd] then pure Node.empty else node fuel true true
        else pure Node.empty
      return (key, value) :: (← blockEntries fuel)

/-- The items up to the closing bracket.  A key among them is a mapping of one entry. -/
def flowItems : Nat → Bool → Build (List Node)
  | 0, _ => failure
  | fuel + 1, first => do
    if ← accept .flowSequenceEnd then pure []
    else
      if !first then expect .comma
      if ← accept .flowSequenceEnd then pure []
      else
        let item ←
          if ← accept .key then return (← pairItem fuel) :: (← flowItems fuel false)
          else node fuel false false
        return item :: (← flowItems fuel false)

/-- A mapping of one entry inside a sequence, after its key sign.  If the key is
missing, the sign that shows it is passed over. -/
def pairItem : Nat → Build Node
  | 0 => failure
  | fuel + 1 => do
    let key ←
      if ← nextIn [.value, .comma, .flowSequenceEnd] then
        skip
        pure Node.empty
      else node fuel false false
    let value ←
      if ← accept .value then
        if ← nextIn [.comma, .flowSequenceEnd] then pure Node.empty else node fuel false false
      else pure Node.empty
    return .mapping [(key, value)]

def flowEntries : Nat → Bool → Build (List (Node × Node))
  | 0, _ => failure
  | fuel + 1, first => do
    if ← accept .flowMappingEnd then pure []
    else
      if !first then expect .comma
      if ← accept .flowMappingEnd then pure []
      else if ← accept .key then
        let key ← if ← nextIn [.value, .comma, .flowMappingEnd] then pure Node.empty
          else node fuel false false
        let value ← flowValue fuel
        return (key, value) :: (← flowEntries fuel false)
      else if ← nextIn [.value] then
        let value ← flowValue fuel
        return (Node.empty, value) :: (← flowEntries fuel false)
      else
        let key ← node fuel false false
        return (key, Node.empty) :: (← flowEntries fuel false)

def flowValue : Nat → Build Node
  | 0 => failure
  | fuel + 1 => do
    if ← accept .value then
      if ← nextIn [.comma, .flowMappingEnd] then pure Node.empty else node fuel false false
    else pure Node.empty

end

def skipWhile (t : Token) : Nat → Build Unit
  | 0 => pure ()
  | fuel + 1 => do if ← accept t then skipWhile t fuel

/-- The one document of a text.  Directives need a document mark after them; after
the document nothing may come but marks that end it. -/
def document (fuel : Nat) : Build Node := do
  let directives ← nextIn [.directive]
  skipWhile .directive fuel
  let marked ← accept .documentStart
  if directives && !marked then failure
  let empty ← nextIn [.directive, .documentStart, .documentEnd]
  let finished := (← peek).isNone
  if finished && !marked then failure
  let result ← if marked && (empty || finished) then pure Node.empty
    else node fuel true false
  skipWhile .documentEnd fuel
  if (← peek).isSome then failure
  pure result

end Build

/-- The one document of a text, which a NUL ends. -/
def parse (text : List Char) : Option Node := do
  let text := text.takeWhile (· ≠ beyond)
  let tokens ← tokens? text
  let (node, _) ← (Build.document (4 * tokens.length + 4)).run { tokens := tokens }
  some node

end TraceReplay.Yaml
