import TraceReplay.Yaml.Token
import TraceReplay.Yaml.Scalar

/-!
# Layout

Indentation becomes brackets.  A colon tells that what stands before it was a key,
so the last place where a key may have begun is remembered for each pair of
brackets; when the colon comes, the key is announced there, and a block mapping is
opened before it if its column is further in than the block around it.
-/

namespace TraceReplay.Yaml

/-- A place where a key may have begun. -/
structure Candidate where
  cursor : Cursor
  /-- Tokens before it. -/
  position : Nat
  /-- Nothing but a key may stand here. -/
  required : Bool

structure Layout where
  cursor : Cursor
  tokens : Array Token := #[]
  /-- Pairs of brackets around the cursor. -/
  depth : Nat := 0
  /-- The column of the innermost block, −1 outside all blocks. -/
  column : Int := -1
  /-- The columns of the blocks around it. -/
  outerColumns : List Int := []
  keyAllowed : Bool := true
  candidate : Option Candidate := none
  /-- The candidates outside the innermost brackets, one for each pair. -/
  outerCandidates : List (Option Candidate) := []
  /-- Where the last quoted scalar ended: there a colon needs no blank after it. -/
  adjacent : Nat := 0

namespace Layout

def emit (s : Layout) (t : Token) : Layout := { s with tokens := s.tokens.push t }

def insertAt (s : Layout) (position : Nat) (t : Token) : Layout :=
  { s with
    tokens := s.tokens.extract 0 position ++ #[t] ++ s.tokens.extract position s.tokens.size }

/-- Emits a token written as `n` characters. -/
def sign (s : Layout) (t : Token) (n : Nat) : Layout :=
  { s.emit t with cursor := s.cursor.advance n }

def allowKey (s : Layout) (allowed : Bool) : Layout := { s with keyAllowed := allowed }

/-- Past blanks, comments and line breaks.  Outside brackets a line break allows a
key; a tab there is no space where a key may begin. -/
def skipGaps : Nat → Layout → Layout
  | 0, s => s
  | fuel + 1, s =>
    let x := s.cursor.peek 0
    if x = ' ' || (x = '\t' && (s.depth ≠ 0 || !s.keyAllowed)) then
      skipGaps fuel { s with cursor := s.cursor.next }
    else if isBreak x then
      skipGaps fuel
        { s with cursor := s.cursor.dropBreak, keyAllowed := s.keyAllowed || s.depth = 0 }
    else if x = '#' then skipGaps fuel { s with cursor := s.cursor.dropLine }
    else s

/-- A key is on one line and at most 1024 characters long. -/
def Candidate.isStale (k : Candidate) (c : Cursor) : Bool :=
  k.cursor.line < c.line || k.cursor.index + 1024 < c.index

/-- A candidate that can no longer be a key is given up, unless it has to be one. -/
def fresh (c : Cursor) (candidate : Option Candidate) : Option (Option Candidate) :=
  match candidate with
  | some k =>
    if Candidate.isStale k c then (if k.required then none else some none) else some (some k)
  | none => some none

def expire (s : Layout) : Option Layout := do
  some { s with
    candidate := ← fresh s.cursor s.candidate
    outerCandidates := ← s.outerCandidates.mapM (fresh s.cursor) }

/-- The innermost candidate is no key. -/
def giveUp (s : Layout) : Option Layout :=
  if s.candidate.any (·.required) then none else some { s with candidate := none }

/-- A key may begin at the cursor. -/
def propose (s : Layout) : Option Layout := do
  if s.keyAllowed then
    let s ← s.giveUp
    some { s with candidate := some {
      cursor := s.cursor
      position := s.tokens.size
      required := s.depth ≠ 0 && s.column = s.cursor.column } }
  else some s

/-- Opens a block at a column further in than the block around it. -/
def indentTo (s : Layout) (column : Nat) (position : Nat) (t : Token) : Layout :=
  if s.depth = 0 ∧ s.column < column then
    { s.insertAt position t with column := column, outerColumns := s.column :: s.outerColumns }
  else s

/-- Closes the blocks further in than a column. -/
def closeTo (target : Int) : List Int → Layout → Layout
  | outer :: rest, s =>
    if s.depth = 0 ∧ target < s.column then
      closeTo target rest { s.emit .blockEnd with column := outer, outerColumns := rest }
    else s
  | [], s => s

def dedentTo (s : Layout) (target : Int) : Layout := closeTo target s.outerColumns s

/-! ## Tokens -/

def openFlow (s : Layout) (t : Token) : Option Layout := do
  let s ← s.propose
  if s.depth = 255 then none
  else
    some ({ s with
      depth := s.depth + 1, keyAllowed := true, candidate := none
      outerCandidates := s.candidate :: s.outerCandidates }.sign t 1)

def closeFlow (s : Layout) (t : Token) : Option Layout := do
  let s ← s.giveUp
  let s := match s.outerCandidates with
    | outer :: rest =>
      { s with depth := s.depth - 1, candidate := outer, outerCandidates := rest }
    | [] => s
  some ((s.allowKey false).sign t 1)

def comma (s : Layout) : Option Layout := do
  some (((← s.giveUp).allowKey true).sign .comma 1)

/-- A hyphen begins an entry of a block sequence only where a key might begin. -/
def blockEntry (s : Layout) : Option Layout := do
  if s.depth ≠ 0 || !s.keyAllowed then none
  else
    let s := s.indentTo s.cursor.column s.tokens.size .blockSequence
    some (((← s.giveUp).allowKey true).sign .entry 1)

def explicitKey (s : Layout) : Option Layout := do
  if s.depth = 0 && !s.keyAllowed then none
  else
    let s := s.indentTo s.cursor.column s.tokens.size .blockMapping
    let s ← s.giveUp
    some ((s.allowKey (s.depth = 0)).sign .key 1)

def value (s : Layout) : Option Layout :=
  match s.candidate with
  | some k =>
    let s := (s.insertAt k.position .key).indentTo k.cursor.column k.position .blockMapping
    some (({ s with candidate := none }.allowKey false).sign .value 1)
  | none =>
    if s.depth = 0 && !s.keyAllowed then none
    else
      let s := s.indentTo s.cursor.column s.tokens.size .blockMapping
      some ((s.allowKey (s.depth = 0)).sign .value 1)

/-- The line of a mark that begins or ends a document. -/
def documentMark (s : Layout) (t : Token) : Option Layout := do
  some (((← (s.dedentTo (-1)).giveUp).allowKey false).sign t 3)

def directive (s : Layout) : Option Layout := do
  let s ← (s.dedentTo (-1)).giveUp
  some ({ s with cursor := ← readDirective s.cursor, keyAllowed := false }.emit .directive)

/-- A token that may begin a key, read by `read`. -/
def content (s : Layout) (read : Cursor → Option (Token × Cursor)) : Option Layout := do
  let s ← s.propose
  let (t, c) ← read s.cursor
  some ({ s with cursor := c, keyAllowed := false }.emit t)

def quoted (s : Layout) (single : Bool) : Option Layout := do
  let s ← s.content fun c => (quotedScalar single c).map fun (text, c) => (.scalar false text, c)
  some { s with adjacent := s.cursor.index }

def block (s : Layout) (literal : Bool) : Option Layout := do
  let s ← s.propose
  let (text, c) ← blockScalar literal s.column s.cursor
  some ({ s with cursor := c, keyAllowed := true }.emit (.scalar false text))

def plain (s : Layout) : Option Layout := do
  let s ← s.propose
  let (text, broken, c) ← plainScalar (s.depth ≠ 0) s.column s.cursor
  some ({ s with cursor := c, keyAllowed := broken }.emit (.scalar true text))

/-- One token, or a key that turned out to be one. -/
def token (s : Layout) : Option Layout :=
  let c := s.cursor
  let x := c.peek 0
  let following := c.peek 1
  let flow : Bool := s.depth ≠ 0
  let alone := endsWord following
  if c.column = 0 && x = '%' then s.directive
  else if c.atMark '-' then s.documentMark .documentStart
  else if c.atMark '.' then s.documentMark .documentEnd
  else if x = '[' then s.openFlow .flowSequence
  else if x = '\x7b' then s.openFlow .flowMapping
  else if x = ']' then s.closeFlow .flowSequenceEnd
  else if x = '\x7d' then s.closeFlow .flowMappingEnd
  else if x = ',' then s.comma
  else if x = '-' && alone then s.blockEntry
  else if x = '?' && alone then s.explicitKey
  else if x = ':' && (alone || (flow && (isFlowMark following || c.index = s.adjacent))) then
    s.value
  else if x = '*' then s.content fun c => (anchorName c).map fun (n, c) => (.alias n, c)
  else if x = '&' then s.content fun c => (anchorName c).map fun (n, c) => (.anchor n, c)
  else if x = '!' then s.content fun c => (readTag c).map fun (t, c) => (.tag t, c)
  else if x = '|' && !flow then s.block true
  else if x = '>' && !flow then s.block false
  else if x = singleQuote then s.quoted true
  else if x = doubleQuote then s.quoted false
  else if ['%', '@', '\x60'].contains x then none
  else s.plain

/-- All tokens up to the end of the text; each costs one unit of `fuel`. -/
def run : Nat → Layout → Option (List Token)
  | 0, _ => none
  | fuel + 1, s => do
    let s := skipGaps (s.cursor.rest.length + 1) s
    let s := (← s.expire).dedentTo s.cursor.column
    if s.cursor.rest.isEmpty then
      some (← (s.dedentTo (-1)).giveUp).tokens.toList
    else run fuel (← s.token)

end Layout

/-- The tokens of a text. -/
def tokens? (text : List Char) : Option (List Token) :=
  Layout.run (text.length + 1) { cursor := { rest := text } }

end TraceReplay.Yaml
