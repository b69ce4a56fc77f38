import TraceReplay.Yaml.Cursor

/-!
# Texts of scalars

The three ways a scalar is written.  Plain and quoted scalars run over lines: a
single line break inside them reads as a space, each further one as itself.  A
block scalar is made of the indented lines after its header.
-/

namespace TraceReplay.Yaml

/-- Line breaks in a run of white space. -/
def breakCount : List Char → Nat
  | '\r' :: '\n' :: rest => breakCount rest + 1
  | c :: rest => if isBreak c then breakCount rest + 1 else breakCount rest
  | [] => 0

/-- What a run of white space inside a scalar reads as.  After an escaped line
break the line has been joined already, so all breaks of the run are kept. -/
def foldGap (joined : Bool) (gap : List Char) : List Char :=
  let breaks := breakCount gap
  if joined then List.replicate breaks '\n'
  else if breaks = 0 then gap
  else if breaks = 1 then [' ']
  else List.replicate (breaks - 1) '\n'

/-! ## Quoted scalars -/

def singleQuote : Char := '\x27'
def doubleQuote : Char := '\x22'
def backslash : Char := '\x5c'

/-- Characters written after a backslash, with what they stand for. -/
def escapes : List (Char × Char) :=
  [('0', '\x00'), ('a', '\x07'), ('b', '\x08'), ('t', '\t'), ('\t', '\t'), ('n', '\n'),
    ('v', '\x0b'), ('f', '\x0c'), ('r', '\r'), ('e', '\x1b'), (' ', ' '),
    (doubleQuote, doubleQuote), (singleQuote, singleQuote), (backslash, backslash),
    ('N', '\u0085'), ('_', '\u00a0'), ('L', '\u2028'), ('P', '\u2029')]

/-- How many hexadecimal digits follow the letter of an escape. -/
def hexEscapes : List (Char × Nat) := [('x', 2), ('u', 4), ('U', 8)]

def scalarValue? (n : Nat) : Option Char :=
  if n.isValidChar then some (Char.ofNat n) else none

/-- The character of an escape that begins at the cursor, and what follows it. -/
def readEscape (c : Cursor) : Option (Char × Cursor) :=
  let letter := c.peek 1
  match escapes.lookup letter, hexEscapes.lookup letter with
  | some char, _ => some (char, c.advance 2)
  | none, some width => do
    let digits := (c.advance 2).rest.take width
    if digits.length < width then none
    else
      let char ← scalarValue? (← digitsValue? 16 digits)
      some (char, c.advance (2 + width))
  | none, none => none

/-- The text up to the closing quote, after `before`, which is reversed.  Each
step costs one unit of `fuel`. -/
def readQuoted (single : Bool) : Nat → Cursor → List Char → Option (String × Cursor)
  | 0, _, _ => none
  | fuel + 1, c, before =>
    let x := c.peek 0
    if c.atDocumentMark || x = beyond then none
    else if single && x = singleQuote then
      if c.peek 1 = singleQuote then readQuoted single fuel (c.advance 2) (singleQuote :: before)
      else some (String.ofList before.reverse, c.next)
    else if !single && x = doubleQuote then some (String.ofList before.reverse, c.next)
    else if !single && x = backslash then
      if isBreak (c.peek 1) then
        let (gap, c) := c.next.dropBreak.takeWhile isGap
        readQuoted single fuel c (foldGap true gap ++ before)
      else
        match readEscape c with
        | some (char, c) => readQuoted single fuel c (char :: before)
        | none => none
    else if isGap x then
      let (gap, c) := c.takeWhile isGap
      readQuoted single fuel c ((foldGap false gap).reverse ++ before)
    else readQuoted single fuel c.next (x :: before)

/-- A quoted scalar that begins at the cursor. -/
def quotedScalar (single : Bool) (c : Cursor) : Option (String × Cursor) :=
  readQuoted single (c.rest.length + 1) c.next []

/-! ## Plain scalars -/

/-- The characters up to the end of a word of a plain scalar: a gap, a colon that
ends a key and, between brackets, their punctuation. -/
def plainWord (flow : Bool) : List Char → List Char
  | [] => []
  | x :: rest =>
    let following := rest.headD beyond
    if endsWord x then []
    else if x = ':' && (endsWord following || (flow && isFlowMark following)) then []
    else if flow && isFlowMark x then []
    else x :: plainWord flow rest

/-- Whether a tab stands before column `indent` of a line that begins inside a
run of white space. -/
def tabIndented (indent : Int) : Bool → Nat → List Char → Bool
  | _, _, [] => false
  | begun, column, x :: rest =>
    if begun && x = '\t' && column < indent then true
    else if x = '\n' then tabIndented indent true 0 rest
    else tabIndented indent (begun || x = '\r') (column + 1) rest

/-- The text of a plain scalar after `before`, which is reversed, and the gap that
follows it; also whether a line break ends the scalar.  Continuation lines reach
column `indent`. -/
def readPlain (flow : Bool) (indent : Int) :
    Nat → Cursor → List Char → List Char → Option (String × Bool × Cursor)
  | 0, _, _, _ => none
  | fuel + 1, c, before, gap =>
    if c.atDocumentMark || c.peek 0 = '#' then
      some (String.ofList before.reverse, breakCount gap ≠ 0, c)
    else
      let word := plainWord flow c.rest
      let after := c.advance word.length
      let (before, pending) :=
        if word.isEmpty then (before, gap)
        else (word.reverse ++ (foldGap false gap).reverse ++ before, [])
      let (following, beyondGap) := after.takeWhile isGap
      if following.isEmpty then
        some (String.ofList before.reverse, breakCount pending ≠ 0, after)
      else if tabIndented indent false after.column following then none
      else if !flow && beyondGap.column < indent then
        some (String.ofList before.reverse, breakCount (pending ++ following) ≠ 0, beyondGap)
      else readPlain flow indent fuel beyondGap before (pending ++ following)

/-- A plain scalar that begins at the cursor, inside a block at column `indent`. -/
def plainScalar (flow : Bool) (indent : Int) (c : Cursor) : Option (String × Bool × Cursor) :=
  readPlain flow (indent + 1) (c.rest.length + 1) c [] []

/-! ## Block scalars -/

/-- What happens to the line breaks at the end of a block scalar. -/
inductive Chomping where
  | strip
  | clip
  | keep
deriving DecidableEq

def chomping? (x : Char) : Option Chomping :=
  if x = '+' then some .keep else if x = '-' then some .strip else none

/-- An indentation written in the header; zero is refused. -/
def writtenIndent (c : Cursor) : Option (Option Nat × Cursor) :=
  let x := c.peek 0
  if x = '0' then none
  else if x.isDigit then some (some (x.toNat - 48), c.next)
  else some (none, c)

/-- The header after the indicator: chomping and indentation in either order, then
nothing but a comment. -/
def blockHeader (c : Cursor) : Option (Chomping × Option Nat × Cursor) := do
  let (chomping, increment, c) ←
    match chomping? (c.peek 0) with
    | some chomping => do
      let (increment, c) ← writtenIndent c.next
      some (chomping, increment, c)
    | none => do
      let (increment, c) ← writtenIndent c
      match increment, chomping? (c.peek 0) with
      | some _, some chomping => some (chomping, increment, c.next)
      | _, _ => some (.clip, increment, c)
  let c := c.dropWhile isBlank
  let c := if c.peek 0 = '#' then c.dropLine else c
  if endsLine (c.peek 0) then some (chomping, increment, c.dropBreak) else none

/-- Empty lines and the indentation of the line after them: how many breaks there
are, and the furthest column reached.  A tab may not stand for indentation. -/
def blockBreaks (indent : Option Nat) : Nat → Cursor → Nat → Nat → Option (Nat × Nat × Cursor)
  | 0, _, _, _ => none
  | fuel + 1, c, breaks, furthest =>
    let spaces := (c.rest.takeWhile (· = ' ')).length
    let c := c.advance (match indent with
      | some n => min spaces (n - c.column)
      | none => spaces)
    let furthest := max furthest c.column
    if c.peek 0 = '\t' && (indent.all fun n => c.column < n) then none
    else if isBreak (c.peek 0) then blockBreaks indent fuel c.dropBreak (breaks + 1) furthest
    else some (breaks, furthest, c)

/-- The text of the lines at column `indent` after `before`, which is reversed.
`broken` tells that a line break ended the line before, `blank` that this line
began with a blank, `breaks` how many empty lines followed it. -/
def readLines (literal : Bool) (chomping : Chomping) (indent : Nat) :
    Nat → Cursor → List Char → Bool → Bool → Nat → Option (String × Cursor)
  | 0, _, _, _, _, _ => none
  | fuel + 1, c, before, broken, blank, breaks =>
    if c.column = indent && c.peek 0 ≠ beyond then
      let blankNow := isBlank (c.peek 0)
      let before :=
        if !broken then before
        else if literal || blank || blankNow then '\n' :: before
        else if breaks = 0 then ' ' :: before
        else before
      let before := List.replicate breaks '\n' ++ before
      let (line, after) := c.takeWhile fun x => !endsLine x
      let before := line.reverse ++ before
      if after.peek 0 = beyond then some (String.ofList before.reverse, after)
      else do
        let after := after.dropBreak
        let (breaks, _, c) ← blockBreaks (some indent) (after.rest.length + 1) after 0 0
        readLines literal chomping indent fuel c before true blankNow breaks
    else
      let before := if broken && chomping ≠ .strip then '\n' :: before else before
      let before := if chomping = .keep then List.replicate breaks '\n' ++ before else before
      some (String.ofList before.reverse, c)

/-- A block scalar whose indicator stands at the cursor, inside a block at column
`parent`.  Without a written indentation the first line that is not empty sets it. -/
def blockScalar (literal : Bool) (parent : Int) (c : Cursor) : Option (String × Cursor) := do
  let (chomping, increment, c) ← blockHeader c.next
  let written := increment.map fun n => if 0 ≤ parent then parent.toNat + n else n
  let (breaks, furthest, c) ← blockBreaks written (c.rest.length + 1) c 0 0
  let indent := written.getD (max furthest (max (parent + 1).toNat 1))
  readLines literal chomping indent (c.rest.length + 1) c [] false false breaks

end TraceReplay.Yaml
