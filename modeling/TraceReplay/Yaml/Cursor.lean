/-!
# A place in a text

What is left to read, and where that begins.  A line feed begins a line; a
carriage return is a line break too, but only together with a line feed does it
begin a line.
-/

namespace TraceReplay.Yaml

structure Cursor where
  rest : List Char
  /-- Characters read so far. -/
  index : Nat := 0
  line : Nat := 0
  column : Nat := 0

/-- Stands for every character past the end; no text holds it. -/
def beyond : Char := '\x00'

def isBreak (c : Char) : Bool := c = '\n' || c = '\r'
def isBlank (c : Char) : Bool := c = ' ' || c = '\t'
def isGap (c : Char) : Bool := isBlank c || isBreak c

/-- Ends a line: a break, or the end of the text. -/
def endsLine (c : Char) : Bool := isBreak c || c = beyond

/-- Ends a word: a blank, a break, or the end of the text. -/
def endsWord (c : Char) : Bool := isBlank c || endsLine c

/-- Punctuation of bracketed collections. -/
def isFlowMark (c : Char) : Bool := [',', '[', ']', '{', '}'].contains c

/-- May stand in a name: an ASCII letter or digit, a hyphen or an underscore. -/
def isNameChar (c : Char) : Bool := c.isAlphanum || c = '_' || c = '-'

def hexDigit? (c : Char) : Option Nat :=
  if c.isDigit then some (c.toNat - 48)
  else if 'a' ≤ c && c ≤ 'f' then some (c.toNat - 97 + 10)
  else if 'A' ≤ c && c ≤ 'F' then some (c.toNat - 65 + 10)
  else none

/-- The number that digits of a radix name, if each of them is one. -/
def digitsValue? (radix : Nat) (digits : List Char) : Option Nat :=
  digits.foldlM (fun n c => do
    let d ← hexDigit? c
    if d < radix then some (n * radix + d) else none) 0

namespace Cursor

/-- The character `k` places on. -/
def peek (c : Cursor) (k : Nat) : Char := c.rest.getD k beyond

def next (c : Cursor) : Cursor :=
  match c.rest with
  | [] => c
  | x :: rest =>
    if x = '\n' then ⟨rest, c.index + 1, c.line + 1, 0⟩
    else ⟨rest, c.index + 1, c.line, c.column + 1⟩

def advance (c : Cursor) (n : Nat) : Cursor := n.repeat next c

def takeWhile (p : Char → Bool) (c : Cursor) : List Char × Cursor :=
  let taken := c.rest.takeWhile p
  (taken, c.advance taken.length)

def dropWhile (p : Char → Bool) (c : Cursor) : Cursor := (c.takeWhile p).2

/-- Past one line break, if there is one. -/
def dropBreak (c : Cursor) : Cursor :=
  if c.peek 0 = '\r' && c.peek 1 = '\n' then c.advance 2
  else if isBreak (c.peek 0) then c.next
  else c

/-- Up to the end of the line. -/
def dropLine (c : Cursor) : Cursor := c.dropWhile fun x => !endsLine x

/-- A line begins here with three times `mark`, as a word of its own. -/
def atMark (c : Cursor) (mark : Char) : Bool :=
  c.column = 0 && (List.replicate 3 mark).isPrefixOf c.rest && endsWord (c.peek 3)

/-- A line begins here that begins or ends a document. -/
def atDocumentMark (c : Cursor) : Bool := c.atMark '-' || c.atMark '.'

end Cursor
end TraceReplay.Yaml
