import TraceReplay.Yaml.Cursor

/-!
# Tokens

The signs a text is made of once its indentation has been turned into brackets:
each block collection is closed by a `blockEnd`, and a key is announced by `key`
whether or not a question mark is written before it.
-/

namespace TraceReplay.Yaml

/-- The type written on a value. -/
structure Tag where
  handle : String
  suffix : String
deriving Repr, DecidableEq

inductive Token where
  | directive
  | documentStart
  | documentEnd
  | blockSequence
  | blockMapping
  | blockEnd
  | flowSequence
  | flowSequenceEnd
  | flowMapping
  | flowMappingEnd
  /-- The hyphen of a block sequence. -/
  | entry
  | comma
  | key
  | value
  | alias (name : String)
  | anchor (name : String)
  | tag (tag : Tag)
  | scalar (plain : Bool) (text : String)
deriving Repr, DecidableEq

/-! ## Names and tags -/

/-- The name after the sign of an anchor or an alias. -/
def anchorName (c : Cursor) : Option (String × Cursor) :=
  let (name, c) := c.next.takeWhile isNameChar
  let x := c.peek 0
  if !name.isEmpty && (endsWord x || ['?', ':', ',', ']', '\x7d', '%', '@', '\x60'].contains x) then
    some (String.ofList name, c)
  else none

def isUriChar (x : Char) : Bool :=
  isNameChar x || ";/?:@&=+$,.!~*\x27()[]%".toList.contains x

/-- The characters of a tag after `before`, which is reversed.  A percent sign
stands before the two hexadecimal digits of a byte. -/
def readUri : Nat → Cursor → List Char → Option (List Char × Cursor)
  | 0, _, _ => none
  | fuel + 1, c, before =>
    let x := c.peek 0
    if !isUriChar x then some (before.reverse, c)
    else if x = '%' then
      match digitsValue? 16 [c.peek 1, c.peek 2] with
      | some byte => readUri fuel (c.advance 3) (Char.ofNat byte :: before)
      | none => none
    else readUri fuel c.next (x :: before)

/-- The rest of a tag that begins with `opening`, whose first character is not kept;
one of the two has to hold something. -/
def tagUri (opening : List Char) (c : Cursor) : Option (String × Cursor) := do
  let (written, after) ← readUri (c.rest.length + 1) c []
  if opening.isEmpty && written.isEmpty then none
  else some (String.ofList (opening.drop 1 ++ written), after)

/-- An exclamation mark, letters, and perhaps a second mark. -/
def tagHandle (c : Cursor) : Option (List Char × Cursor) :=
  if c.peek 0 ≠ '!' then none
  else
    let (letters, c) := c.next.takeWhile isNameChar
    if c.peek 0 = '!' then some ('!' :: letters ++ ['!'], c.next) else some ('!' :: letters, c)

/-- A tag, verbatim between angle brackets, behind a handle, or behind a single mark. -/
def readTag (c : Cursor) : Option (Tag × Cursor) := do
  let (tag, c) ←
    if c.peek 1 = '<' then do
      let (suffix, c) ← tagUri [] (c.advance 2)
      if c.peek 0 = '>' then some ((⟨"", suffix⟩ : Tag), c.next) else none
    else do
      let (handle, c) ← tagHandle c
      if 2 ≤ handle.length ∧ handle.getLast? = some '!' then do
        let (suffix, c) ← tagUri [] c
        some (⟨String.ofList handle, suffix⟩, c)
      else do
        let (suffix, c) ← tagUri handle c
        some (if suffix.isEmpty then ⟨"", "!"⟩ else ⟨"!", suffix⟩, c)
  if endsWord (c.peek 0) then some (tag, c) else none

/-! ## Directives -/

/-- A number of at most nine digits. -/
def versionNumber (c : Cursor) : Option Cursor :=
  let (digits, c) := c.takeWhile Char.isDigit
  if digits.isEmpty || 9 < digits.length then none else some c

/-- What has to follow the name of a directive, and where it ends.  A directive of
another name may say anything. -/
def directiveBody (name : String) (c : Cursor) : Option Cursor :=
  if name = "YAML" then do
    let c ← versionNumber (c.dropWhile isBlank)
    if c.peek 0 = '.' then versionNumber c.next else none
  else if name = "TAG" then do
    let (handle, c) ← tagHandle (c.dropWhile isBlank)
    if handle ≠ ['!'] ∧ handle.getLast? ≠ some '!' then none
    else
      let (_, c) ← tagUri [] (c.dropWhile isBlank)
      if endsWord (c.peek 0) then some c else none
  else some c.dropLine

/-- Past a directive and its line. -/
def readDirective (c : Cursor) : Option Cursor := do
  let (name, c) := c.next.takeWhile isNameChar
  if name.isEmpty || !endsWord (c.peek 0) then none
  else
    let c ← directiveBody (String.ofList name) c
    let c := c.dropWhile isBlank
    let c := if c.peek 0 = '#' then c.dropLine else c
    if endsLine (c.peek 0) then some c.dropBreak else none

end TraceReplay.Yaml
