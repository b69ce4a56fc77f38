/-!
# Tables

Comma-separated values: a field is quoted if it holds a comma, a quote or a line
break, quotes inside are doubled, and every row ends in a line feed.
-/

namespace TraceReplay.Table

def needsQuotes (field : List Char) : Bool :=
  field.any fun c => c = ',' || c = '"' || c = '\n' || c = '\r'

/-- A field with its quotes doubled. -/
def doubleQuotes : List Char → List Char
  | [] => []
  | c :: rest => if c = '"' then '"' :: '"' :: doubleQuotes rest else c :: doubleQuotes rest

def writeField (field : List Char) : List Char :=
  if needsQuotes field then '"' :: (doubleQuotes field ++ ['"']) else field

def writeFields : List (List Char) → List Char
  | [] => []
  | [field] => writeField field
  | field :: fields => writeField field ++ ',' :: writeFields fields

def writeRow (row : List String) : List Char := writeFields (row.map String.toList) ++ ['\n']

/-- The text of a table: the header comes with the first row, so a table without
rows is empty. -/
def write (header : List String) (rows : List (List String)) : String :=
  if rows.isEmpty then ""
  else String.ofList (writeRow header ++ rows.flatMap writeRow)

/-- Where a reader stands in a field. -/
inductive Place where
  | plain
  | quoted
  /-- After a quote inside quotes: the field is over, unless another follows. -/
  | closing

/-- What has been read of a table; rows, fields and characters are kept in reverse. -/
structure Reader where
  rows : List (List (List Char))
  fields : List (List Char)
  field : List Char
  place : Place

namespace Reader

def start : Reader := ⟨[], [], [], .plain⟩

def endField (r : Reader) : Reader :=
  { r with fields := r.field.reverse :: r.fields, field := [], place := .plain }

def endRow (r : Reader) : Reader :=
  { rows := (r.field.reverse :: r.fields).reverse :: r.rows
    fields := [], field := [], place := .plain }

/-- Takes in one character.  Inside quotes only a quote is special: two stand for
one, one closes the quotes. -/
def feed (r : Reader) (c : Char) : Reader :=
  match r.place with
  | .quoted =>
    if c = '"' then { r with place := .closing } else { r with field := c :: r.field }
  | .closing =>
    if c = '"' then { r with field := c :: r.field, place := .quoted }
    else if c = ',' then r.endField
    else if c = '\n' then r.endRow
    else { r with field := c :: r.field, place := .plain }
  | .plain =>
    if c = '"' then { r with place := .quoted }
    else if c = ',' then r.endField
    else if c = '\n' then r.endRow
    else { r with field := c :: r.field }

/-- The rows read so far; an unfinished last row counts if anything is in it. -/
def finish (r : Reader) : List (List (List Char)) :=
  if r.fields.isEmpty ∧ r.field.isEmpty then r.rows.reverse else r.endRow.rows.reverse

end Reader

/-- The rows of a table, header included. -/
def read (text : String) : List (List String) :=
  (text.toList.foldl Reader.feed Reader.start).finish.map (·.map String.ofList)

end TraceReplay.Table
