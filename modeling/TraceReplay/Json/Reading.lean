import TraceReplay.Json.Tree

/-!
# Reading JSON

The grammar of JSON, over bytes: a byte order mark, a raw control character in a
string, a number with a leading zero and text after the value are refused.  Each
function returns what it read and the rest of the input.
-/

namespace TraceReplay.Json

def isSpace (b : UInt8) : Bool := b = 0x20 || b = 0x0a || b = 0x09 || b = 0x0d

def isDigit (b : UInt8) : Bool := 0x30 ≤ b && b ≤ 0x39

def skipSpace (input : Bytes) : Bytes := input.dropWhile isSpace

/-- What follows `word` at the front of the input. -/
def expect (word input : Bytes) : Option Bytes :=
  if word.isPrefixOf input then some (input.drop word.length) else none

/-- The number a run of digits names. -/
def digitsValue (digits : Bytes) : Nat :=
  digits.foldl (fun n d => n * 10 + (d.toNat - 0x30)) 0

/-- The body of a string and what follows its closing quote. -/
def readBody : Bytes → Option (Bytes × Bytes)
  | [] => none
  | c :: rest =>
    if c = quote then some ([], rest)
    else if c < 0x20 then none
    else if c ≠ backslash then (readBody rest).map fun (body, tail) => (c :: body, tail)
    else match rest with
      | 0x75 :: a :: b :: d :: e :: rest =>
        if (hexUnit? a b d e).isSome then
          (readBody rest).map fun (body, tail) => (c :: 0x75 :: a :: b :: d :: e :: body, tail)
        else none
      | e :: rest =>
        if (shortEscapes.lookup e).isSome then
          (readBody rest).map fun (body, tail) => (c :: e :: body, tail)
        else none
      | [] => none

/-- The digits after a point, if there is one; a point without digits is an error. -/
def readFraction (input : Bytes) : Option (Option Bytes × Bytes) :=
  match input with
  | 0x2e :: rest =>
    let digits := rest.takeWhile isDigit
    if digits.isEmpty then none else some (some digits, rest.dropWhile isDigit)
  | _ => some (none, input)

/-- The exponent, if there is one; a mark without digits is an error. -/
def readExponent (input : Bytes) : Option (Option Int × Bytes) :=
  match input with
  | mark :: rest =>
    if mark = 0x65 ∨ mark = 0x45 then
      let (negative, rest) : Bool × Bytes :=
        match rest with
        | 0x2d :: tail => (true, tail)
        | 0x2b :: tail => (false, tail)
        | _ => (false, rest)
      let digits := rest.takeWhile isDigit
      if digits.isEmpty then none
      else
        let n : Int := digitsValue digits
        some (some (if negative then -n else n), rest.dropWhile isDigit)
    else some (none, input)
  | [] => some (none, [])

/-- A number; only a single zero may begin with zero. -/
def readNumber (input : Bytes) : Option (Decimal.Literal × Bytes) := do
  let (negative, unsigned) : Bool × Bytes :=
    match input with
    | 0x2d :: tail => (true, tail)
    | _ => (false, input)
  let whole := unsigned.takeWhile isDigit
  if whole.isEmpty ∨ (whole.head? = some 0x30 ∧ whole.length ≠ 1) then none
  else
    let (fraction, rest) ← readFraction (unsigned.dropWhile isDigit)
    let (exponent, rest) ← readExponent rest
    some (⟨negative, digitsValue (whole ++ fraction.getD []), fraction.map List.length, exponent⟩,
      rest)

mutual

/-- One value; each nested value costs one unit of `fuel`. -/
def readValue : Nat → Bytes → Option (Json × Bytes)
  | 0, _ => none
  | fuel + 1, input =>
    match skipSpace input with
    | [] => none
    | c :: rest =>
      if c = 0x22 then (readBody rest).map fun (body, tail) => (.string body, tail)
      else if c = 0x5b then
        match skipSpace rest with
        | 0x5d :: tail => some (.array [], tail)
        | _ => (readItems fuel rest).map fun (items, tail) => (.array items, tail)
      else if c = 0x7b then
        match skipSpace rest with
        | 0x7d :: tail => some (.object [], tail)
        | _ => (readMembers fuel rest).map fun (members, tail) => (.object members, tail)
      else if c = 0x6e then (expect [0x75, 0x6c, 0x6c] rest).map (.null, ·)
      else if c = 0x74 then (expect [0x72, 0x75, 0x65] rest).map (.bool true, ·)
      else if c = 0x66 then (expect [0x61, 0x6c, 0x73, 0x65] rest).map (.bool false, ·)
      else (readNumber (c :: rest)).map fun (literal, tail) => (.number literal, tail)

/-- Values between commas, up to the closing bracket. -/
def readItems : Nat → Bytes → Option (List Json × Bytes)
  | 0, _ => none
  | fuel + 1, input => do
    let (item, rest) ← readValue fuel input
    match skipSpace rest with
    | 0x2c :: rest => do
      let (items, tail) ← readItems fuel rest
      some (item :: items, tail)
    | 0x5d :: tail => some ([item], tail)
    | _ => none

/-- Members between commas, up to the closing brace. -/
def readMembers : Nat → Bytes → Option (List (Bytes × Json) × Bytes)
  | 0, _ => none
  | fuel + 1, input =>
    match skipSpace input with
    | 0x22 :: rest => do
      let (key, rest) ← readBody rest
      match skipSpace rest with
      | 0x3a :: rest => do
        let (value, rest) ← readValue fuel rest
        match skipSpace rest with
        | 0x2c :: rest => do
          let (members, tail) ← readMembers fuel rest
          some ((key, value) :: members, tail)
        | 0x7d :: tail => some ([(key, value)], tail)
        | _ => none
      | _ => none
    | _ => none

end

/-- The one value of a text, with nothing but white space around it. -/
def parse (input : Bytes) : Option Json := do
  let (value, rest) ← readValue (input.length + 1) input
  if (skipSpace rest).isEmpty then some value else none

end TraceReplay.Json
