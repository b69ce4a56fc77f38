import TraceReplay.Decimal.Literal

/-!
# JSON

A JSON text as a tree.  Numbers keep their literal and strings the bytes between
their quotes, so a value nobody asks for is held to the grammar only, and a value
that is asked for is decoded by what it is asked as.
-/

namespace TraceReplay

abbrev Bytes := List UInt8

/-- The bytes of a text that is known to be ASCII. -/
def asciiBytes (s : String) : Bytes := s.toList.map Char.toUInt8

inductive Json where
  | null
  | bool (b : Bool)
  | number (literal : Decimal.Literal)
  /-- The bytes between the quotes, escapes and all. -/
  | string (body : Bytes)
  | array (items : List Json)
  | object (members : List (Bytes × Json))
deriving Repr

namespace Json

def quote : UInt8 := 0x22
def backslash : UInt8 := 0x5c

/-- Bytes written after a backslash, with the bytes they stand for. -/
def shortEscapes : List (UInt8 × UInt8) :=
  [(0x22, 0x22), (0x5c, 0x5c), (0x2f, 0x2f), (0x62, 0x08), (0x66, 0x0c),
    (0x6e, 0x0a), (0x72, 0x0d), (0x74, 0x09)]

def hexDigit? (b : UInt8) : Option Nat :=
  if 0x30 ≤ b ∧ b ≤ 0x39 then some (b.toNat - 0x30)
  else if 0x61 ≤ b ∧ b ≤ 0x66 then some (b.toNat - 0x61 + 10)
  else if 0x41 ≤ b ∧ b ≤ 0x46 then some (b.toNat - 0x41 + 10)
  else none

/-- The number that four hexadecimal digits name. -/
def hexUnit? (a b c d : UInt8) : Option Nat := do
  some ((← hexDigit? a) * 4096 + (← hexDigit? b) * 256 + (← hexDigit? c) * 16 + (← hexDigit? d))

/-- One character inside quotes, as it is written. -/
def escapeChar (c : Char) : Bytes :=
  if c = '"' then [backslash, 0x22]
  else if c = '\\' then [backslash, 0x5c]
  else if c.toNat = 0x08 then [backslash, 0x62]
  else if c.toNat = 0x09 then [backslash, 0x74]
  else if c.toNat = 0x0a then [backslash, 0x6e]
  else if c.toNat = 0x0c then [backslash, 0x66]
  else if c.toNat = 0x0d then [backslash, 0x72]
  else if c.toNat < 0x20 then
    [backslash, 0x75, 0x30, 0x30] ++ asciiBytes (String.ofList
      [Nat.digitChar (c.toNat / 16), Nat.digitChar (c.toNat % 16)])
  else String.utf8EncodeChar c

/-- The body of a string: quotes, backslashes and control characters are
escaped, all else stands for itself. -/
def encodeText (s : String) : Bytes := s.toList.flatMap escapeChar

/-- The bytes a body stands for.  A surrogate that is not the first half of a
pair written with its second half stands for nothing. -/
def unescape : Bytes → Option Bytes
  | [] => some []
  | c :: rest =>
    if c ≠ backslash then (unescape rest).map (c :: ·)
    else match rest with
      | 0x75 :: a :: b :: c :: d :: rest => do
        let unit ← hexUnit? a b c d
        if unit < 0xd800 ∨ 0xdfff < unit then
          (unescape rest).map (String.utf8EncodeChar (Char.ofNat unit) ++ ·)
        else if 0xdc00 ≤ unit then none
        else match rest with
          | 0x5c :: 0x75 :: a :: b :: c :: d :: rest => do
            let low ← hexUnit? a b c d
            if low < 0xdc00 ∨ 0xdfff < low then none
            else
              let scalar := 0x10000 + (unit - 0xd800) * 1024 + (low - 0xdc00)
              (unescape rest).map (String.utf8EncodeChar (Char.ofNat scalar) ++ ·)
          | _ => none
      | e :: rest => do
        let byte ← shortEscapes.lookup e
        (unescape rest).map (byte :: ·)
      | [] => none

/-- The text of a string body, if its escapes and its bytes make one. -/
def decodeText (body : Bytes) : Option String := do
  String.fromUTF8? ⟨(← unescape body).toArray⟩

end Json
end TraceReplay
