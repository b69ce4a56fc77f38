import TraceReplay.Decimal.Style
import TraceReplay.Json.Tree

/-!
# Writing JSON

Two layouts of the same tree: compact, without any white space, and pretty, two
spaces a level, one item or member a line, empty lists and objects closed at once.
-/

namespace TraceReplay.Json

/-- Doubles keep a point or an exponent, so that they read as doubles: positional
from 1e-5 up to 1e16, the exponent with its sign. -/
def numberStyle : Decimal.Style where
  tie := .toEven
  positional := some (-5, 15)
  keepPoint := true
  exponentSign := "+"
  notANumber := "null"
  infinity := "null"

def ofInt (n : Int) : Json := .number ⟨n < 0, n.natAbs, none, none⟩

/-- A double, or null for what has no digits. -/
def ofFloat (x : Float) : Json :=
  match Binary64.ofFloat? x with
  | some parts => .number (numberStyle.literal parts)
  | none => .null

def ofText (s : String) : Json := .string (encodeText s)

def list {α : Type} (item : α → Json) (xs : List α) : Json := .array (xs.map item)

/-- An object from its keys in order. -/
def record (members : List (String × Json)) : Json :=
  .object (members.map fun (key, value) => (encodeText key, value))

def quoted (body : Bytes) : Bytes := quote :: (body ++ [quote])

/-- Values that are written the same in both layouts. -/
def scalar : Json → Bytes
  | .null => asciiBytes "null"
  | .bool b => asciiBytes (if b then "true" else "false")
  | .number l => asciiBytes (l.text numberStyle.exponentSign)
  | .string body => quoted body
  | .array _ => []
  | .object _ => []

mutual

def compact : Json → Bytes
  | .array items => 0x5b :: (compactItems items ++ [0x5d])
  | .object members => 0x7b :: (compactMembers members ++ [0x7d])
  | value => scalar value

def compactItems : List Json → Bytes
  | [] => []
  | [item] => compact item
  | item :: items => compact item ++ 0x2c :: compactItems items

def compactMembers : List (Bytes × Json) → Bytes
  | [] => []
  | [(key, value)] => quoted key ++ 0x3a :: compact value
  | (key, value) :: members =>
    quoted key ++ 0x3a :: (compact value ++ 0x2c :: compactMembers members)

end

/-- A line break and the indentation of a level. -/
def newline (level : Nat) : Bytes := 0x0a :: List.replicate (2 * level) 0x20

mutual

/-- The value at an indentation level. -/
def prettyAt (level : Nat) : Json → Bytes
  | .array [] => [0x5b, 0x5d]
  | .array items => 0x5b :: (prettyItems (level + 1) items ++ newline level ++ [0x5d])
  | .object [] => [0x7b, 0x7d]
  | .object members => 0x7b :: (prettyMembers (level + 1) members ++ newline level ++ [0x7d])
  | value => scalar value

def prettyItems (level : Nat) : List Json → Bytes
  | [] => []
  | [item] => newline level ++ prettyAt level item
  | item :: items => newline level ++ prettyAt level item ++ 0x2c :: prettyItems level items

def prettyMembers (level : Nat) : List (Bytes × Json) → Bytes
  | [] => []
  | [(key, value)] => newline level ++ quoted key ++ 0x3a :: 0x20 :: prettyAt level value
  | (key, value) :: members =>
    newline level ++ quoted key ++ 0x3a :: 0x20 ::
      (prettyAt level value ++ 0x2c :: prettyMembers level members)

end

def pretty (value : Json) : Bytes := prettyAt 0 value

end TraceReplay.Json
