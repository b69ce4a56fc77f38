import TraceReplay.Document
import TraceReplay.Decimal.Literal
import TraceReplay.Yaml.Node

/-!
# YAML documents

What a plain scalar names: nothing, a truth value, an integer, a number, or only
its text.  A scalar in quotes, or in a block, is a text whatever it says.
-/

namespace TraceReplay.Yaml

open Decimal

inductive Value where
  | null
  | truth (b : Bool)
  | integer (n : Int)
  | real (x : Float)
  | text

/-- A sign written before a number, and the rest. -/
def signed (text : List Char) : Option Bool × List Char :=
  match text with
  | '+' :: rest => (some false, rest)
  | '-' :: rest => (some true, rest)
  | _ => (none, text)

/-- The number that one or more digits of a radix name. -/
def natural? (radix : Nat) (digits : List Char) : Option Nat :=
  if digits.isEmpty then none else digitsValue? radix digits

def integer? (radix : Nat) (text : List Char) : Option Int :=
  match signed text with
  | (some true, digits) => (natural? radix digits).map fun n => -(n : Int)
  | (_, digits) => (natural? radix digits).map fun n => (n : Int)

/-- Fits into 64 bits, with or without a sign. -/
def isWord (n : Int) : Bool := -2 ^ 63 ≤ n && n < 2 ^ 64

/-- Fits into 128 bits, with or without a sign. -/
def isDoubleWord (n : Int) : Bool := -2 ^ 127 ≤ n && n < 2 ^ 128

/-- An integer behind `0x`, `0o` or `0b`, whose own sign comes first. -/
def radixInteger? (text : List Char) : Option Int :=
  let (sign, unsigned) := signed text
  let radix? : Option (Nat × List Char) :=
    match unsigned with
    | '0' :: 'x' :: digits => some (16, digits)
    | '0' :: 'o' :: digits => some (8, digits)
    | '0' :: 'b' :: digits => some (2, digits)
    | _ => none
  match radix? with
  | some (radix, digits) =>
    if sign = some true then
      (natural? radix digits).bind fun n => if n ≤ 2 ^ 63 then some (-(n : Int)) else none
    else
      let digits := match digits with
        | '+' :: rest => rest
        | _ => digits
      (natural? radix digits).bind fun n => if n < 2 ^ 64 then some (n : Int) else none
  | none => none

/-- The exponent after its mark. -/
def exponent? (text : List Char) : Option (Option Int) :=
  match text with
  | [] => some none
  | mark :: rest => if mark = 'e' ∨ mark = 'E' then (integer? 10 rest).map some else none

/-- A decimal number: digits with or without a point among them, at either end too,
and perhaps an exponent. -/
def decimal? (negative : Bool) (text : List Char) : Option Literal := do
  let whole := text.takeWhile Char.isDigit
  let rest := text.dropWhile Char.isDigit
  let (places, digits, rest) :=
    match rest with
    | '.' :: rest =>
      let fraction := rest.takeWhile Char.isDigit
      (some fraction.length, whole ++ fraction, rest.dropWhile Char.isDigit)
    | _ => (none, whole, rest)
  some ⟨negative, ← natural? 10 digits, places, ← exponent? rest⟩

/-- A number, by one of the words for infinities and for what is no number, or a
decimal one whose nearest double is finite. -/
def real? (text : String) : Option Float :=
  let cs := text.toList
  let unplussed := match cs with
    | '+' :: rest => rest
    | _ => cs
  if [".inf", ".Inf", ".INF"].contains (String.ofList unplussed) then some (1.0 / 0.0)
  else if ["-.inf", "-.Inf", "-.INF"].contains text then some (-1.0 / 0.0)
  else if [".nan", ".NaN", ".NAN"].contains text then some (0.0 / 0.0)
  else
    match signed cs with
    | (some false, rest) =>
      if (signed rest).1.isSome then none else (decimal? false rest).bind Literal.toFloat?
    | (sign, rest) => (decimal? (sign = some true) rest).bind Literal.toFloat?

/-- Digits that begin with a zero but are not the number zero. -/
def isPadded (text : List Char) : Bool :=
  1 < text.length && text.head? = some '0' && text.all Char.isDigit

/-- What a plain scalar without a tag names. -/
def untagged (text : String) : Value :=
  let cs := text.toList
  if text = "~" ∨ text = "null" then .null
  else if text = "true" then .truth true
  else if text = "false" then .truth false
  else
    match radixInteger? cs with
    | some n => .integer n
    | none =>
      if isPadded cs then .text
      else
        match integer? 10 cs with
        | some n =>
          if isWord n then .integer n
          else if isDoubleWord n then .text
          else (real? text).elim .text .real
        | none => (real? text).elim .text .real

/-- What a plain scalar names; a tag of the language itself decides it. -/
def plainValue? (tag : Option Tag) (text : String) : Option Value :=
  match tag with
  | some ⟨"!!", "bool"⟩ =>
    if text = "true" then some (.truth true)
    else if text = "false" then some (.truth false)
    else none
  | some ⟨"!!", "int"⟩ =>
    (integer? 10 text.toList).bind fun n =>
      if -2 ^ 63 ≤ n ∧ n < 2 ^ 63 then some (.integer n) else none
  | some ⟨"!!", "float"⟩ => (real? text).map .real
  | some ⟨"!!", "null"⟩ => if text = "~" ∨ text = "null" then some .null else none
  | some ⟨"!!", _⟩ => some .text
  | _ => some (untagged text)

namespace Node

def value? : Node → Option Value
  | .scalar true tag text => plainValue? tag text
  | .scalar false _ _ => some .text
  | _ => none

def text? : Node → Option String
  | .scalar _ _ text => some text
  | _ => none

def isNull (n : Node) : Bool :=
  match n.value? with
  | some .null => true
  | _ => false

/-- A choice is named by a text, by the key of a mapping to nothing, or by the tag of
a value that is nothing. -/
def variant? (names : List String) (n : Node) : Option String :=
  match n with
  | .scalar _ (some ⟨"!", suffix⟩) text =>
    if names.contains suffix then (if n.isNull then some suffix else none) else some text
  | .mapping [(key, value)] => if value.isNull then key.text? else none
  | _ => n.text?

instance : Document Node where
  entries?
    | .mapping entries => entries.mapM fun (key, value) => key.text?.map (·, value)
    | _ => none
  items?
    | .sequence items => some items
    | _ => none
  integer? n :=
    match n.value? with
    | some (.integer i) => some i
    | _ => none
  real? n :=
    match n.value? with
    | some (.integer i) => some (Binary64.ofInt i)
    | some (.real x) => some x
    | _ => none
  truth? n :=
    match n.value? with
    | some (.truth b) => some b
    | _ => none
  text? := text?
  variant? := variant?
  isNull := isNull

end Node
end TraceReplay.Yaml
