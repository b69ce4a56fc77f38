import TraceReplay.Decimal.Literal
import TraceReplay.Decimal.Shortest

/-!
# Written doubles

How a format writes the shortest digits of a double: where positional notation
ends, how the exponent looks and what stands for the values that have no digits.
Each format of this project is one record of these decisions; what it writes is
first a literal and then the text of that literal.
-/

namespace TraceReplay.Decimal

/-- Decisions of a format that writes doubles. -/
structure Style where
  tie : Tie
  /-- Least and greatest exponent of the first digit written positionally; no
  bounds mean always. -/
  positional : Option (Int × Int)
  /-- Whether an integral value keeps `.0`. -/
  keepPoint : Bool
  /-- What stands before an exponent that is not negative. -/
  exponentSign : String
  notANumber : String
  infinity : String

/-- The decimal digits of an integer, after a minus sign if it is negative. -/
def intText (n : Int) : String :=
  if n < 0 then "-" ++ toString n.natAbs else toString n.natAbs

/-- `text` after as many zeros as it lacks of `width` characters. -/
def padLeft (width : Nat) (text : String) : String :=
  String.ofList (List.replicate (width - text.length) '0') ++ text

/-- At least one digit before the point, the exponent after `e`. -/
def Literal.text (l : Literal) (exponentSign : String) : String :=
  let places := l.places.getD 0
  let digits := (padLeft (places + 1) (toString l.digits)).toList
  let whole := digits.length - places
  let fraction :=
    if l.places.isSome then "." ++ String.ofList (digits.drop whole) else ""
  let power :=
    match l.exponent with
    | none => ""
    | some e => "e" ++ (if e < 0 then "" else exponentSign) ++ intText e
  (if l.negative then "-" else "") ++ String.ofList (digits.take whole) ++ fraction ++ power

namespace Style

/-- Digits in positional notation. -/
def positionalLiteral (style : Style) (negative : Bool) (d : Digits) : Literal :=
  if d.exponent < 0 then ⟨negative, d.digits, some (-d.exponent).toNat, none⟩
  else if style.keepPoint then ⟨negative, d.digits * 10 ^ (d.exponent.toNat + 1), some 1, none⟩
  else ⟨negative, d.digits * 10 ^ d.exponent.toNat, none, none⟩

/-- The literal that stands for a finite double. -/
def literal (style : Style) (x : Binary64) : Literal :=
  if x.mantissa = 0 then ⟨x.negative, 0, if style.keepPoint then some 1 else none, none⟩
  else
    let d := shortest style.tie x
    let count := (toString d.digits).length
    let leading : Int := count - 1 + d.exponent
    let isPositional : Bool :=
      match style.positional with
      | none => true
      | some (least, greatest) => least ≤ leading ∧ leading ≤ greatest
    if isPositional then style.positionalLiteral x.negative d
    else ⟨x.negative, d.digits, if count = 1 then none else some (count - 1), some leading⟩

def write (style : Style) (x : Float) : String :=
  match Binary64.ofFloat? x with
  | some parts => (style.literal parts).text style.exponentSign
  | none =>
    match Binary64.rank? x with
    | some rank => (if rank < 0 then "-" else "") ++ style.infinity
    | none => style.notANumber

end Style

/-- Plain text for messages: never an exponent, no point without a fraction. -/
def plain : Style where
  tie := .upward
  positional := none
  keepPoint := false
  exponentSign := ""
  notANumber := "NaN"
  infinity := "inf"

/-- The value with exactly `places` digits after the point, halves of the last
place to the even neighbour. -/
def fixedText (places : Nat) (x : Float) : String :=
  match Binary64.ofFloat? x with
  | none => plain.write x
  | some parts =>
    let (num, den) := Binary64.shiftFraction (parts.mantissa * 10 ^ places) 1 parts.exponent
    let scaled := Binary64.roundHalfEven num den
    (Literal.mk parts.negative scaled (if places = 0 then none else some places) none).text ""

end TraceReplay.Decimal
