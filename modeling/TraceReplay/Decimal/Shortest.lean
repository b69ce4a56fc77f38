import TraceReplay.Decimal.Binary64

/-!
# Shortest decimals

The fewest decimal digits that name a double: for 1, 2, … 17 digits the two
neighbours of the value on the decimal grid are compared with the interval of
reals that round to it, and the first grid with a hit wins.  Of two hits the
nearer is taken; an exact tie is decided by the format that writes the digits.
-/

namespace TraceReplay.Decimal

/-- The number `digits · 10^exponent`. -/
structure Digits where
  digits : Nat
  exponent : Int
deriving Repr, DecidableEq

/-- Which of two equally near decimals is written. -/
inductive Tie
  | toEven
  | upward
deriving Repr, DecidableEq

/-- Trailing zeros of the digits moved into the exponent; at most `fuel` of them. -/
def Digits.strip : Nat → Digits → Digits
  | 0, d => d
  | fuel + 1, d =>
    if d.digits ≠ 0 ∧ d.digits % 10 = 0 then strip fuel ⟨d.digits / 10, d.exponent + 1⟩ else d

/-- `num / den` as a fraction whose value is multiplied by `10^shift`. -/
def scaleFraction (num den : Nat) (shift : Int) : Nat × Nat :=
  if 0 ≤ shift then (num * 10 ^ shift.toNat, den) else (num, den * 10 ^ (-shift).toNat)

/-- The greatest `e` with `10^e ≤ num / den`, for a positive quotient; the guess
from the binary logarithm is off by at most one. -/
def floorLog10 (num den : Nat) : Int :=
  let guess : Int := Int.fdiv (Binary64.floorLog2 num den * 30103) 100000
  let (n, d) := scaleFraction num den (-guess)
  if n < d then guess - 1 else if 10 * d ≤ n then guess + 1 else guess

/-- A positive double and the ends of the interval that rounds to it, all in
quarters of its unit: `value = 4m`, the upper end half a unit above, the lower
half a unit below, or a quarter where the next smaller binade begins.  The ends
belong to the interval iff the mantissa is even. -/
structure Interval where
  low : Nat
  value : Nat
  high : Nat
  closed : Bool
  /-- Exponent of two of the quarter unit. -/
  exponent : Int

def Interval.around (x : Binary64) : Interval where
  value := 4 * x.mantissa
  high := 4 * x.mantissa + 2
  low := if x.mantissa = 2 ^ 52 ∧ -1074 < x.exponent then 4 * x.mantissa - 1 else 4 * x.mantissa - 2
  closed := x.mantissa % 2 = 0
  exponent := x.exponent - 2

/-- The hit with `count` digits, if there is one: `exponent` is the decimal
exponent of the first digit. -/
def Interval.hit (interval : Interval) (tie : Tie) (leading : Int) (count : Nat) :
    Option Digits :=
  let grid := leading - count + 1
  -- everything over the common denominator: one unit of the grid is `step`
  let (quarter, one) := Binary64.shiftFraction 1 1 interval.exponent
  let (scaled, step) := scaleFraction quarter one (-grid)
  let value := interval.value * scaled
  let low := interval.low * scaled
  let high := interval.high * scaled
  let inside (candidate : Nat) : Bool :=
    if interval.closed then low ≤ candidate * step ∧ candidate * step ≤ high
    else low < candidate * step ∧ candidate * step < high
  let below := value / step
  let above := below + 1
  let toBelow := value - below * step
  let toAbove := above * step - value
  let nearer :=
    if toBelow < toAbove then below
    else if toAbove < toBelow then above
    else match tie with
      | .toEven => if below % 2 = 0 then below else above
      | .upward => above
  if inside below ∧ inside above then some ⟨nearer, grid⟩
  else if inside below then some ⟨below, grid⟩
  else if inside above then some ⟨above, grid⟩
  else none

/-- The fewest digits that name the positive double `x`, without trailing zeros. -/
def shortest (tie : Tie) (x : Binary64) : Digits :=
  let interval := Interval.around x
  let (num, den) := Binary64.shiftFraction x.mantissa 1 x.exponent
  let leading := floorLog10 num den
  match (List.range 17).findSome? fun n => interval.hit tie leading (n + 1) with
  | some d => d.strip 20
  | none => ⟨x.mantissa, 0⟩

end TraceReplay.Decimal
