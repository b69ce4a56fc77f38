import TraceReplay.Power

/-!
# Finite doubles as integers

A finite double is `m · 2^q` with a sign.  Everything this project says exactly
about doubles (their shortest decimals, the double nearest to a decimal or to a
quotient, the integer part of a waiting time) is said on `m` and `q`, in exact
arithmetic, and they are compared through their ranks, which are integers; only
sums and products of drawn samples use the machine's own operations.
-/

namespace TraceReplay

/-- The number `mantissa · 2^exponent`, negated if `negative`.  The sign is kept
apart because zero has two. -/
structure Binary64 where
  negative : Bool
  mantissa : Nat
  exponent : Int
deriving Repr, DecidableEq

namespace Binary64

/-- Bits of the magnitude of positive infinity; finite magnitudes lie below. -/
def infinityBits : Nat := 0x7ff0000000000000

/-- `none` for the infinities and for what is not a number. -/
def ofFloat? (x : Float) : Option Binary64 :=
  let bits := x.toBits.toNat
  let field : Nat := bits / 2 ^ 52 % 2 ^ 11
  let fraction : Nat := bits % 2 ^ 52
  let negative : Bool := bits / 2 ^ 63 = 1
  if field = 2047 then none
  else if field = 0 then some ⟨negative, fraction, -1074⟩
  else some ⟨negative, 2 ^ 52 + fraction, (field : Int) - 1075⟩

/-- `num / den` to the nearest integer, halves to the even neighbour. -/
def roundHalfEven (num den : Nat) : Nat :=
  let quotient := num / den
  let rest := num % den
  if 2 * rest < den then quotient
  else if den < 2 * rest then quotient + 1
  else quotient + quotient % 2

/-- `num / den` as a fraction whose value is multiplied by `2^shift`. -/
def shiftFraction (num den : Nat) (shift : Int) : Nat × Nat :=
  if 0 ≤ shift then (num * 2 ^ shift.toNat, den) else (num, den * 2 ^ (-shift).toNat)

/-- The greatest `e` with `2^e ≤ num / den`, for a positive quotient. -/
def floorLog2 (num den : Nat) : Int :=
  let guess : Int := (Nat.log2 num : Int) - (Nat.log2 den : Int)
  let (n, d) := shiftFraction num den (-guess)
  if n < d then guess - 1 else guess

/-- Bits of the magnitude of the double nearest to `num / den`, ties to the even
mantissa, infinity from half a unit above the greatest finite double.  With the
unit `2^q`, the bits are `(q + 1074) · 2^52` plus the rounded number of units:
consecutive doubles have consecutive bits, so a carry needs no case of its own. -/
def nearestBits (num den : Nat) : Nat :=
  if num = 0 then 0
  else
    let unit := max (floorLog2 num den - 52) (-1074)
    let (n, d) := shiftFraction num den (-unit)
    min ((unit + 1074).toNat * 2 ^ 52 + roundHalfEven n d) infinityBits

/-- The double with this sign and these bits of magnitude. -/
def assemble (negative : Bool) (magnitude : Nat) : Float :=
  Float.ofBits (UInt64.ofNat (magnitude + if negative then 2 ^ 63 else 0))

/-- The double nearest to an integer. -/
def ofInt (n : Int) : Float :=
  assemble (n < 0) (nearestBits n.natAbs 1)

/-- Bits of the magnitude of one. -/
def oneBits : Nat := 0x3ff0000000000000

/-- The place of a double among all doubles in order, with both zeros at zero and
consecutive doubles at consecutive integers; `none` for what is not a number. -/
def rank? (x : Float) : Option Int :=
  let bits := x.toBits.toNat
  let magnitude : Nat := bits % 2 ^ 63
  if infinityBits < magnitude then none
  else some (if bits < 2 ^ 63 then (magnitude : Int) else -(magnitude : Int))

def ofRank (rank : Int) : Float := assemble (rank < 0) rank.natAbs

/-- `n` rounded to 53 binary digits, which is the double nearest to it. -/
def nearestNat (n : Nat) : Nat :=
  let unit := 2 ^ (Nat.log2 n - 52)
  roundHalfEven n unit * unit

/-- The rank of the quotient of the doubles nearest to two integers, itself
rounded once more; the divisor is not zero. -/
def ratioRank (num den : Int) : Int :=
  let magnitude := nearestBits (nearestNat num.natAbs) (nearestNat den.natAbs)
  if num < 0 ↔ den < 0 then (magnitude : Int) else -(magnitude : Int)

/-- The integer part, toward zero. -/
def truncate (x : Binary64) : Int :=
  let magnitude :=
    if 0 ≤ x.exponent then x.mantissa * 2 ^ x.exponent.toNat
    else x.mantissa / 2 ^ (-x.exponent).toNat
  if x.negative then -(magnitude : Int) else magnitude

/-- The integer part of a double as a signed 64-bit number: beyond its range the
nearest end of it, and zero for what is not a number. -/
def toInt64Range (x : Float) : Int :=
  match ofFloat? x with
  | some parts => max (-2 ^ 63) (min (2 ^ 63 - 1) parts.truncate)
  | none =>
    match rank? x with
    | some rank => if rank < 0 then -2 ^ 63 else 2 ^ 63 - 1
    | none => 0

end Binary64
end TraceReplay
