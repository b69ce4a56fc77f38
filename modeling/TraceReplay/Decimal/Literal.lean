import TraceReplay.Decimal.Binary64

/-!
# Decimal literals

A number as it is written: all its digits, how many of them stand after the
point, and the exponent.  Its value as a double is the nearest one; a literal
beyond the greatest finite double has none.
-/

namespace TraceReplay.Decimal

structure Literal where
  negative : Bool
  /-- All digits, read without the point. -/
  digits : Nat
  /-- Digits after the point, if a point is written. -/
  places : Option Nat
  /-- The written exponent. -/
  exponent : Option Int
deriving Repr, DecidableEq

namespace Literal

def ofNat (n : Nat) : Literal := ⟨false, n, none, none⟩

/-- Written without a fraction and without an exponent. -/
def isIntegral (l : Literal) : Bool := l.places.isNone && l.exponent.isNone

/-- The integer an integral literal names; minus zero names none. -/
def toInt? (l : Literal) : Option Int :=
  if !l.isIntegral then none
  else if l.negative then (if l.digits = 0 then none else some (-(l.digits : Int)))
  else some l.digits

/-- Bits of the magnitude of the nearest double.  An exponent that puts the first
digit beyond 10^400 or below 10^-400 is settled without computing the power. -/
def magnitudeBits (l : Literal) : Nat :=
  let power : Int := l.exponent.getD 0 - l.places.getD 0
  let leading : Int := (toString l.digits).length + power
  if l.digits = 0 ∨ leading < -400 then 0
  else if 400 < leading then Binary64.infinityBits
  else if 0 ≤ power then Binary64.nearestBits (l.digits * 10 ^ power.toNat) 1
  else Binary64.nearestBits l.digits (10 ^ (-power).toNat)

/-- The nearest double, unless that would be infinite. -/
def toFloat? (l : Literal) : Option Float :=
  let bits := l.magnitudeBits
  if bits < Binary64.infinityBits then some (Binary64.assemble l.negative bits) else none

/-- The nearest double, infinite beyond the greatest finite one. -/
def toFloat (l : Literal) : Float :=
  Binary64.assemble l.negative l.magnitudeBits

end Literal
end TraceReplay.Decimal
