import TraceReplay.Random.Generator
import TraceReplay.Random.Ziggurat

/-!
# Draws

Numbers and letters drawn from the generator.  A draw that rejects candidates is
given more attempts than it can use up: the chance that 4096 candidates in a row
are rejected is below `2^-4096` for every draw of this module.
-/

namespace TraceReplay.Generator

/-- The first candidate that is not rejected, or `last` after that many attempts. -/
def firstOf {α : Type} (candidate : Generator → Option α × Generator) (last : α) :
    Nat → Generator → α × Generator
  | 0, g => (last, g)
  | attempts + 1, g =>
    match candidate g with
    | (some x, g) => (x, g)
    | (none, g) => firstOf candidate last attempts g

/-- A double of `[1, 2)` from 52 random bits. -/
def oneToTwo (word : Nat) : Float :=
  Float.ofBits (UInt64.ofNat (0x3ff0000000000000 + word / 2 ^ 12))

/-- A uniform point of `[0, high)`. -/
def uniformBelow (high : Float) (g : Generator) : Float × Generator :=
  let (word, g) := g.next64
  ((oneToTwo word - 1.0) * high + 0.0, g)

/-- A uniform point of `[0, 1)` on the grid of `2^-53`. -/
def unitPoint (g : Generator) : Float × Generator :=
  let (word, g) := g.next64
  ((UInt64.ofNat (word / 2 ^ 11)).toFloat * Float.ofBits 0x3ca0000000000000, g)

/-- One candidate of the ziggurat, or none if it is rejected. -/
def exponentialCandidate (g : Generator) : Option Float × Generator :=
  let (word, g) := g.next64
  let layer := word % 256
  let u := oneToTwo word - Float.ofBits 0x3fefffffffffffff
  let x := u * Ziggurat.edge layer
  if x < Ziggurat.edge (layer + 1) then (some x, g)
  else if layer = 0 then
    let (point, g) := g.unitPoint
    (some (Float.ofBits 0x401ec9d9297ebb83 - point.log), g)
  else
    let (point, g) := g.unitPoint
    let upper := Ziggurat.density layer
    let lower := Ziggurat.density (layer + 1)
    if lower + (upper - lower) * point < (-x).exp then (some x, g) else (none, g)

/-- A sample of the exponential distribution with mean one. -/
def exponential (g : Generator) : Float × Generator := firstOf exponentialCandidate 0.0 4096 g

/-- Letters and digits, in the order in which six random bits choose them. -/
def alphanumerics : List Char :=
  "ABCDEFGHIJKLMNOPQRSTUVWXYZabcdefghijklmnopqrstuvwxyz0123456789".toList

/-- One candidate for a letter, or none if the bits choose none. -/
def alphanumericCandidate (g : Generator) : Option Char × Generator :=
  let drawn := g.next64
  (alphanumerics[drawn.1 % 2 ^ 32 / 2 ^ 26]?, drawn.2)

/-- A letter or digit. -/
def alphanumeric (g : Generator) : Char × Generator := firstOf alphanumericCandidate '0' 4096 g

/-- `count` draws, in order. -/
def drawList {α : Type} (draw : Generator → α × Generator) : Nat → Generator → List α × Generator
  | 0, g => ([], g)
  | count + 1, g =>
    let (x, g) := draw g
    let (xs, g) := drawList draw count g
    (x :: xs, g)

end TraceReplay.Generator
