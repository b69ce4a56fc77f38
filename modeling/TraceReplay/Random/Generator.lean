import TraceReplay.Power

/-!
# Random numbers

A permuted congruential generator with 128 bits of state: a linear congruential
step, of which the two halves are folded and rotated by the top bits of the state.
The state is a natural number below `2^128`.
-/

namespace TraceReplay

structure Generator where
  state : Nat
  increment : Nat
deriving Repr, DecidableEq

namespace Generator

def multiplier : Nat := 0x2360ED051FC65DA44385DF649FCCF645

/-- The next state. -/
def step (g : Generator) : Generator :=
  { g with state := (g.state * multiplier + g.increment) % 2 ^ 128 }

/-- `word` of `width` bits, rotated to the right. -/
def rotateRight (width word amount : Nat) : Nat :=
  let amount := amount % width
  (word / 2 ^ amount + word * 2 ^ (width - amount)) % 2 ^ width

/-- One step, and the 64 bits drawn from the state it reaches. -/
def next64 (g : Generator) : Nat × Generator :=
  let g := g.step
  let folded := (g.state / 2 ^ 64) ^^^ (g.state % 2 ^ 64)
  (rotateRight 64 folded (g.state / 2 ^ 122), g)

/-- Words of 32 bits that spread a seed over the state: each is drawn from a
64-bit congruential sequence that starts at the seed. -/
def seedWords : Nat → Nat → List Nat
  | 0, _ => []
  | count + 1, seed =>
    let seed := (seed * 6364136223846793005 + 11634580027462260723) % 2 ^ 64
    let folded := ((seed / 2 ^ 18) ^^^ seed) / 2 ^ 27 % 2 ^ 32
    rotateRight 32 folded (seed / 2 ^ 59) :: seedWords count seed

/-- The generator of a seed. -/
def ofSeed (seed : UInt64) : Generator :=
  let word (i : Nat) : Nat := (seedWords 8 seed.toNat).getD i 0
  let part (i : Nat) : Nat :=
    word i + word (i + 1) * 2 ^ 32 + word (i + 2) * 2 ^ 64 + word (i + 3) * 2 ^ 96
  let increment := part 4 ||| 1
  step ⟨(part 0 + increment) % 2 ^ 128, increment⟩

end Generator
end TraceReplay
