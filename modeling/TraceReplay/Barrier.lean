/-!
# Completion barriers

A barrier opens once every token it has handed out is released, which happens
exactly once to each token whatever way its holder finishes.
-/

namespace TraceReplay

structure Barrier where
  /-- Tokens that are held. -/
  held : Nat := 0
deriving Repr, DecidableEq

namespace Barrier

def token (b : Barrier) : Barrier := ⟨b.held + 1⟩
def release (b : Barrier) : Barrier := ⟨b.held - 1⟩
def isOpen (b : Barrier) : Bool := b.held = 0

/-- When the barrier opens if its tokens are released at the times of a list, which
is sorted. -/
def opensAt (b : Barrier) (now : Nat) : List Nat → Nat
  | [] => now
  | time :: times => if b.isOpen then now else opensAt b.release (max now time) times

/-- When a barrier opens whose tokens are released at some times. -/
def opening (times : List Nat) : Nat :=
  let barrier := times.foldl (fun b _ => b.token) ({} : Barrier)
  barrier.opensAt 0 (times.mergeSort (· ≤ ·))

end Barrier
end TraceReplay
