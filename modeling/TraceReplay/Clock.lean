/-!
# The clock of a replay

Time stands still while anything can be done and then passes to the next sleep
that ends.  Sleeps end on whole milliseconds, so those are what the clock counts.
-/

namespace TraceReplay

structure Clock where
  /-- Unix time in microseconds at which the clock began; always the same, so that two
  replays of one trace leave the same records. -/
  epoch : Int := 1_700_000_000_000_000
  /-- Milliseconds since. -/
  now : Nat := 0
deriving Repr, DecidableEq

/-- Unix time in microseconds. -/
def Clock.wall (c : Clock) : Int := c.epoch + c.now * 1000

/-- When a sleep of some microseconds ends: not before them, on a whole millisecond. -/
def Clock.wakeTime (c : Clock) (micros : Nat) : Nat := c.now + (micros + 999) / 1000

end TraceReplay
