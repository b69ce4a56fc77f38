/-!
# The timekeeper

Counts the minutes of an experiment and is done after the last one of its trace.
-/

namespace TraceReplay.Timekeeper

def minuteMs : Nat := 60_000

/-- When the last minute is over, in milliseconds. -/
def finalTick (traceDuration : Nat) : Nat := traceDuration * minuteMs

/-- Whether the timekeeper is done at a time; the minute that ends just then is
counted only afterwards. -/
def isDone (traceDuration now : Nat) : Bool :=
  traceDuration = 0 || finalTick traceDuration < now

end TraceReplay.Timekeeper
