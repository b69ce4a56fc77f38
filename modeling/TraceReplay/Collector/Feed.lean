import TraceReplay.Collector

/-!
# Feeding a collector

A collector together with its two senders: the sink the record pairs go through and
the one that announces their number.  Either may go away before the other.
-/

namespace TraceReplay.Collector

structure Feed where
  collector : Collector := {}
  /-- The sender of record pairs is still there. -/
  hasSink : Bool := true
  /-- The sender of the total is still there. -/
  hasAnnouncer : Bool := true
  notices : List Notice := []

namespace Feed

def tell (feed : Feed) (event : Event) : Feed :=
  { feed with
    collector := feed.collector.accept event
    notices := feed.notices ++ feed.collector.noticesOf event }

/-- Sends pairs at once.  A collector that had finished before has gone and they are
lost; one that finishes among them leaves the others lie. -/
def push (feed : Feed) (pairs : List RecordPair) : Feed :=
  if feed.collector.finished then
    { feed with
      notices := feed.notices ++ pairs.map fun pair => .recordsLost pair.record.invocationId }
  else pairs.foldl (fun feed pair => (feed.tell (.record pair.record)).tell (.job pair.job)) feed

/-- Announces a total; tells whether the collector heard it. -/
def announce (feed : Feed) (total : Nat) : Bool × Feed :=
  if feed.hasAnnouncer then
    (feed.collector.listens, { feed.tell (.announced total) with hasAnnouncer := false })
  else (false, feed)

def dropSink (feed : Feed) : Feed :=
  if feed.hasSink then { (feed.tell .recordsClosed).tell .jobsClosed with hasSink := false }
  else feed

def dropAnnouncer (feed : Feed) : Feed :=
  if feed.hasAnnouncer then { feed.tell .unannounced with hasAnnouncer := false } else feed

end Feed
end TraceReplay.Collector
