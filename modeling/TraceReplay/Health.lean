import TraceReplay.Notice

/-!
# Health checks

A running replay is compared with its plan through the relative difference
`(ideal - real) / ideal`.  A difference at the upper limit stops the replay, one
at the lower limit is worth a warning, and one outside of `[0, 1]` means that the
books are wrong.
-/

namespace TraceReplay

inductive Health.Verdict where
  /-- The replay goes on, perhaps with a warning. -/
  | fine (notices : List Notice)
  | stop
  /-- The difference is not a proportion. -/
  | invalid

/-- Whether a ratio, given by its rank, is at a limit or above it. -/
def Health.reaches (ratio : Int) (limit : Float) : Bool :=
  (Binary64.rank? limit).any (· ≤ ratio)

def Health.check (ideal real : Int) (check : HealthCheck) (thresholds : Thresholds) :
    Health.Verdict :=
  if ideal = 0 then .fine []
  else
    let ratio := Binary64.ratioRank (ideal - real) ideal
    if ratio < 0 ∨ Binary64.oneBits < ratio then .invalid
    else
      let limits := thresholds.limits check
      if Health.reaches ratio limits.terminate then .stop
      else if 0 < ratio ∧ Health.reaches ratio limits.warn then
        .fine [.closeToLimit check ideal real (Binary64.ofRank ratio)]
      else .fine []

end TraceReplay
