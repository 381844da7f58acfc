import Orchestration.Engine.Call

/-!
# Retention

Runs are kept for a number of days, and beyond that as long as there are not more than a number of
them. Only runs that no other run has started count and are chosen; the runs below them go with
them.
-/

namespace Orchestration

namespace Engine

/-- Of runs in the order of their age, those that are to go, if so many would survive without any of
them going: of those made before a point in time one after the other, until no more than `maxCount`
survive. -/
def doomed (cutoff : Instant) (maxCount : Nat) : Nat → List Store.TopLevelRun → List Uid
  | _, [] => []
  | survivors, r :: rest =>
    if survivors ≤ maxCount then []
    else if r.createdAt.before cutoff then r.uid :: doomed cutoff maxCount (survivors - 1) rest
    else doomed cutoff maxCount survivors rest

/-- Removes runs that have been kept long enough, and counts them. -/
def deleteOldRuns (keepDays : Int) (maxCount : Nat) : Action Nat := do
  let runs ← Action.store .listTopLevelRuns
  let time ← Action.now
  let cutoff := time.addSeconds (-(keepDays * Instant.daySeconds))
  let uids := doomed cutoff maxCount runs.length runs
  if uids.isEmpty then return 0
  Action.store (.deleteRuns uids)

end Engine

end Orchestration
