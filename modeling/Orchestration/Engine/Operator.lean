import Orchestration.Engine.Advance

/-!
# What an operator can do

A run can be stopped for good, paused, and resumed. A run that is resumed leaves the step whose
result came while it was paused.
-/

namespace Orchestration

namespace Engine

/-- Moves a run from one status to another, which fails if the run has not the first. -/
def requireMove (run : Uid) (source target : RunStatus) : Action Unit := do
  unless ← moveRunStatus run source target do
    let r ← readRun run
    throw (.runNotIn run r.runStatus source)

def stop (run : Uid) : Action RunSnapshot := do
  unless ← updateRunStatus run .stopped do
    let r ← readRun run
    throw (.runFinished run r.runStatus)
  setRunEndTime run
  state run

def pause (run : Uid) : Action RunSnapshot := do
  requireMove run .running .paused
  state run

def Setup.resume (setup : Setup) (run : Uid) : Action RunSnapshot := do
  requireMove run .paused .running
  if let some held ← Action.store (.takeHeldStep run) then
    setup.advance (← readStep held)
  state run

end Engine

end Orchestration
