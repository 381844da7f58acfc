import Orchestration.Engine.Launch

/-!
# Results

A run moves on when a result of the step that it is at arrives. The result is written onto the step,
and then the step is left: for the next one, for another attempt of itself, or for the end of the
run. A paused run only notes the step, and leaves it when it is resumed.

Results may arrive more than once. The store refuses a result of an attempt that is over, and then
nothing happens, unless it is the last result that was written and the run still stands at its step:
what should have followed the result must have failed, and is done now.
-/

namespace Orchestration

namespace Engine

def failureReason (step : StepInstance) : String :=
  step.failureReason.getD s!"Step ended with {step.runStatus}"

/-- The reason why a run fails whose next step is not there. -/
def missingNext : String := "function or sub-workflow not found"

/-- Whether a result repeats the one that was written onto its step last. -/
def repeatsLast (step : StepInstance) (result : StepResult) : Bool :=
  result.attempt == some step.runCount && step.runStatus == result.runStatus &&
    step.runStatus != .running

/-- Whether a step with a result has not been left. Its successor has then not been launched, or is
the step itself with its result still in place. -/
def awaitsFollowUp (step : StepInstance) : Action Bool := do
  match step.runStatus with
  | .completed | .skipped =>
    match ← Action.attempt (nextStep step) with
    | .ok (some next) => return next.uid == step.uid || next.runStatus == .new
    | .ok none => return true
    | .error e => if e.isConfiguration then return true else throw e
  | .failed | .timedOut | .canceled | .failedWithTerminalError => return true
  | .new | .deployingFunctions | .running | .paused | .completedWithErrors | .stopped =>
    return false

namespace Setup

variable (setup : Setup)

/-- Leaves a step that was successful. -/
def leave (step : StepInstance) : Action Unit := do
  let run := step.workflowInstanceUid
  match ← Action.attempt (nextStep step) with
  | .ok (some next) => setup.launchStep next
  | .ok none =>
    if step.isLast then setup.terminate run .completed none (some step.outputData)
    else setup.fail run .failed step.name missingNext
  | .error e =>
    if e.isConfiguration then setup.fail run .failed step.name e.message else throw e

/-- Leaves a step that has failed but may be repeated. -/
def retry (step : StepInstance) : Action Unit := do
  if ← Action.store (.decrementRetry step.uid) then
    setup.launchStep (← readStep step.uid)
  else
    setup.fail step.workflowInstanceUid step.runStatus step.name (failureReason step)

/-- Moves a run on from a step that a result has been written onto. -/
def advance (step : StepInstance) : Action Unit :=
  match step.runStatus with
  | .completed | .skipped => setup.leave step
  | .failed | .timedOut => setup.retry step
  | .canceled | .failedWithTerminalError =>
    setup.fail step.workflowInstanceUid step.runStatus step.name (failureReason step)
  | .new | .deployingFunctions | .running | .paused | .completedWithErrors | .stopped =>
    throw (.unexpectedStatus step.name step.runStatus)

/-- Has a paused run leave a step when it is resumed. -/
def hold (run step : Uid) : Action Unit := Action.store (.setHeldStep run (some step))

/-- Handles a result that the store has refused. -/
def processRepeated (step : StepInstance) (result : StepResult) : Action Unit := do
  unless repeatsLast step result do return ()
  let run ← readRun step.workflowInstanceUid
  match run.runStatus with
  | .running => if ← awaitsFollowUp step then setup.advance step
  | .paused => if ← awaitsFollowUp step then hold run.uid step.uid
  | .stopped => return ()
  | status =>
    if status.isTerminal then
      let reason := run.errorMessages.head?.map fun (step, reason) => step ++ ": " ++ reason
      reportToParent run status reason run.outputData

def processResult (result : StepResult) : Action Unit := do
  let step ← readStep result.stepInstanceId
  match ← applyResult step result with
  | none => setup.processRepeated step result
  | some step =>
    let run ← readRun step.workflowInstanceUid
    if run.runStatus.isTerminal then return ()
    if run.runStatus = .paused then hold run.uid step.uid
    else setup.advance step

end Setup

end Engine

end Orchestration
