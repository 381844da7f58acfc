import Orchestration.Engine.Dispatch

/-!
# The end of a run

A run ends once. Whoever moves it to a terminal status writes its end: when it ended, why, and what
it leaves. The run of a sub-workflow then reports to the step that has started it, as an executor
would, with a result of the attempt that the step is in. A step that has been repeated in the
meantime waits for a later run, and is told nothing.
-/

namespace Orchestration

namespace Engine

/-- Why a run fails, and at which step. -/
structure Failure where
  step : String
  reason : String
deriving DecidableEq, Repr, Inhabited

def Failure.text (f : Failure) : String := f.step ++ ": " ++ f.reason

/-- Whether a step waits for a run: it is running, and was not launched after the run was made. -/
def awaits (step : StepInstance) (run : WorkflowInstance) : Bool :=
  step.runStatus == .running && step.startTime.all fun launched => !run.createdAt.before launched

/-- The result that the end of a run is for the step that has started it. -/
def verdict (run : WorkflowInstance) (parent : Uid) (step : StepInstance) (status : RunStatus)
    (reason : Option String) (output : Json.Object) : StepResult :=
  { stepInstanceId := step.uid
    workflowInstanceId := parent
    runStatus := status.asParentStepResult
    failureReason := reason
    inputData := run.inputData
    outputData := output
    attempt := some (attemptOf step) }

/-- Tells the step that has started a run how the run ended, if the step waits for it. -/
def reportToParent (run : WorkflowInstance) (status : RunStatus) (reason : Option String)
    (output : Json.Object) : Action Unit := do
  match run.parentInstanceUid, run.parentStepInstanceUid with
  | some parent, some parentStep =>
    let step ← readStep parentStep
    if awaits step run then
      publishResult (verdict run parent step status reason output)
  | _, _ => return ()

/-- What a run leaves: only one that is completed leaves an output. -/
def finalOutput? (status : RunStatus) (output : Option Json.Object) : Option Json.Object :=
  if status = .completed then output else none

/-- Ends a run, unless it has come to its end. -/
def Setup.terminate (setup : Setup) (run : Uid) (status : RunStatus) (failure : Option Failure)
    (output : Option Json.Object) : Action Unit := do
  unless ← updateRunStatus run status do return ()
  setRunEndTime run
  if let some f := failure then Action.store (.recordRunError run f.step f.reason)
  if let some o := finalOutput? status output then Action.store (.setRunOutput run o)
  let r ← readRun run
  reportToParent r status (failure.map Failure.text) ((finalOutput? status output).getD [])
  Action.spawn (.sweep setup.settings.retentionKeepDays setup.settings.retentionMaxCount)

def Setup.fail (setup : Setup) (run : Uid) (status : RunStatus) (step reason : String) :
    Action Unit :=
  setup.terminate run status (some ⟨step, reason⟩) none

end Engine

end Orchestration
