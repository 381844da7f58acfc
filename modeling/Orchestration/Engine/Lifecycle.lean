import Orchestration.Chain
import Orchestration.Engine.Formula

/-!
# The life of a run in the store

A run is made of its definition, and results are written onto its steps. Every change of a status
that the store has accepted is announced; an announcement that fails is no reason for anything else
to fail.
-/

namespace Orchestration

namespace Engine

/-! ## Announcements -/

/-- Announces a status, if that is possible. -/
def announce (n : RunNotification) : Action Unit := do
  let _ ← Action.attempt (Action.publish .notifications n.toJson)

def announceRun (run : Uid) (status : RunStatus) : Action Unit :=
  announce { isStepUpdate := false, workflowInstanceUid := run, status }

def announceStep (step : StepInstance) (status : RunStatus) : Action Unit :=
  announce
    { isStepUpdate := true
      workflowInstanceUid := step.workflowInstanceUid
      workflowStepInstanceUid := some step.uid
      status }

/-! ## Reading -/

def readRun (run : Uid) : Action WorkflowInstance := do
  match ← Action.store (.getRun run) with
  | some r => return r
  | none => throw (.runNotFound run)

def readStep (step : Uid) : Action StepInstance := do
  match ← Action.store (.getStep step) with
  | some s => return s
  | none => throw (.stepInstanceNotFound step)

def firstStep (run : Uid) : Action StepInstance := do
  let steps ← Action.store (.listSteps run)
  match steps.find? fun s => s.runOrderLabel = .first with
  | some step => return step
  | none => throw (.noFirstStep run)

/-- What follows the step of a run: a loop follows itself until it is to stop, and any other step is
followed by the next one of the chain. -/
def nextStep (step : StepInstance) : Action (Option StepInstance) := do
  if let .doWhile _ stopCondition := step.shape then
    unless ← evaluateStop step stopCondition do return some step
  match step.nextStepId with
  | some next => Action.store (.getStep next)
  | none => return none

/-- What is shown of a run as it stands. -/
def state (run : Uid) : Action RunSnapshot := do
  let r ← readRun run
  let steps ← Action.store (.listSteps run)
  return r.snapshot steps

/-! ## Making a run -/

def newRun (uid : Uid) (definition : WorkflowDefinition) (steps : List StepInstance)
    (input : Json.Object) (parent parentStep : Option Uid) (createdAt : Instant) :
    WorkflowInstance :=
  { uid
    workflowUid := definition.uid
    name := definition.name
    description := definition.description
    runStatus := .new
    inputData := input
    parentInstanceUid := parent
    parentStepInstanceUid := parentStep
    stepInstanceIds := steps.map (·.uid)
    createdAt }

/-- Puts a new run of a workflow with the given steps into the store. -/
def generate (definition : WorkflowDefinition) (steps : List StepDefinition)
    (input : Json.Object) (parent parentStep : Option Uid) :
    Action (WorkflowInstance × List StepInstance) := do
  if steps.isEmpty then throw (.noSteps definition.name)
  let uid ← Action.newUid
  let stepUids ← Action.newUids steps.length
  let instances := buildStepInstances uid steps input stepUids
  let createdAt ← Action.now
  let run := newRun uid definition instances input parent parentStep createdAt
  Action.store (.insertRun run instances)
  return (run, instances)

/-! ## Changing statuses -/

/-- Sets the status of a run that has not come to its end, and says whether it did. -/
def writeRunStatus (run : Uid) (status : RunStatus) (expected : Option RunStatus) :
    Action Bool := do
  let applied ← Action.store (.updateRunStatus run status expected)
  if applied then announceRun run status
  return applied

/-- Sets the status of a run that has not come to its end. -/
def updateRunStatus (run : Uid) (status : RunStatus) : Action Bool :=
  writeRunStatus run status none

/-- Moves a run from one status to another. -/
def moveRunStatus (run : Uid) (source target : RunStatus) : Action Bool :=
  writeRunStatus run target (some source)

def updateStepStatus (step : StepInstance) (status : RunStatus) : Action Unit := do
  Action.store (.updateStepStatus step.uid status)
  announceStep step status

def launchAttempt (step : StepInstance) (input : Json.Object) : Action StepInstance := do
  let time ← Action.now
  Action.store (.launchStep step.uid input time)
  announceStep step .running
  readStep step.uid

/-- The number of results that a step has to have had for a result to be its next: one less than the
attempt that the result names, and what the step has had if it names none. No attempt precedes the
first. -/
def expectedRunCount (step : StepInstance) (result : StepResult) : Option Int :=
  match result.attempt with
  | some attempt => if attempt < 1 then none else some (attempt - 1)
  | none => some step.runCount

/-- Writes a result onto its step and returns the step, or nothing if the store refuses the
result. -/
def applyResult (step : StepInstance) (result : StepResult) : Action (Option StepInstance) := do
  match expectedRunCount step result with
  | none => return none
  | some expected =>
    let time ← Action.now
    let update : Store.StepUpdate :=
      { runStatus := result.runStatus
        outputData := result.outputData
        failureReason := result.failureReason
        endTime := time
        expectedRunCount := expected }
    if ← Action.store (.applyStepResult step.uid update) then
      announceStep step result.runStatus
      return some (← readStep step.uid)
    else return none

/-! ## Times -/

def setRunStartTime (run : Uid) : Action Unit := do
  Action.store (.setRunStartTime run (← Action.now))

def setRunEndTime (run : Uid) : Action Unit := do
  Action.store (.setRunEndTime run (← Action.now))

def setStepStartTime (step : Uid) : Action Unit := do
  Action.store (.setStepStartTime step (← Action.now))

def setStepEndTime (step : Uid) : Action Unit := do
  Action.store (.setStepEndTime step (← Action.now))

end Engine

end Orchestration
