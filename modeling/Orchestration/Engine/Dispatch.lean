import Orchestration.Engine.Lifecycle
import Orchestration.Engine.Setup
import Orchestration.Http.Address

/-!
# Dispatching work

Work is handed to a function through the queue, or the function is called at its address and answers
at a callback address that names the run, the step and the attempt. Work that cannot be handed over
comes back as a canceled result of the attempt, so that whoever dispatches it hears of a failure in
one way only.
-/

namespace Orchestration

namespace Engine

/-- The address at which a function answers for an attempt of a step. -/
def callbackAddress (base : String) (run step : Uid) (attempt : Int) : String :=
  s!"{Http.withoutSlashes base}/{run}/{step}?attempt={attempt}"

def publishResult (result : StepResult) : Action Unit := Action.publish .results result.toJson

/-- The number of the attempt that a step is in. It is an integer of 32 bits as long as the step can
count the result of the attempt (`Reachable.attemptOf_bounds`). -/
def attemptOf (step : StepInstance) : Int := step.runCount + 1

/-- The work that an attempt of a step is. -/
def workRequest (step : StepInstance) (input : Json.Object) (f : FunctionInfo) : WorkRequest :=
  { stepInstanceId := step.uid
    workflowInstanceId := step.workflowInstanceUid
    runStatus := step.runStatus
    serviceUrl := f.serviceUrl
    functionName := f.name
    functionType := f.functionType
    cpuRequest := f.cpuRequest
    memoryRequest := f.memoryRequest
    inputData := input
    outputData := step.outputData
    attempt := attemptOf step }

namespace Setup

variable (setup : Setup)

/-- The call that an attempt of a step is. -/
def pushRequest (step : StepInstance) (input : Json.Object) : PushRequest :=
  { inputData := input
    callbackUrl :=
      callbackAddress setup.callbackUrl step.workflowInstanceUid step.uid (attemptOf step) }

def push (step : StepInstance) (input : Json.Object) (f : FunctionInfo) : Action Unit := do
  match f.serviceUrl with
  | none => throw (.noServiceUrl f.name)
  | some url =>
    let response ← Action.post url (setup.pushRequest step input).toJson
    unless response.isSuccess do
      throw (.functionResponded (Http.statusText response.status) response.text)

def handOver (step : StepInstance) (input : Json.Object) (f : FunctionInfo) : Action Unit :=
  match setup.mode with
  | .queue => Action.publish .work (workRequest step input f).toJson
  | .push => setup.push step input f

/-- Hands work over to a function, or reports that this was not possible. -/
def send (step : StepInstance) (input : Json.Object) (f : FunctionInfo) : Action Unit := do
  match ← Action.attempt (setup.handOver step input f) with
  | .ok () => return ()
  | .error e =>
    publishResult (StepResult.canceled step.workflowInstanceUid step.uid (attemptOf step)
      s!"Gateway failed to dispatch function '{f.name}': {e.message}")

end Setup

end Engine

end Orchestration
