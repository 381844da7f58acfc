import Orchestration.Json.Decoder
import Orchestration.Status

/-!
# Messages

What the engine, the executors and the functions tell one another. An attempt is numbered from one;
a result repeats the number of the attempt that it answers, or leaves it out.
-/

namespace Orchestration

/-- Decodes a status, which is written exactly as it is printed. -/
def RunStatus.decode : Json.Decoder RunStatus := Json.Decoder.word RunStatus.ofText?

def RunStatus.toJson (s : RunStatus) : Json := .str s.text

/-- Work for an executor: a function to call for a step. -/
structure WorkRequest where
  stepInstanceId : Uid
  workflowInstanceId : Uid
  runStatus : RunStatus
  serviceUrl : Option String
  functionName : String
  functionType : String
  cpuRequest : Option String
  memoryRequest : Option String
  inputData : Json.Object
  outputData : Json.Object
  attempt : Int
deriving DecidableEq, Repr, Inhabited

/-- The result of an attempt of a step. -/
structure StepResult where
  stepInstanceId : Uid
  workflowInstanceId : Uid
  runStatus : RunStatus
  failureReason : Option String := none
  callBackUrl : Option String := none
  inputData : Json.Object := []
  outputData : Json.Object := []
  attempt : Option Int := none
deriving DecidableEq, Repr, Inhabited

/-- The body that a function is called with where calls go to it directly. -/
structure PushRequest where
  inputData : Json.Object
  callbackUrl : String
  failureReason : Option String := none
deriving DecidableEq, Repr, Inhabited

/-- The body that a function answers with at its callback address. -/
structure CallbackBody where
  runStatus : RunStatus
  failureReason : Option String := none
  inputData : Json.Object := []
  outputData : Json.Object := []
deriving DecidableEq, Repr, Inhabited

/-- What came of waiting for functions to be deployed. -/
structure DeploymentOutcome where
  workflowInstanceId : Uid
  ready : Bool
  failureReason : Option String := none
deriving DecidableEq, Repr, Inhabited

/-- The announcement of a status, of a run or of one of its steps. -/
structure RunNotification where
  isStepUpdate : Bool
  workflowInstanceUid : Uid
  workflowStepInstanceUid : Option Uid := none
  status : RunStatus
deriving DecidableEq, Repr, Inhabited

structure StartRunRequest where
  workflowId : Uid
  inputParameters : Json.Object := []
deriving DecidableEq, Repr, Inhabited

/-- The result that stands for an attempt that could not be dispatched. -/
def StepResult.canceled (run step : Uid) (attempt : Int) (reason : String) : StepResult :=
  { stepInstanceId := step
    workflowInstanceId := run
    runStatus := .canceled
    failureReason := some reason
    attempt := some attempt }

/-- The result that a callback stands for. -/
def CallbackBody.toResult (b : CallbackBody) (run step : Uid) (attempt : Option Int) :
    StepResult :=
  { stepInstanceId := step
    workflowInstanceId := run
    runStatus := b.runStatus
    failureReason := b.failureReason
    inputData := b.inputData
    outputData := b.outputData
    attempt := attempt }

/-! ## Documents -/

open Json (ofMembers optionalMember ofText?)
open Json.Decoder (record)

namespace WorkRequest

def toJson (w : WorkRequest) : Json :=
  ofMembers
    [("stepInstanceId", w.stepInstanceId.toJson),
      ("workflowInstanceId", w.workflowInstanceId.toJson), ("runStatus", w.runStatus.toJson),
      ("serviceUrl", ofText? w.serviceUrl), ("functionName", .str w.functionName),
      ("functionType", .str w.functionType), ("cpuRequest", ofText? w.cpuRequest),
      ("memoryRequest", ofText? w.memoryRequest), ("inputData", .obj w.inputData),
      ("outputData", .obj w.outputData), ("attempt", .int w.attempt)]

def decode : Json.Decoder WorkRequest := fun j => do
  let r ← record
    ["stepInstanceId", "workflowInstanceId", "runStatus", "serviceUrl", "functionName",
      "functionType", "cpuRequest", "memoryRequest", "inputData", "outputData", "attempt"] j
  return {
    stepInstanceId := ← r.required "stepInstanceId" Json.Decoder.uid
    workflowInstanceId := ← r.required "workflowInstanceId" Json.Decoder.uid
    runStatus := ← r.required "runStatus" RunStatus.decode
    serviceUrl := ← r.optional "serviceUrl" Json.Decoder.text
    functionName := ← r.required "functionName" Json.Decoder.text
    functionType := ← r.required "functionType" Json.Decoder.text
    cpuRequest := ← r.optional "cpuRequest" Json.Decoder.text
    memoryRequest := ← r.optional "memoryRequest" Json.Decoder.text
    inputData := ← r.required "inputData" Json.Decoder.object
    outputData := ← r.required "outputData" Json.Decoder.object
    attempt := ← r.required "attempt" Json.Decoder.int32 }

end WorkRequest

namespace StepResult

/-- The document of a result; what is absent is left out. -/
def toJson (s : StepResult) : Json :=
  ofMembers
    ([("stepInstanceId", s.stepInstanceId.toJson),
      ("workflowInstanceId", s.workflowInstanceId.toJson), ("runStatus", s.runStatus.toJson),
      ("inputData", .obj s.inputData), ("outputData", .obj s.outputData)] ++
      optionalMember "failureReason" .str s.failureReason ++
      optionalMember "callBackUrl" .str s.callBackUrl ++ optionalMember "attempt" .int s.attempt)

def decode : Json.Decoder StepResult := fun j => do
  let r ← record
    ["stepInstanceId", "workflowInstanceId", "runStatus", "failureReason", "callBackUrl",
      "inputData", "outputData", "attempt"] j
  return {
    stepInstanceId := ← r.required "stepInstanceId" Json.Decoder.uid
    workflowInstanceId := ← r.required "workflowInstanceId" Json.Decoder.uid
    runStatus := ← r.required "runStatus" RunStatus.decode
    failureReason := ← r.withDefault "failureReason" (Json.Decoder.optional Json.Decoder.text) none
    callBackUrl := ← r.withDefault "callBackUrl" (Json.Decoder.optional Json.Decoder.text) none
    inputData := ← r.withDefault "inputData" Json.Decoder.object []
    outputData := ← r.withDefault "outputData" Json.Decoder.object []
    attempt := ← r.withDefault "attempt" (Json.Decoder.optional Json.Decoder.int32) none }

end StepResult

namespace PushRequest

def toJson (p : PushRequest) : Json :=
  ofMembers
    ([("inputData", .obj p.inputData), ("callbackUrl", .str p.callbackUrl)] ++
      optionalMember "failureReason" .str p.failureReason)

def decode : Json.Decoder PushRequest := fun j => do
  let r ← record ["inputData", "callbackUrl", "failureReason"] j
  return {
    inputData := ← r.required "inputData" Json.Decoder.object
    callbackUrl := ← r.required "callbackUrl" Json.Decoder.text
    failureReason :=
      ← r.withDefault "failureReason" (Json.Decoder.optional Json.Decoder.text) none }

end PushRequest

namespace CallbackBody

def toJson (b : CallbackBody) : Json :=
  ofMembers
    [("runStatus", b.runStatus.toJson), ("failureReason", ofText? b.failureReason),
      ("inputData", .obj b.inputData), ("outputData", .obj b.outputData)]

def decode : Json.Decoder CallbackBody := fun j => do
  let r ← record ["runStatus", "failureReason", "inputData", "outputData"] j
  return {
    runStatus := ← r.required "runStatus" RunStatus.decode
    failureReason := ← r.withDefault "failureReason" (Json.Decoder.optional Json.Decoder.text) none
    inputData := ← r.withDefault "inputData" Json.Decoder.object []
    outputData := ← r.withDefault "outputData" Json.Decoder.object [] }

end CallbackBody

namespace DeploymentOutcome

def toJson (o : DeploymentOutcome) : Json :=
  ofMembers
    ([("workflowInstanceId", o.workflowInstanceId.toJson), ("ready", .bool o.ready)] ++
      optionalMember "failureReason" .str o.failureReason)

def decode : Json.Decoder DeploymentOutcome := fun j => do
  let r ← record ["workflowInstanceId", "ready", "failureReason"] j
  return {
    workflowInstanceId := ← r.required "workflowInstanceId" Json.Decoder.uid
    ready := ← r.required "ready" Json.Decoder.bool
    failureReason :=
      ← r.withDefault "failureReason" (Json.Decoder.optional Json.Decoder.text) none }

end DeploymentOutcome

namespace RunNotification

def toJson (n : RunNotification) : Json :=
  ofMembers
    ([("isStepUpdate", .bool n.isStepUpdate),
      ("workflowInstanceUid", n.workflowInstanceUid.toJson), ("status", n.status.toJson)] ++
      optionalMember "workflowStepInstanceUid" Uid.toJson n.workflowStepInstanceUid)

def decode : Json.Decoder RunNotification := fun j => do
  let r ← record ["isStepUpdate", "workflowInstanceUid", "workflowStepInstanceUid", "status"] j
  return {
    isStepUpdate := ← r.required "isStepUpdate" Json.Decoder.bool
    workflowInstanceUid := ← r.required "workflowInstanceUid" Json.Decoder.uid
    workflowStepInstanceUid := ← r.optional "workflowStepInstanceUid" Json.Decoder.uid
    status := ← r.required "status" RunStatus.decode }

end RunNotification

namespace StartRunRequest

def toJson (s : StartRunRequest) : Json :=
  ofMembers [("workflowId", s.workflowId.toJson), ("inputParameters", .obj s.inputParameters)]

def decode : Json.Decoder StartRunRequest := fun j => do
  let r ← record ["workflowId", "inputParameters"] j
  return {
    workflowId := ← r.required "workflowId" Json.Decoder.uid
    inputParameters := ← r.withDefault "inputParameters" Json.Decoder.object [] }

end StartRunRequest

end Orchestration
