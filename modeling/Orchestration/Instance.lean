import Orchestration.Definition
import Orchestration.Message

/-!
# Instances

A run of a workflow is a workflow instance with one step instance for every step of the definition.
The steps of a run form a chain: each names the next and the previous one.
-/

namespace Orchestration

structure WorkflowInstance where
  uid : Uid
  workflowUid : Uid
  name : String
  description : Option String := none
  runStatus : RunStatus
  inputData : Json.Object := []
  outputData : Json.Object := []
  /-- Why steps failed, by the names of the steps. -/
  errorMessages : Dict String := []
  startTime : Option Instant := none
  endTime : Option Instant := none
  /-- The run that has started this one, where it is the run of a sub-workflow. -/
  parentInstanceUid : Option Uid := none
  parentStepInstanceUid : Option Uid := none
  stepInstanceIds : List Uid
  /-- The step whose result came while the run was paused. -/
  heldStepInstanceUid : Option Uid := none
  createdAt : Instant
deriving DecidableEq, Repr, Inhabited

structure StepInstance where
  uid : Uid
  workflowInstanceUid : Uid
  stepDefinitionUid : Uid
  name : String
  shape : StepStructure
  /-- The case that the step's decision fell on when it was last launched. -/
  selectedCaseName : Option String := none
  runStatus : RunStatus
  runOrderLabel : OrderLabel
  executionOrder : Int
  nextStepId : Option Uid := none
  previousStepId : Option Uid := none
  /-- How often the step may still be repeated. -/
  retryCount : Int
  /-- How many results of the step have been processed. -/
  runCount : Int
  inputData : Json.Object := []
  outputData : Json.Object := []
  failureReason : Option String := none
  startTime : Option Instant := none
  endTime : Option Instant := none
deriving DecidableEq, Repr, Inhabited

namespace WorkflowInstance

/-- Whether a run was started by a step of another run. -/
def isSubWorkflow (run : WorkflowInstance) : Bool := run.parentInstanceUid.isSome

end WorkflowInstance

namespace StepInstance

/-- Whether the run ends with this step. The only step of a run is its first, but no step follows
it. -/
def isLast (step : StepInstance) : Bool := step.runOrderLabel == .last || step.nextStepId.isNone

end StepInstance

/-! ## Documents -/

open Json (ofMembers optionalMember ofText? ofOption)
open Json.Decoder (record)

def OrderLabel.toJson (l : OrderLabel) : Json := .str l.text

def OrderLabel.decode : Json.Decoder OrderLabel := Json.Decoder.word OrderLabel.ofText?

/-- The document of the reasons of failures. -/
def errorsToJson (errors : Dict String) : Json := .obj (errors.mapValues .str)

namespace WorkflowInstance

def toJson (w : WorkflowInstance) : Json :=
  ofMembers
    [("uid", w.uid.toJson), ("workflowUid", w.workflowUid.toJson), ("name", .str w.name),
      ("description", ofText? w.description), ("runStatus", w.runStatus.toJson),
      ("inputData", .obj w.inputData), ("outputData", .obj w.outputData),
      ("errorMessages", errorsToJson w.errorMessages),
      ("startTime", ofOption Instant.toJson w.startTime),
      ("endTime", ofOption Instant.toJson w.endTime),
      ("parentInstanceUid", ofOption Uid.toJson w.parentInstanceUid),
      ("parentStepInstanceUid", ofOption Uid.toJson w.parentStepInstanceUid),
      ("stepInstanceIds", .arr (w.stepInstanceIds.map Uid.toJson)),
      ("heldStepInstanceUid", ofOption Uid.toJson w.heldStepInstanceUid),
      ("createdAt", w.createdAt.toJson)]

def decode : Json.Decoder WorkflowInstance := fun j => do
  let r ← record
    ["uid", "workflowUid", "name", "description", "runStatus", "inputData", "outputData",
      "errorMessages", "startTime", "endTime", "parentInstanceUid", "parentStepInstanceUid",
      "stepInstanceIds", "heldStepInstanceUid", "createdAt"] j
  return {
    uid := ← r.required "uid" Json.Decoder.uid
    workflowUid := ← r.required "workflowUid" Json.Decoder.uid
    name := ← r.required "name" Json.Decoder.text
    description := ← r.withDefault "description" (Json.Decoder.optional Json.Decoder.text) none
    runStatus := ← r.required "runStatus" RunStatus.decode
    inputData := ← r.withDefault "inputData" Json.Decoder.object []
    outputData := ← r.withDefault "outputData" Json.Decoder.object []
    errorMessages := ← r.withDefault "errorMessages" (Json.Decoder.dict Json.Decoder.text) []
    startTime := ← r.optional "startTime" Json.Decoder.instant
    endTime := ← r.optional "endTime" Json.Decoder.instant
    parentInstanceUid := ← r.optional "parentInstanceUid" Json.Decoder.uid
    parentStepInstanceUid := ← r.optional "parentStepInstanceUid" Json.Decoder.uid
    stepInstanceIds := ← r.required "stepInstanceIds" (Json.Decoder.list Json.Decoder.uid)
    heldStepInstanceUid := ← r.optional "heldStepInstanceUid" Json.Decoder.uid
    createdAt := ← r.required "createdAt" Json.Decoder.instant }

end WorkflowInstance

namespace StepInstance

def toJson (s : StepInstance) : Json :=
  ofMembers
    [("uid", s.uid.toJson), ("workflowInstanceUid", s.workflowInstanceUid.toJson),
      ("stepDefinitionUid", s.stepDefinitionUid.toJson), ("name", .str s.name),
      ("structure", s.shape.toJson), ("selectedCaseName", ofText? s.selectedCaseName),
      ("runStatus", s.runStatus.toJson), ("runOrderLabel", s.runOrderLabel.toJson),
      ("executionOrder", .int s.executionOrder), ("nextStepId", ofOption Uid.toJson s.nextStepId),
      ("previousStepId", ofOption Uid.toJson s.previousStepId), ("retryCount", .int s.retryCount),
      ("runCount", .int s.runCount), ("inputData", .obj s.inputData),
      ("outputData", .obj s.outputData), ("failureReason", ofText? s.failureReason),
      ("startTime", ofOption Instant.toJson s.startTime),
      ("endTime", ofOption Instant.toJson s.endTime)]

def decode : Json.Decoder StepInstance := fun j => do
  let r ← record
    ["uid", "workflowInstanceUid", "stepDefinitionUid", "name", "structure", "selectedCaseName",
      "runStatus", "runOrderLabel", "executionOrder", "nextStepId", "previousStepId", "retryCount",
      "runCount", "inputData", "outputData", "failureReason", "startTime", "endTime"] j
  return {
    uid := ← r.required "uid" Json.Decoder.uid
    workflowInstanceUid := ← r.required "workflowInstanceUid" Json.Decoder.uid
    stepDefinitionUid := ← r.required "stepDefinitionUid" Json.Decoder.uid
    name := ← r.required "name" Json.Decoder.text
    shape := ← r.required "structure" (StepStructure.decode false)
    selectedCaseName := ← r.optional "selectedCaseName" Json.Decoder.text
    runStatus := ← r.required "runStatus" RunStatus.decode
    runOrderLabel := ← r.required "runOrderLabel" OrderLabel.decode
    executionOrder := ← r.required "executionOrder" Json.Decoder.int32
    nextStepId := ← r.optional "nextStepId" Json.Decoder.uid
    previousStepId := ← r.optional "previousStepId" Json.Decoder.uid
    retryCount := ← r.required "retryCount" Json.Decoder.int32
    runCount := ← r.required "runCount" Json.Decoder.int32
    inputData := ← r.withDefault "inputData" Json.Decoder.object []
    outputData := ← r.withDefault "outputData" Json.Decoder.object []
    failureReason := ← r.optional "failureReason" Json.Decoder.text
    startTime := ← r.optional "startTime" Json.Decoder.instant
    endTime := ← r.optional "endTime" Json.Decoder.instant }

end StepInstance

end Orchestration
