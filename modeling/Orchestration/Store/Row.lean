import Orchestration.Error
import Orchestration.Snapshot

/-!
# Rows of the database

A run and a step are each stored as one row. Statuses and positions are stored as texts, data as
documents, and both are checked when a row is read. A column of data that holds no object is read as
empty.
-/

namespace Orchestration

namespace Store

structure WorkflowRow where
  uid : Uid
  workflowUid : Uid
  name : String
  description : Option String := none
  runStatus : String
  inputData : Json
  outputData : Json
  errorMessages : Json
  startTime : Option Instant := none
  endTime : Option Instant := none
  parentInstanceUid : Option Uid := none
  parentStepInstanceUid : Option Uid := none
  stepInstanceIds : List Uid
  heldStepInstanceUid : Option Uid := none
  createdAt : Instant
deriving DecidableEq, Repr, Inhabited

structure StepRow where
  uid : Uid
  workflowInstanceUid : Uid
  stepDefinitionUid : Uid
  name : String
  controlStructure : String
  /-- The document of the step's control structure. -/
  shape : Json
  selectedCaseName : Option String := none
  runStatus : String
  runOrderLabel : String
  executionOrder : Int
  nextStepId : Option Uid := none
  previousStepId : Option Uid := none
  retryCount : Int
  runCount : Int
  inputData : Json
  outputData : Json
  failureReason : Option String := none
  startTime : Option Instant := none
  endTime : Option Instant := none
deriving DecidableEq, Repr, Inhabited

/-! ## Writing rows -/

def WorkflowRow.ofInstance (w : WorkflowInstance) : WorkflowRow :=
  { uid := w.uid
    workflowUid := w.workflowUid
    name := w.name
    description := w.description
    runStatus := w.runStatus.text
    inputData := .obj w.inputData
    outputData := .obj w.outputData
    errorMessages := errorsToJson w.errorMessages
    startTime := w.startTime
    endTime := w.endTime
    parentInstanceUid := w.parentInstanceUid
    parentStepInstanceUid := w.parentStepInstanceUid
    stepInstanceIds := w.stepInstanceIds
    heldStepInstanceUid := w.heldStepInstanceUid
    createdAt := w.createdAt }

def StepRow.ofInstance (s : StepInstance) : StepRow :=
  { uid := s.uid
    workflowInstanceUid := s.workflowInstanceUid
    stepDefinitionUid := s.stepDefinitionUid
    name := s.name
    controlStructure := s.shape.control.text
    shape := s.shape.toJson
    selectedCaseName := s.selectedCaseName
    runStatus := s.runStatus.text
    runOrderLabel := s.runOrderLabel.text
    executionOrder := s.executionOrder
    nextStepId := s.nextStepId
    previousStepId := s.previousStepId
    retryCount := s.retryCount
    runCount := s.runCount
    inputData := .obj s.inputData
    outputData := .obj s.outputData
    failureReason := s.failureReason
    startTime := s.startTime
    endTime := s.endTime }

/-! ## Reading rows -/

def readStatus (s : String) : Except EngineError RunStatus :=
  match RunStatus.parse s with
  | .ok status => .ok status
  | .error word => .error (.other .internal ("Unknown run status: " ++ word))

def readLabel (s : String) : Except EngineError OrderLabel :=
  match OrderLabel.ofText? s with
  | some label => .ok label
  | none => .error (.other .internal ("Unknown run order label: " ++ s))

def readDocument (d : Json.Decoder α) (j : Json) : Except EngineError α :=
  match d j with
  | some a => .ok a
  | none => .error .undecodable

def readData : Json → Json.Object
  | .obj members => Json.canonicalMembers members
  | _ => []

def WorkflowRow.toInstance (r : WorkflowRow) : Except EngineError WorkflowInstance := do
  let errors ← readDocument (Json.Decoder.dict Json.Decoder.text) r.errorMessages
  let status ← readStatus r.runStatus
  return {
    uid := r.uid
    workflowUid := r.workflowUid
    name := r.name
    description := r.description
    runStatus := status
    inputData := readData r.inputData
    outputData := readData r.outputData
    errorMessages := errors
    startTime := r.startTime
    endTime := r.endTime
    parentInstanceUid := r.parentInstanceUid
    parentStepInstanceUid := r.parentStepInstanceUid
    stepInstanceIds := r.stepInstanceIds
    heldStepInstanceUid := r.heldStepInstanceUid
    createdAt := r.createdAt }

def StepRow.toInstance (r : StepRow) : Except EngineError StepInstance := do
  let label ← readLabel r.runOrderLabel
  let shape ← readDocument (StepStructure.decode false) r.shape
  let status ← readStatus r.runStatus
  return {
    uid := r.uid
    workflowInstanceUid := r.workflowInstanceUid
    stepDefinitionUid := r.stepDefinitionUid
    name := r.name
    shape := shape
    selectedCaseName := r.selectedCaseName
    runStatus := status
    runOrderLabel := label
    executionOrder := r.executionOrder
    nextStepId := r.nextStepId
    previousStepId := r.previousStepId
    retryCount := r.retryCount
    runCount := r.runCount
    inputData := readData r.inputData
    outputData := readData r.outputData
    failureReason := r.failureReason
    startTime := r.startTime
    endTime := r.endTime }

end Store

end Orchestration
