import Orchestration.Instance
import Orchestration.Order

/-!
# Snapshots

What is shown of a run: the run with its steps in the order of their execution.
-/

namespace Orchestration

structure StepSnapshot where
  uid : Uid
  name : String
  controlStructure : ControlStructure
  runStatus : RunStatus
  runOrderLabel : OrderLabel
  runCount : Int
  retryCount : Int
  selectedCaseName : Option String := none
  failureReason : Option String := none
  startTime : Option Instant := none
  endTime : Option Instant := none
deriving DecidableEq, Repr, Inhabited

structure RunSnapshot where
  runUid : Uid
  workflowName : String
  runStatus : RunStatus
  runSteps : List StepSnapshot
  startTime : Option Instant := none
  endTime : Option Instant := none
  failureReason : Option String := none
  outputData : Json.Object
deriving DecidableEq, Repr, Inhabited

def StepInstance.snapshot (s : StepInstance) : StepSnapshot :=
  { uid := s.uid
    name := s.name
    controlStructure := s.shape.control
    runStatus := s.runStatus
    runOrderLabel := s.runOrderLabel
    runCount := s.runCount
    retryCount := s.retryCount
    selectedCaseName := s.selectedCaseName
    failureReason := s.failureReason
    startTime := s.startTime
    endTime := s.endTime }

/-- Steps in the order of their execution; steps of one order keep theirs. -/
def inExecutionOrder (steps : List StepInstance) : List StepInstance :=
  ordered (fun a b => a.executionOrder ≤ b.executionOrder) steps

/-- The reasons of failures as one text, if there are any. -/
def failureText? (errors : Dict String) : Option String :=
  if errors.isEmpty then none
  else some ("; ".intercalate (errors.map fun (step, reason) => step ++ ": " ++ reason))

/-- What is shown of a run with the given steps. -/
def WorkflowInstance.snapshot (run : WorkflowInstance) (steps : List StepInstance) :
    RunSnapshot :=
  { runUid := run.uid
    workflowName := run.name
    runStatus := run.runStatus
    runSteps := (inExecutionOrder steps).map StepInstance.snapshot
    startTime := run.startTime
    endTime := run.endTime
    failureReason := failureText? run.errorMessages
    outputData := run.outputData }

/-! ## Documents -/

open Json (ofMembers optionalMember)
open Json.Decoder (record)

namespace StepSnapshot

/-- The document of what is shown of a step. -/
def toJson (s : StepSnapshot) : Json :=
  ofMembers
    ([("uid", s.uid.toJson), ("name", .str s.name),
      ("controlStructure", .str s.controlStructure.text), ("runStatus", s.runStatus.toJson),
      ("runOrderLabel", s.runOrderLabel.toJson), ("runCount", .int s.runCount),
      ("retryCount", .int s.retryCount)] ++
      optionalMember "selectedCaseName" .str s.selectedCaseName ++
      optionalMember "failureReason" .str s.failureReason ++
      optionalMember "startTime" Instant.toJson s.startTime ++
      optionalMember "endTime" Instant.toJson s.endTime)

def decode : Json.Decoder StepSnapshot := fun j => do
  let r ← record
    ["uid", "name", "controlStructure", "runStatus", "runOrderLabel", "runCount", "retryCount",
      "selectedCaseName", "failureReason", "startTime", "endTime"] j
  return {
    uid := ← r.required "uid" Json.Decoder.uid
    name := ← r.required "name" Json.Decoder.text
    controlStructure := ← r.required "controlStructure" (Json.Decoder.word ControlStructure.ofText?)
    runStatus := ← r.required "runStatus" RunStatus.decode
    runOrderLabel := ← r.required "runOrderLabel" OrderLabel.decode
    runCount := ← r.required "runCount" Json.Decoder.int32
    retryCount := ← r.required "retryCount" Json.Decoder.int32
    selectedCaseName := ← r.optional "selectedCaseName" Json.Decoder.text
    failureReason := ← r.optional "failureReason" Json.Decoder.text
    startTime := ← r.optional "startTime" Json.Decoder.instant
    endTime := ← r.optional "endTime" Json.Decoder.instant }

end StepSnapshot

namespace RunSnapshot

/-- The document of what is shown of a run. -/
def toJson (s : RunSnapshot) : Json :=
  ofMembers
    ([("runUid", s.runUid.toJson), ("workflowName", .str s.workflowName),
      ("runStatus", s.runStatus.toJson), ("runSteps", .arr (s.runSteps.map StepSnapshot.toJson)),
      ("outputData", .obj s.outputData)] ++
      optionalMember "startTime" Instant.toJson s.startTime ++
      optionalMember "endTime" Instant.toJson s.endTime ++
      optionalMember "failureReason" .str s.failureReason)

def decode : Json.Decoder RunSnapshot := fun j => do
  let r ← record
    ["runUid", "workflowName", "runStatus", "runSteps", "startTime", "endTime", "failureReason",
      "outputData"] j
  return {
    runUid := ← r.required "runUid" Json.Decoder.uid
    workflowName := ← r.required "workflowName" Json.Decoder.text
    runStatus := ← r.required "runStatus" RunStatus.decode
    runSteps := ← r.required "runSteps" (Json.Decoder.list StepSnapshot.decode)
    startTime := ← r.optional "startTime" Json.Decoder.instant
    endTime := ← r.optional "endTime" Json.Decoder.instant
    failureReason := ← r.optional "failureReason" Json.Decoder.text
    outputData := ← r.required "outputData" Json.Decoder.object }

end RunSnapshot

end Orchestration
