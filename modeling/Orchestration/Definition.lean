import Orchestration.Json.Decoder
import Orchestration.Status

/-!
# Workflow definitions

A workflow is a list of steps. Each step has one of four control structures: it calls a function, it
calls the function or starts the workflow of the case that an expression picks, it calls a function
until a condition holds, or it starts another workflow.
-/

namespace Orchestration

/-- When a workflow is to be restarted. -/
inductive RestartPolicy where
  | never
  | onFailure
  | always
deriving DecidableEq, Repr, Inhabited

namespace RestartPolicy

def text : RestartPolicy → String
  | .never => "NEVER"
  | .onFailure => "ON_FAILURE"
  | .always => "ALWAYS"

def ofText? (s : String) : Option RestartPolicy :=
  [never, onFailure, always].find? fun p => p.text = s

theorem ofText?_text (p : RestartPolicy) : ofText? p.text = some p := by cases p <;> decide

end RestartPolicy

inductive CaseTarget where
  | function (ref : Uid)
  | subWorkflow (ref : Uid)
deriving DecidableEq, Repr, Inhabited

/-- The control structure of a step with what belongs to it. -/
inductive StepStructure where
  | simple (function : Uid)
  | switch (expression : String) (cases : Dict CaseTarget)
  | doWhile (function : Uid) (stopCondition : String)
  | subWorkflow (workflow : Uid)
deriving DecidableEq, Repr, Inhabited

structure StepDefinition where
  uid : Uid
  name : String
  executionOrder : Int
  /-- How often the step may be repeated after a failure. -/
  retryCount : Int := 0
  /-- The input of the step, with formulas among its texts. -/
  inputData : Json.Object := []
  shape : StepStructure
deriving DecidableEq, Repr, Inhabited

structure WorkflowDefinition where
  uid : Uid
  name : String
  description : Option String := none
  steps : List StepDefinition := []
  restartPolicy : RestartPolicy := .never
  /-- A limit in seconds, which the executors enforce. -/
  timeout : Option Nat := none
deriving DecidableEq, Repr, Inhabited

namespace StepStructure

def control : StepStructure → ControlStructure
  | .simple _ => .simple
  | .switch .. => .switch
  | .doWhile .. => .doWhile
  | .subWorkflow _ => .subWorkflow

/-- The functions that a step may call, those of the cases of a decision in the order of their
names. -/
def functionRefs : StepStructure → List Uid
  | .simple f | .doWhile f _ => [f]
  | .switch _ cases =>
    cases.filterMap fun (_, target) => match target with
      | .function f => some f
      | .subWorkflow _ => none
  | .subWorkflow _ => []

end StepStructure

/-! ## Documents -/

namespace CaseTarget

/-- The tags of cases, in the order of the variants. -/
inductive Tag where
  | function
  | subWorkflow

def Tag.ofText? : String → Option Tag
  | "FUNCTION" => some .function
  | "SUB_WORKFLOW" => some .subWorkflow
  | _ => none

def toJson : CaseTarget → Json
  | .function f => Json.ofMembers [("type", .str "FUNCTION"), ("functionRef", f.toJson)]
  | .subWorkflow w => Json.ofMembers [("type", .str "SUB_WORKFLOW"), ("subWorkflowRef", w.toJson)]

open Json.Decoder in
/-- Decodes a case; inside a control structure its tag may also be written as a number. -/
def decode (byIndex : Bool) : Json.Decoder CaseTarget := fun j => do
  let (tag, rest) ← tagged "type" j
  match ← variant byIndex [Tag.function, .subWorkflow] Tag.ofText? tag with
  | .function =>
    let r ← record ["functionRef"] rest
    return .function (← r.required "functionRef" Json.Decoder.uid)
  | .subWorkflow =>
    let r ← record ["subWorkflowRef"] rest
    return .subWorkflow (← r.required "subWorkflowRef" Json.Decoder.uid)

end CaseTarget

namespace StepStructure

/-- The members of the document of a control structure. -/
def toMembers (s : StepStructure) : List (String × Json) :=
  ("controlStructure", .str s.control.text) :: match s with
    | .simple f => [("functionRef", f.toJson)]
    | .switch e cases =>
      [("switchExpression", .str e), ("decisionCases", .obj (cases.mapValues CaseTarget.toJson))]
    | .doWhile f stop => [("functionRef", f.toJson), ("stopCondition", .str stop)]
    | .subWorkflow w => [("subWorkflowRef", w.toJson)]

/-- The document of a control structure. -/
def toJson (s : StepStructure) : Json := Json.ofMembers s.toMembers

open Json.Decoder in
/-- Decodes a control structure; among the members of a step its tag may also be written as a
number. -/
def decode (byIndex : Bool) : Json.Decoder StepStructure := fun j => do
  let (tag, rest) ← tagged "controlStructure" j
  match ← variant byIndex ControlStructure.all ControlStructure.ofText? tag with
  | .simple =>
    let r ← record ["functionRef"] rest
    return .simple (← r.required "functionRef" Json.Decoder.uid)
  | .switch =>
    let r ← record ["switchExpression", "decisionCases"] rest
    return .switch (← r.required "switchExpression" text)
      (← r.required "decisionCases" (dict (CaseTarget.decode true)))
  | .doWhile =>
    let r ← record ["functionRef", "stopCondition"] rest
    return .doWhile (← r.required "functionRef" Json.Decoder.uid)
      (← r.required "stopCondition" text)
  | .subWorkflow =>
    let r ← record ["subWorkflowRef"] rest
    return .subWorkflow (← r.required "subWorkflowRef" Json.Decoder.uid)

end StepStructure

namespace StepDefinition

/-- The names of a step's own members; all others belong to its control structure. -/
def ownNames : List String := ["uid", "name", "executionOrder", "retryCount", "inputData"]

/-- The document of a step: its own members and those of its control structure. -/
def toJson (s : StepDefinition) : Json :=
  Json.ofMembers
    ([("uid", s.uid.toJson), ("name", .str s.name), ("executionOrder", .int s.executionOrder),
      ("retryCount", .int s.retryCount), ("inputData", .obj s.inputData)] ++ s.shape.toMembers)

open Json.Decoder in
/-- Decodes a step, which is always an object. -/
def decode : Json.Decoder StepDefinition := fun j => do
  let r ← named ownNames j
  let others ← match j with
    | .obj members => some (members.filter fun m => !ownNames.contains m.1)
    | _ => none
  return {
    uid := ← r.required "uid" Json.Decoder.uid
    name := ← r.required "name" text
    executionOrder := ← r.required "executionOrder" int32
    retryCount := ← r.withDefault "retryCount" int32 0
    inputData := ← r.withDefault "inputData" object []
    shape := ← StepStructure.decode true (.obj others) }

end StepDefinition

namespace WorkflowDefinition

def toJson (w : WorkflowDefinition) : Json :=
  Json.ofMembers
    [("uid", w.uid.toJson), ("name", .str w.name), ("description", Json.ofText? w.description),
      ("steps", .arr (w.steps.map StepDefinition.toJson)),
      ("restartPolicy", .str w.restartPolicy.text),
      ("timeout", Json.ofOption (fun (n : Nat) => .int n) w.timeout)]

open Json.Decoder in
def decode : Json.Decoder WorkflowDefinition := fun j => do
  let r ← record ["uid", "name", "description", "steps", "restartPolicy", "timeout"] j
  return {
    uid := ← r.required "uid" Json.Decoder.uid
    name := ← r.required "name" text
    description := ← r.withDefault "description" (Json.Decoder.optional text) none
    steps := ← r.withDefault "steps" (list StepDefinition.decode) []
    restartPolicy := ← r.withDefault "restartPolicy" (word RestartPolicy.ofText?) .never
    timeout := ← r.withDefault "timeout" (Json.Decoder.optional nat64) none }

end WorkflowDefinition

end Orchestration
