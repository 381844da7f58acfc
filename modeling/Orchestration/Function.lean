import Orchestration.Json.Decoder

/-!
# Functions

What the catalog of functions tells about a function. The catalog may know more states of a
deployment than the engine does; all of them count as unknown.
-/

namespace Orchestration

/-- The state of a function's deployment. -/
inductive DeploymentState where
  | deployed
  | notDeployed
  | deploying
  | failed
  | unknown
deriving DecidableEq, Repr, Inhabited

namespace DeploymentState

def text : DeploymentState → String
  | .deployed => "DEPLOYED"
  | .notDeployed => "NOT_DEPLOYED"
  | .deploying => "DEPLOYING"
  | .failed => "FAILED"
  | .unknown => "UNKNOWN"

/-- The state of a word; a word for no state stands for an unknown one. -/
def ofText (s : String) : DeploymentState :=
  ([deployed, notDeployed, deploying, failed].find? fun d => d.text = s).getD .unknown

theorem ofText_text (d : DeploymentState) : ofText d.text = d := by cases d <;> decide

def toJson (d : DeploymentState) : Json := .str d.text

def decode : Json.Decoder DeploymentState := Json.Decoder.word fun s => some (ofText s)

end DeploymentState

/-- A function as the catalog describes it. -/
structure FunctionInfo where
  uid : Uid
  name : String
  functionType : String := ""
  deploymentState : DeploymentState
  /-- Whether the engine may have the function deployed when a run needs it. -/
  lazyDeployment : Bool := false
  serviceUrl : Option String := none
  cpuRequest : Option String := none
  memoryRequest : Option String := none
deriving DecidableEq, Repr, Inhabited

namespace FunctionInfo

def isDeployed (f : FunctionInfo) : Bool := f.deploymentState == .deployed

def toJson (f : FunctionInfo) : Json :=
  Json.ofMembers
    [("uid", f.uid.toJson), ("name", .str f.name), ("type", .str f.functionType),
      ("deploymentState", f.deploymentState.toJson), ("lazyDeployment", .bool f.lazyDeployment),
      ("serviceUrl", Json.ofText? f.serviceUrl), ("cpuRequest", Json.ofText? f.cpuRequest),
      ("memoryRequest", Json.ofText? f.memoryRequest)]

open Json.Decoder in
def decode : Json.Decoder FunctionInfo := fun j => do
  let r ← record
    ["uid", "name", "type", "deploymentState", "lazyDeployment", "serviceUrl", "cpuRequest",
      "memoryRequest"] j
  return {
    uid := ← r.required "uid" Json.Decoder.uid
    name := ← r.required "name" text
    functionType := ← r.withDefault "type" text ""
    deploymentState := ← r.required "deploymentState" DeploymentState.decode
    lazyDeployment := ← r.withDefault "lazyDeployment" bool false
    serviceUrl := ← r.withDefault "serviceUrl" (Json.Decoder.optional text) none
    cpuRequest := ← r.withDefault "cpuRequest" (Json.Decoder.optional text) none
    memoryRequest := ← r.withDefault "memoryRequest" (Json.Decoder.optional text) none }

end FunctionInfo

end Orchestration
