import Orchestration.Api.Request
import Orchestration.Engine.Handler
import Orchestration.Engine.Operator

/-!
# Answering requests

The engine answers requests about its health and about runs: they can be started, looked at,
stopped, paused and resumed. Functions that are called at their addresses send their results here. A
result is not handled at once; it is published like the result of an executor.

An error is answered with its words and the status of its kind.
-/

namespace Orchestration

namespace Api

structure Reply where
  status : Nat
  body : Option Json := none
deriving DecidableEq, Repr, Inhabited

/-! ## Health -/

/-- How runs are kept, and whether they can be reached. -/
inductive StorageHealth where
  | inMemory
  | connected
  | disconnected
deriving DecidableEq, Repr, Inhabited

/-- The word for the health of a storage. -/
def StorageHealth.text : StorageHealth → String
  | .inMemory => "in_memory"
  | .connected => "connected"
  | .disconnected => "disconnected"

/-- What is told about the health of an engine. -/
structure Health where
  storage : StorageHealth := .inMemory
  /-- Whether messages go through a broker. -/
  broker : Bool := false
  mode : DispatchMode := .queue
  uptimeSeconds : Nat := 0
deriving DecidableEq, Repr, Inhabited

namespace Health

def version : String := "0.4.0"

/-- The word for a way of dispatching. -/
def modeText : DispatchMode → String
  | .queue => "queue"
  | .push => "push"

/-- Whether an engine can do its work. -/
def isHealthy (h : Health) : Bool := h.storage != .disconnected

/-- What is answered about the health of an engine. -/
def reply (h : Health) : Reply :=
  { status := if h.isHealthy then 200 else 503
    body := some (Json.ofMembers
      [("status", .str (if h.isHealthy then "ok" else "unhealthy")),
        ("storage", .str h.storage.text),
          ("queue", .str (if h.broker then "nats" else "in_memory")),
        ("dispatch_mode", .str (modeText h.mode)), ("uptime_seconds", .int h.uptimeSeconds),
        ("version", .str version)]) }

end Health

/-! ## Resources -/

/-- What an operator can do with a run. -/
inductive RunAction where
  | stop
  | pause
  | resume
deriving DecidableEq, Repr, Inhabited

def RunAction.ofText? : String → Option RunAction
  | "stop" => some .stop
  | "pause" => some .pause
  | "resume" => some .resume
  | _ => none

/-- What a request is about, with the identifiers as they are written. -/
inductive Resource where
  | liveness
  | health
  | runs
  | run (run : String)
  | runAction (run : String) (action : RunAction)
  | results
  | stepResults (run step : String)
deriving DecidableEq, Repr, Inhabited

namespace Resource

def ofSegments? : List String → Option Resource
  | ["", "health"] => some .liveness
  | ["", "api", "health"] => some .health
  | ["", "api", "runs"] => some .runs
  | ["", "api", "runs", id] => if id.isEmpty then none else some (.run id)
  | ["", "api", "runs", id, action] =>
    if id.isEmpty then none else (RunAction.ofText? action).map (.runAction id)
  | ["", "api", "callback"] => some .results
  | ["", "api", "callback", id, step] =>
    if id.isEmpty || step.isEmpty then none else some (.stepResults id step)
  | _ => none

/-- Whether a resource is read, and not written. -/
def isRead : Resource → Bool
  | .liveness | .health | .run _ => true
  | .runs | .runAction .. | .results | .stepResults .. => false

end Resource

/-! ## Answers -/

/-- The status and, if there is one, the document that an action ends with. -/
abbrev Outcome := Nat × Option Json

def errorReply (e : EngineError) : Reply :=
  let words : Json := if e.kind.hasWords then .str e.words else .null
  { status := e.kind.httpStatus
    body := some (Json.ofMembers [("error", words), ("status", .int e.kind.httpStatus)]) }

/-- Answers with what an action ends with. -/
def replyWith (a : Engine.Action Outcome) : Program Engine.Call.Answer Reply := do
  match ← a.run with
  | .ok (status, body) => return { status, body }
  | .error e => return errorReply e

/-- Answers with the outcome of an action that needs something read off the request. -/
def replyTo (extracted : Extracted α) (a : α → Engine.Action Outcome) :
    Program Engine.Call.Answer Reply :=
  match extracted with
  | .ok value => replyWith (a value)
  | .error status => return { status }

def shown (a : Engine.Action RunSnapshot) : Engine.Action Outcome := do
  return (200, some (← a).toJson)

/-- Publishes a result and ends with its acceptance. -/
def accept (result : StepResult) : Engine.Action Outcome := do
  Engine.publishResult result
  return (202, none)

variable (setup : Engine.Setup)

/-- Does with a run what an operator asks for. -/
def actOn (run : Uid) : RunAction → Engine.Action RunSnapshot
  | .stop => Engine.stop run
  | .pause => Engine.pause run
  | .resume => setup.resume run

/-- The result of a step that the parts of a request make up. -/
def stepResult (r : Request) (run step : String) : Extracted StepResult := do
  let run ← uid run
  let step ← uid step
  let attempt ← r.attempt
  return (← r.document callbackFields CallbackBody.decode).toResult run step attempt

/-- Answers a request about a resource. -/
def serve (health : Health) (r : Request) : Resource → Program Engine.Call.Answer Reply
  | .liveness => return { status := 200, body := some (Json.ofMembers [("status", .str "ok")]) }
  | .health => return health.reply
  | .run run => replyTo (uid run) fun run => shown (Engine.state run)
  | .runAction run action => replyTo (uid run) fun run => shown (actOn setup run action)
  | .runs =>
    replyTo (r.document startRunFields StartRunRequest.decode) fun start =>
      shown (setup.startWorkflow start.workflowId start.inputParameters none none)
  | .results => replyTo (r.document stepResultFields StepResult.decode) accept
  | .stepResults run step => replyTo (stepResult r run step) accept

/-- Answers a request. A question for what is allowed is always answered, and the header of what is
read can be asked for alone. -/
def respond (health : Health) (r : Request) : Program Engine.Call.Answer Reply := do
  if r.method = "OPTIONS" then return { status := 200 }
  match Resource.ofSegments? r.segments with
  | none => return { status := 404 }
  | some resource =>
    if resource.isRead && r.method = "HEAD" then
      return { ← serve setup health r resource with body := none }
    if r.method = (if resource.isRead then "GET" else "POST") then serve setup health r resource
    else return { status := 405 }

end Api

end Orchestration
