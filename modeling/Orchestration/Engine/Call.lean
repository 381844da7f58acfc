import Orchestration.Program
import Orchestration.Store.Call
import Orchestration.Queue.Channel
import Orchestration.Http.Response
import Orchestration.Function
import Orchestration.Message
import Orchestration.Json.Printer
import Orchestration.Definition

/-!
# What the engine asks of its collaborators

The engine has a store, a queue, the catalogs of functions and workflows, the functions themselves,
a clock, a source of new identifiers, and a place for work that goes on behind its back. An action
is a program over calls of these that may fail.

A collaborator may fail at any call. Only the clock, the identifiers and the start of background
work never do.
-/

namespace Orchestration

namespace Engine

/-- Work that goes on behind an operation once it has answered. -/
inductive BackgroundTask where
  /-- Removes runs that have been kept long enough. -/
  | sweep (keepDays : Int) (maxCount : Nat)
  /-- Watches over the deployment of the functions that a run waits for. -/
  | watch (run : Uid) (functions : List Uid)
deriving DecidableEq, Repr, Inhabited

inductive Call where
  | store (c : Store.Call)
  | publish (channel : Channel) (payload : String)
  | getFunction (function : Uid)
  | deployFunction (function : Uid)
  | getWorkflow (workflow : Uid)
  | getStepList (workflow : Uid)
  /-- Sends a document to an address. -/
  | post (address body : String)
  | now
  | newUid
  | spawn (task : BackgroundTask)
deriving Repr, Inhabited

abbrev Call.Answer : Call → Type
  | .store c => Except EngineError c.Value
  | .publish .. | .deployFunction _ => Except EngineError Unit
  | .getFunction _ => Except EngineError FunctionInfo
  | .getWorkflow _ => Except EngineError WorkflowDefinition
  | .getStepList _ => Except EngineError (List StepDefinition)
  | .post .. => Except EngineError Http.Response
  | .now => Instant
  | .newUid => Uid
  | .spawn _ => Unit

/-- A program of the engine that may fail. -/
abbrev Action (α : Type) : Type := ExceptT EngineError (Program Call.Answer) α

namespace Action

variable {α : Type}

def store (c : Store.Call) : Action c.Value := ExceptT.mk (Program.ask (Call.store c))

def publish (channel : Channel) (document : Json) : Action Unit :=
  ExceptT.mk (Program.ask (Call.publish channel document.text))

def getFunction (function : Uid) : Action FunctionInfo :=
  ExceptT.mk (Program.ask (Call.getFunction function))

/-- Asks for the deployment of a function. -/
def deployFunction (function : Uid) : Action Unit :=
  ExceptT.mk (Program.ask (Call.deployFunction function))

def getWorkflow (workflow : Uid) : Action WorkflowDefinition :=
  ExceptT.mk (Program.ask (Call.getWorkflow workflow))

def getStepList (workflow : Uid) : Action (List StepDefinition) :=
  ExceptT.mk (Program.ask (Call.getStepList workflow))

def post (address : String) (document : Json) : Action Http.Response :=
  ExceptT.mk (Program.ask (Call.post address document.text))

def now : Action Instant := ExceptT.lift (Program.ask Call.now)

def newUid : Action Uid := ExceptT.lift (Program.ask Call.newUid)

def spawn (task : BackgroundTask) : Action Unit := ExceptT.lift (Program.ask (Call.spawn task))

/-- Carries an action out and goes on with its outcome, even if it fails. -/
def attempt (a : Action α) : Action (Except EngineError α) := ExceptT.lift a.run

/-- Carries an action out as far as so many calls go, and goes on with its outcome if that is
enough. -/
def within (n : Nat) (a : Action α) : Action (Option (Except EngineError α)) :=
  ExceptT.lift (a.run.cut n)

/-- Goes on with what has been computed. -/
def ofExcept (e : Except EngineError α) : Action α := ExceptT.mk (pure e)

def newUids : Nat → Action (List Uid)
  | 0 => pure []
  | n + 1 => do
    let uid ← newUid
    return uid :: (← newUids n)

end Action

end Engine

end Orchestration
