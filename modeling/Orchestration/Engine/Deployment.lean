import Orchestration.Engine.Advance

/-!
# Waiting for functions

A run whose functions are being deployed waits, and a watch in the background looks at the functions
from time to time. It ends with an outcome: all functions are deployed, one of them cannot be, or it
has taken too long. The outcome is published like any other message and moves the run on. A run that
has left its wait for another reason needs no outcome.

An outcome that cannot be published is tried again, each time after a longer pause. When that is of
no use either, the watch ends the run itself, because nothing else would ever do so.

A watch sleeps between its looks, so it is cut into phases: each is a program that ends with the
time at which the next one begins. A time here is a count of milliseconds. The deadline of the wait
may pass in the midst of a look too, which is given up then after some of its calls (`Setup.wake`);
on a clock that moves only between operations it never does (`Setup.watch`).
-/

namespace Orchestration

namespace Engine

/-! ## The outcome of a wait -/

/-- The reason why a run fails whose outcome gives none. -/
def deploymentFailed : String := "Function deployment failed"

def Setup.processOutcome (setup : Setup) (outcome : DeploymentOutcome) : Action Unit := do
  let run := outcome.workflowInstanceId
  if outcome.ready then
    let moved ← moveRunStatus run .deployingFunctions .running
    let first ← firstStep run
    if moved then setup.launchStep first
    else
      let r ← readRun run
      if r.runStatus = .running ∧ first.runStatus = .new then setup.launchStep first
  else
    let r ← readRun run
    if r.runStatus = .deployingFunctions then
      setup.fail run .failedWithTerminalError r.name
        (outcome.failureReason.getD deploymentFailed)

/-! ## Looking -/

/-- What a look at the functions of a run finds. -/
inductive Look where
  | ready
  | abandoned
  | pending (functions : List Uid)
deriving DecidableEq, Repr, Inhabited

/-- Those functions whose deployment goes on. -/
def stillPending : List Uid → Action (List Uid)
  | [] => return []
  | uid :: rest => do
    let f ← Action.getFunction uid
    match f.deploymentState with
    | .deployed => stillPending rest
    | .failed => throw (.deploymentFailed f.name)
    | .notDeployed | .deploying | .unknown => return uid :: (← stillPending rest)

/-- Looks at the functions that a run waits for. -/
def look (run : Uid) (functions : List Uid) : Action Look := do
  let r ← readRun run
  if r.runStatus ≠ .deployingFunctions then return .abandoned
  let pending ← stillPending functions
  return if pending.isEmpty then .ready else .pending pending

/-! ## Reporting -/

/-- How often an outcome is published before the watch gives up. -/
def publishAttempts : Nat := 5

/-- The longest pause between two attempts. -/
def longestPause : Nat := 30000

/-- Publishes an outcome and says whether there is nothing more to do: it has been published, or the
run does not wait for it. -/
def deliver (outcome : DeploymentOutcome) : Action Bool := do
  match ← Action.attempt (Action.publish .deployments outcome.toJson) with
  | .ok () => return true
  | .error _ =>
    match ← Action.attempt (readRun outcome.workflowInstanceId) with
    | .ok r => return r.runStatus ≠ .deployingFunctions
    | .error _ => return false

/-- The reason why a run fails whose outcome cannot be delivered. -/
def undelivered (outcome : DeploymentOutcome) : String :=
  match outcome.failureReason with
  | some reason => "Deployment outcome could not be delivered: " ++ reason
  | none => "Deployment outcome could not be delivered"

/-- Ends a run whose outcome cannot be delivered. -/
def failRun (outcome : DeploymentOutcome) : Action Unit := do
  let run := outcome.workflowInstanceId
  if ← moveRunStatus run .deployingFunctions .failedWithTerminalError then
    let r ← readRun run
    setRunEndTime run
    Action.store (.recordRunError run r.name (undelivered outcome))

/-! ## Watching -/

/-- What a watch does when it is woken. -/
inductive Phase where
  /-- It begins to wait for functions. -/
  | begin (functions : List Uid)
  /-- It looks at the functions again, or gives up. -/
  | wait (functions : List Uid) (nextLook deadline : Nat)
  /-- It publishes an outcome for the so-and-so-many-th time, and pauses if it fails. -/
  | report (outcome : DeploymentOutcome) (attempt pause : Nat)
deriving DecidableEq, Repr, Inhabited

inductive Next where
  | finished
  | sleep (wake : Nat) (phase : Phase)
deriving DecidableEq, Repr, Inhabited

/-- The outcome of a wait that has taken too long. -/
def Setup.tooLate (setup : Setup) (run : Uid) : DeploymentOutcome :=
  { workflowInstanceId := run
    ready := false
    failureReason :=
      some s!"Functions were not deployed within {setup.settings.deploymentTimeout / 1000}s" }

def reportOutcome (outcome : DeploymentOutcome) (time attempt pause : Nat) : Action Next := do
  if ← deliver outcome then return .finished
  if attempt < publishAttempts then
    return .sleep (time + pause) (.report outcome (attempt + 1) (min (pause * 2) longestPause))
  let _ ← Action.attempt (failRun outcome)
  return .finished

namespace Setup

variable (setup : Setup)

/-- Reports an outcome for the first time. -/
def reportFirst (outcome : DeploymentOutcome) (time : Nat) : Action Next :=
  reportOutcome outcome time 1 setup.settings.deploymentPollInterval

/-- How a watch goes on from what it has found. -/
def conclude (run : Uid) (time deadline : Nat) : Except EngineError Look → Action Next
  | .ok .ready => setup.reportFirst { workflowInstanceId := run, ready := true } time
  | .ok .abandoned => return .finished
  | .ok (.pending functions) =>
    if deadline ≤ time then setup.reportFirst (setup.tooLate run) time
    else
      let nextLook := time + setup.settings.deploymentPollInterval
      return .sleep (min nextLook deadline) (.wait functions nextLook deadline)
  | .error e =>
    setup.reportFirst
      { workflowInstanceId := run, ready := false, failureReason := some e.message } time

/-- Looks at the functions that a run waits for until a deadline. -/
def lookUntil (run : Uid) (functions : List Uid) (time deadline : Nat) : Action Next := do
  setup.conclude run time deadline (← Action.attempt (look run functions))

/-- One phase of a watch over the functions of a run. -/
def watch (run : Uid) (time : Nat) : Phase → Action Next
  | .begin functions =>
    setup.lookUntil run functions time (time + setup.settings.deploymentTimeout)
  | .wait functions nextLook deadline =>
    if nextLook ≤ time then setup.lookUntil run functions time deadline
    else setup.reportFirst (setup.tooLate run) time
  | .report outcome attempt pause => reportOutcome outcome time attempt pause

end Setup

/-! ## Giving up in the midst of a look -/

/-- How a watch is woken: when, and after how many calls of its look the wait has taken too long, if
it has done so before the look is at its end. -/
structure Waking where
  time : Nat
  patience : Option Nat := none
deriving DecidableEq, Repr, Inhabited

namespace Setup

variable (setup : Setup)

/-- Looks at the functions that a run waits for, unless the wait has taken too long before the look
is at its end. -/
def lookWithin (run : Uid) (functions : List Uid) (w : Waking) (deadline : Nat) : Action Next :=
  match w.patience with
  | none => setup.lookUntil run functions w.time deadline
  | some n => do
    match ← Action.within n (look run functions) with
    | some found => setup.conclude run w.time deadline found
    | none => setup.reportFirst (setup.tooLate run) w.time

/-- One phase of a watch over the functions of a run. -/
def wake (run : Uid) (w : Waking) : Phase → Action Next
  | .begin functions =>
    setup.lookWithin run functions w (w.time + setup.settings.deploymentTimeout)
  | .wait functions nextLook deadline =>
    if nextLook ≤ w.time then setup.lookWithin run functions w deadline
    else setup.reportFirst (setup.tooLate run) w.time
  | .report outcome attempt pause => reportOutcome outcome w.time attempt pause

/-- A watch from one of its phases on, as often as it is woken, and whether it has come to its
end. -/
def watchThrough (run : Uid) : Phase → List Waking → Action Bool
  | _, [] => return false
  | phase, w :: ws => do
    match ← setup.wake run w phase with
    | .finished => return true
    | .sleep _ phase => watchThrough run phase ws

end Setup

end Engine

end Orchestration
