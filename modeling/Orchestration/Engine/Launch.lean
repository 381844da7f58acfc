import Orchestration.Engine.Finish

/-!
# Launching steps and starting runs

To launch a step is to put it into an attempt and to hand its work over, or to start the workflow
that it stands for. A step that cannot be launched because of what it says, or because it names
something that is not there, fails its run. Any other error leaves the run as it is, to be tried
again.

A run starts with its first step once all functions that its steps may call are deployed. Functions
that are not are asked to deploy if they all may be, and the run waits for them; else it fails.

Launching and starting call each other, since the first step of a workflow may start another
workflow. Each is therefore written over what starts a sub-workflow, and `startWorkflow` ties the
knot: it follows as many workflows that start one another as it is told.
-/

namespace Orchestration

namespace Engine

/-- How a sub-workflow is started: the workflow, its input, and the run and the step that it reports
to. -/
abbrev StartChild := Uid → Json.Object → Uid → Uid → Action Unit

/-- The case of a decision that is taken if no case has the name of the value. -/
def defaultCase : String := "default"

/-- The case that a decision falls on, with its name. -/
def chooseCase (cases : Dict CaseTarget) (value : String) :
    Except EngineError (String × CaseTarget) :=
  match cases.get? value with
  | some target => .ok (value, target)
  | none =>
    match cases.get? defaultCase with
    | some target => .ok (defaultCase, target)
    | none => .error (.noCase value)

namespace Setup

variable (setup : Setup) (startChild : StartChild)

/-- Launches a step that calls a function. -/
def dispatchFunction (step : StepInstance) (input : Json.Object) (function : Uid) :
    Action Unit := do
  let f ← Action.getFunction function
  let running ← launchAttempt step input
  setup.send running input f

/-- Launches a step that starts a workflow. -/
def startSubWorkflow (step : StepInstance) (input : Json.Object) (workflow : Uid) :
    Action Unit := do
  let running ← launchAttempt step input
  startChild workflow input running.workflowInstanceUid running.uid

/-- Launches a step, which may fail in any way. -/
def tryLaunch (step : StepInstance) : Action Unit := do
  let input ← normalize step.inputData step.workflowInstanceUid (some step)
  match step.shape with
  | .simple f | .doWhile f _ => setup.dispatchFunction step input f
  | .subWorkflow w => startSubWorkflow startChild step input w
  | .switch expression cases =>
    let value ← evaluateSwitch step expression
    let (name, target) ← Action.ofExcept (chooseCase cases value)
    Action.store (.setSelectedCase step.uid name)
    match target with
    | .function f => setup.dispatchFunction step input f
    | .subWorkflow w => startSubWorkflow startChild step input w

/-- Whether an error says that a step can never be launched. -/
def preventsLaunch (e : EngineError) : Bool := e.isConfiguration || e.kind == .notFound

/-- Launches a step, or fails its run if the step can never be launched. -/
def launch (step : StepInstance) : Action Unit := do
  match ← Action.attempt (setup.tryLaunch startChild step) with
  | .ok () => return ()
  | .error e =>
    if preventsLaunch e then
      setup.fail step.workflowInstanceUid .failed step.name e.message
    else throw e

/-! ## Functions -/

/-- Puts a function in its place among others, unless it is there. -/
def addReference (function : Uid) (step : String) : List (Uid × String) → List (Uid × String)
  | [] => [(function, step)]
  | (f, s) :: rest =>
    if function = f then (f, s) :: rest
    else if function.lt f then (function, step) :: (f, s) :: rest
    else (f, s) :: addReference function step rest

/-- The functions that steps may call, in the order of their identifiers, each with the name of the
first step that may call it. -/
def referencedFunctions (steps : List StepDefinition) : List (Uid × String) :=
  steps.foldl
    (fun refs step => step.shape.functionRefs.foldl (fun refs f => addReference f step.name refs)
      refs)
    []

/-- Looks functions up and returns those that are not deployed, each with the name of a step that
may call it, or the failure that a missing one is. -/
def lookUpFunctions :
    List (Uid × String) → Action (Except Failure (List (FunctionInfo × String)))
  | [] => return .ok []
  | (uid, step) :: rest => do
    match ← Action.attempt (Action.getFunction uid) with
    | .ok f =>
      let others ← lookUpFunctions rest
      return others.map fun others => if f.isDeployed then others else (f, step) :: others
    | .error e =>
      if e.kind = .notFound then return .error ⟨step, e.words⟩ else throw e

/-- Asks for the deployment of those functions that are not being deployed. -/
def requestDeployments : List FunctionInfo → Action Unit
  | [] => return ()
  | f :: rest => do
    unless f.deploymentState = .deploying do Action.deployFunction f.uid
    requestDeployments rest

/-- The reason why a run fails that needs a function which nobody may deploy. -/
def notDeployable (f : FunctionInfo) : String :=
  s!"Function '{f.name}' is not deployed and lazy deployment is disabled"

/-- Starts a run with its first step once all functions are deployed that its steps may call. -/
def prepareFunctions (run : Uid) (steps : List StepDefinition) (first : StepInstance) :
    Action Unit := do
  match ← lookUpFunctions (referencedFunctions steps) with
  | .error failure => setup.terminate run .failedWithTerminalError (some failure) none
  | .ok undeployed =>
    match undeployed.find? fun e => !e.1.lazyDeployment with
    | some (f, step) => setup.fail run .failedWithTerminalError step (notDeployable f)
    | none =>
      if undeployed.isEmpty then
        let _ ← updateRunStatus run .running
        setup.launch startChild first
      else
        let functions := undeployed.map (·.1)
        requestDeployments functions
        let _ ← updateRunStatus run .deployingFunctions
        Action.spawn (.watch run (functions.map (·.uid)))

/-! ## Starting -/

/-- Starts a run that is in the store. -/
def startRun (run : Uid) (definition : WorkflowDefinition) (steps : List StepDefinition) :
    Action RunSnapshot := do
  setRunStartTime run
  match ← Action.attempt (firstStep run) with
  | .ok first =>
    if first.shape.control = .subWorkflow then
      let _ ← updateRunStatus run .running
      setup.launch startChild first
    else
      setup.prepareFunctions startChild run steps first
  | .error e =>
    if e.kind = .notFound then
      setup.fail run .failedWithTerminalError definition.name e.words
    else throw e
  state run

def stepsOf (definition : WorkflowDefinition) (workflow : Uid) :
    Action (List StepDefinition) :=
  if definition.steps.isEmpty then Action.getStepList workflow else return definition.steps

/-- Starts a run of a workflow, given how its sub-workflows are started. -/
def startWith (workflow : Uid) (input : Json.Object) (parent parentStep : Option Uid) :
    Action RunSnapshot := do
  let definition ← Action.getWorkflow workflow
  let steps ← stepsOf definition workflow
  let (run, _) ← generate definition steps input parent parentStep
  setup.startRun startChild run.uid definition steps

/-- Starts a run of a workflow, following so many workflows that start one another. -/
def startNested : Nat → Uid → Json.Object → Option Uid → Option Uid → Action RunSnapshot
  | 0, workflow, _, _, _ => throw (.nestedTooDeep workflow)
  | depth + 1, workflow, input, parent, parentStep =>
    setup.startWith
      (fun workflow input parent parentStep => do
        let _ ← startNested depth workflow input (some parent) (some parentStep))
      workflow input parent parentStep

def startWorkflow (workflow : Uid) (input : Json.Object) (parent parentStep : Option Uid) :
    Action RunSnapshot :=
  setup.startNested setup.nesting workflow input parent parentStep

/-- Launches a step of a run that goes on. -/
def launchStep (step : StepInstance) : Action Unit :=
  setup.launch
    (fun workflow input parent parentStep => do
      let _ ← setup.startWorkflow workflow input (some parent) (some parentStep))
    step

end Setup

end Engine

end Orchestration
