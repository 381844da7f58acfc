import Orchestration.Api.Router
import Orchestration.Rehearsal.Basic

/-!
# Operations of a rehearsal

An operation is a document that says under `do` what is to be done, and under other names with what.
Most operations carry out one action of the engine. Others stand for those around it: an executor
that takes work and replies, the functions and workflows that the catalogs know, the clock, a caller
of the web interface, and faults.
-/

namespace Orchestration

namespace Rehearsal

open Engine (Action)

abbrev Performance := Outcome × Rehearsal

variable (r : Rehearsal)

/-! ## Carrying out -/

def answers (value : Json) : Performance := (.result value, r)

def act (encode : α → Json) (a : Action α) : Performance :=
  let (outcome, world) := r.world.act a
  (Outcome.ofExcept encode outcome, { r with world })

/-- Carries out an action without a value. -/
def actUnit (a : Action Unit) : Performance := r.act (fun _ => .null) a

/-- Goes on with what a part of the operation decodes to. -/
def withDecoded (decode : Json.Decoder α) (j : Json) (go : α → Performance) : Performance :=
  match decode j with
  | some a => go a
  | none => (.failure .undecodable, r)

def change (f : Engine.World → Engine.World) : Performance :=
  { r with world := f r.world }.answers .null

def withQueue (queue : Queue) : Rehearsal := { r with world := { r.world with queue } }

/-! ## Parts of operations -/

/-- The channel that an operation names. -/
def channelOf (o : Json) : Channel := (Channel.ofText? (o.getText "channel")).getD .work

/-- The payload that an operation has: a text as it is, or a document. -/
def payloadOf (o : Json) : String := (o.getText? "raw").getD (o.get "payload").text

def statusOf (o : Json) (name : String) : RunStatus :=
  (RunStatus.decode (o.get name)).getD .new

/-- The state that an operation names. -/
def stateOf (o : Json) : DeploymentState := (DeploymentState.decode (o.get "state")).getD .unknown

/-- Reads the step that an operation names and goes on with it. -/
def withStep (o : Json) (go : StepInstance → Action α) : Action α := do
  go (← Engine.readStep (o.getUid "step"))

def stepsJson (steps : List StepInstance) : Json := .arr (steps.map StepInstance.toJson)

/-- The document that a payload spells, or its text. -/
def payloadJson (payload : String) : Json :=
  match Json.parse? payload with
  | some j => j.canonical
  | none => .str payload

/-! ## Executors -/

/-- Takes the work that has waited longest. -/
def takeWork : Performance :=
  match r.world.queue.take .work with
  | (none, _) => r.answers .null
  | (some payload, queue) =>
    let r := r.withQueue queue
    match decodePayload WorkRequest.decode payload with
    | .ok work => { r with works := r.works ++ [work] }.answers work.toJson
    | .error e => (.failure e, r)

/-- The number of the attempt that a reply names: that of the work unless it says otherwise. -/
def replyAttempt (o : Json) (work : WorkRequest) : Option Int :=
  match o.member? "attempt" with
  | some (.int n) => some n
  | some _ => none
  | none => some work.attempt

/-- The result that a reply to some work is. -/
def replyResult (o : Json) (work : WorkRequest) : StepResult :=
  { stepInstanceId := work.stepInstanceId
    workflowInstanceId := work.workflowInstanceId
    runStatus := statusOf o "status"
    failureReason := o.getText? "reason"
    inputData := work.inputData
    outputData := o.getObject "output"
    attempt := replyAttempt o work }

/-- The work that a reply is about: the one with a number, or else the one taken last. -/
def workOf? (o : Json) : Option WorkRequest :=
  match o.get "work" with
  | .int n => if 0 < n then r.works[n.toNat - 1]? else none
  | _ => r.works.getLast?

/-! ## Pumping -/

/-- The state of a pump: what it has told, what is to be handed out again, and how many messages
more it may handle. -/
structure Pump where
  rehearsal : Rehearsal
  log : List String := []
  again : List Envelope := []
  left : Nat

/-- Handles what waits on a channel, but only so many messages. -/
def pumpChannel (channel : Channel) : Nat → Pump → Pump
  | 0, p => p
  | fuel + 1, p =>
    match p.left, p.rehearsal.world.queue.take channel with
    | left + 1, (some payload, queue) =>
      let (d, world) :=
        (p.rehearsal.withQueue queue).world.run (p.rehearsal.setup.handle channel payload)
      let again := if d = .retry then p.again ++ [⟨channel, payload⟩] else p.again
      pumpChannel channel fuel
        { rehearsal := { p.rehearsal with world }
          log := p.log ++ [channel.text ++ " " ++ d.text]
          again, left }
    | _, _ => p

/-- Handles results and then the outcomes of waits, and both again until neither wait. A round that
is not the last handles a message at least. -/
def pumpRounds : Nat → Pump → Pump
  | 0, p => p
  | fuel + 1, p =>
    let q := pumpChannel .deployments p.left (pumpChannel .results p.left p)
    if q.left = p.left then q else pumpRounds fuel q

/-- Handles so many messages at most. Those that are to be handed out again wait at the end. -/
def pump (limit : Nat) : Json × Rehearsal :=
  let p := pumpRounds (limit + 1) { rehearsal := r, left := limit }
  (.arr (p.log.map .str),
    p.rehearsal.withQueue (p.again.foldl Queue.publish p.rehearsal.world.queue))

/-- Has an executor reply to some work. -/
def reply (o : Json) : Performance :=
  match r.workOf? o with
  | none => r.answers (.str "no such work")
  | some work =>
    match r.act (fun _ => .null) (Engine.publishResult (replyResult o work)) with
    | (.result _, r) =>
      if o.getBool "pump" then
        let (log, r) := r.pump 1000
        r.answers log
      else r.answers .null
    | failed => failed

/-! ## Single actions -/

/-- Puts a run into the store that was made so many minutes before now. -/
def insertRun (o : Json) : Performance :=
  let age := (o.get "run").getInt "ageMinutes" 0 * 60
  let createdAt := ("createdAt", (r.world.clock.addSeconds (-age)).toJson)
  r.withDecoded WorkflowInstance.decode (Json.ofMembers (o.getObject "run" ++ [createdAt]))
    fun run =>
      r.withDecoded (Json.Decoder.list StepInstance.decode) (o.get "steps") fun steps =>
        r.actUnit (Action.store (.insertRun run steps))

def generate (o : Json) : Performance :=
  r.withDecoded WorkflowDefinition.decode (o.get "definition") fun definition =>
    let steps := (o.member? "steps").getD (.arr (definition.steps.map StepDefinition.toJson))
    r.withDecoded (Json.Decoder.list StepDefinition.decode) steps fun steps =>
      r.act
        (fun (run, steps) => Json.ofMembers [("run", run.toJson), ("steps", stepsJson steps)])
        (Engine.generate definition steps (o.getObject "input") (o.getUid? "parent")
          (o.getUid? "parentStep"))

/-- Notes that something starts or ends now. -/
def setTime (o : Json) : Action Unit :=
  let uid := o.getUid "uid"
  match o.getText "what" with
  | "run_start" => Engine.setRunStartTime uid
  | "run_end" => Engine.setRunEndTime uid
  | "step_start" => Engine.setStepStartTime uid
  | _ => Engine.setStepEndTime uid

/-- Takes the held step away from a run. -/
def takeHeld (o : Json) : Action (Option StepInstance) := do
  match ← Action.store (.takeHeldStep (o.getUid "run")) with
  | some held => return some (← Engine.readStep held)
  | none => return none

/-- Evaluates an expression within a run. -/
def evaluate (o : Json) : Action Json := do
  let current ← match o.get "step" with
    | .str _ => some <$> Engine.readStep (o.getUid "step")
    | _ => pure none
  Engine.evaluate (o.getUid "run") (o.getText "expr") current

/-- The request that an operation makes. -/
def requestOf (o : Json) : Api.Request :=
  let body := (o.getText? "raw").or ((o.member? "body").map Json.text)
  { method := o.getText "method"
    target := o.getText "path"
    contentType := match o.member? "contentType" with
      | some j => j.text?
      | none => body.map fun _ => "application/json"
    body := body.getD "" }

/-- The document of an answer. How long an engine has been up is not told. -/
def replyJson (reply : Api.Reply) : Json :=
  let body := reply.body.map fun j =>
    match j with
    | .obj members => .obj (members.filter fun m => m.1 ≠ "uptime_seconds")
    | j => j
  Json.ofMembers (("status", .int reply.status) :: Json.optionalMember "body" id body)

def request (o : Json) : Performance :=
  let (reply, world) :=
    r.world.run (Api.respond r.setup { mode := r.setup.mode } (requestOf o))
  { r with world }.answers (replyJson reply)

/-- The most messages that are consumed at once. -/
def consumeLimit : Nat := 100000

/-- Consumes a channel and tells of all messages that have been dropped. -/
def consume (o : Json) : Performance :=
  let r := { r with world := Engine.World.consumeAll r.setup (channelOf o) consumeLimit r.world }
  let rejected := r.world.queue.rejected.map fun m => Json.str (m.channel.text ++ " " ++ m.payload)
  r.answers (Json.ofMembers [("rejected", .arr rejected)])

def perform (o : Json) : Performance :=
  let run := o.getUid "run"
  let step := o.getUid "step"
  match o.getText "do" with
  | "start" =>
    r.act RunSnapshot.toJson
      (r.setup.startWorkflow (o.getUid "workflow") (o.getObject "input") (o.getUid? "parent")
        (o.getUid? "parentStep"))
  | "take_work" => r.takeWork
  | "reply" => r.reply o
  | "pump" =>
    let (log, r) := r.pump (o.getNat "limit" 1000)
    r.answers log
  | "publish" =>
    r.actUnit (ExceptT.mk (Program.ask (Engine.Call.publish (channelOf o) (payloadOf o))))
  | "handle" =>
    let (d, world) := r.world.run (r.setup.handle (channelOf o) (payloadOf o))
    { r with world }.answers (.str d.text)
  | "consume" => r.consume o
  | "process_result" =>
    r.withDecoded StepResult.decode (o.get "result") fun x => r.actUnit (r.setup.processResult x)
  | "process_deployment" =>
    r.withDecoded DeploymentOutcome.decode (o.get "outcome") fun x =>
      r.actUnit (r.setup.processOutcome x)
  | "stop" => r.act RunSnapshot.toJson (Engine.stop run)
  | "pause" => r.act RunSnapshot.toJson (Engine.pause run)
  | "resume" => r.act RunSnapshot.toJson (r.setup.resume run)
  | "state" => r.act RunSnapshot.toJson (Engine.state run)
  | "instance" => r.act WorkflowInstance.toJson (Engine.readRun run)
  | "steps" => r.act stepsJson (Action.store (.listSteps run))
  | "step" => r.act StepInstance.toJson (Engine.readStep step)
  | "next_step" =>
    r.act (Json.ofOption fun (next : StepInstance) => next.uid.toJson) (withStep o Engine.nextStep)
  | "start_step" => r.act (fun first => first.uid.toJson) (Engine.firstStep run)
  | "advance" => r.change fun w => Engine.World.advance r.setup w (o.getNat "ms" 0)
  | "set_function" =>
    r.change fun w =>
      { w with functions := w.functions.setState (o.getUid "function") (stateOf o) }
  | "insert_function" =>
    r.withDecoded FunctionInfo.decode (o.get "function") fun f =>
      r.change fun w => { w with functions := w.functions.insert f }
  | "insert_workflow" =>
    r.withDecoded WorkflowDefinition.decode (o.get "workflow") fun x =>
      r.change fun w => { w with workflows := w.workflows.insert x }
  | "deploy_requests" => r.answers (.int r.world.functions.requestCount)
  | "published" =>
    let payloads := Queue.payloads (channelOf o) r.world.queue.published
    r.answers (.arr (payloads.map payloadJson))
  | "counts" =>
    r.answers (.arr [.int r.world.tables.runs.length, .int r.world.tables.steps.length])
  | "generate" => r.generate o
  | "insert_run" => r.insertRun o
  | "delete_runs" =>
    r.act (fun (n : Nat) => .int n)
      (Action.store (.deleteRuns ((o.getItems "runs").map Json.toUid)))
  | "sweep" =>
    r.act (fun (n : Nat) => .int n)
      (Engine.deleteOldRuns (o.getInt "keepDays" 0) (o.getNat "maxCount" 0))
  | "launch" =>
    r.act StepInstance.toJson
      (withStep o fun step => Engine.launchAttempt step (o.getObject "input"))
  | "map_result" =>
    r.withDecoded StepResult.decode (o.get "result") fun x =>
      r.act (Json.ofOption StepInstance.toJson) (withStep o fun step => Engine.applyResult step x)
  | "send" =>
    r.actUnit (withStep o fun step => do
      let f ← Action.getFunction (o.getUid "function")
      r.setup.send step (o.getObject "input") f)
  | "update_run" => r.act .bool (Engine.updateRunStatus run (statusOf o "status"))
  | "transition_run" =>
    r.act .bool (Engine.moveRunStatus run (statusOf o "from") (statusOf o "to"))
  | "update_step" =>
    r.actUnit (withStep o fun step => Engine.updateStepStatus step (statusOf o "status"))
  | "set_time" => r.actUnit (setTime o)
  | "record_error" =>
    r.actUnit (Action.store (.recordRunError run (o.getText "name") (o.getText "reason")))
  | "set_output" => r.actUnit (Action.store (.setRunOutput run (o.getObject "output")))
  | "hold" => r.actUnit (Engine.Setup.hold run step)
  | "take_held" => r.act (Json.ofOption StepInstance.toJson) (takeHeld o)
  | "set_case" => r.actUnit (Action.store (.setSelectedCase step (o.getText "name")))
  | "consume_retry" => r.act .bool (Action.store (.decrementRetry step))
  | "evaluate" => r.act id (evaluate o)
  | "http" => r.request o
  | "fail" => r.change fun w => w.setOutage (o.getText "target") (o.getNat "count" 1)
  | _ => (.failure (.other .validation "unknown operation"), r)

/-- Carries an operation out, lets the work in the background go on, and tells of both. -/
def next (o : Json) : Report × Rehearsal :=
  let (outcome, r) := r.perform (resolveAllNames r.runs o)
  r.settle.report outcome

/-! ## Beginning -/

def beginning : Instant := ⟨1717200000, 0⟩

def settingsOf (j : Json) : RunnerSettings :=
  { deploymentTimeout := j.getNat "deploymentTimeoutMs" 5000
    deploymentPollInterval := j.getNat "deploymentPollMs" 10
    maxDeploymentWatchers := j.getNat "maxDeploymentWatchers" 4
    retentionKeepDays := j.getInt "retentionKeepDays" 7
    retentionMaxCount := j.getNat "retentionMaxCount" 30 }

/-- The functions that a rehearsal begins with. -/
def functionsOf (j : Json) : FunctionCatalog :=
  ((j.getItems "functions").filterMap FunctionInfo.decode).foldl FunctionCatalog.insert
    { lookupsToDeploy := j.getNat "deployPolls" 0 }

/-- The workflows that a rehearsal begins with. -/
def workflowsOf (j : Json) : WorkflowCatalog :=
  let stepLists := (j.getObject "stepLists").map fun (workflow, steps) =>
    (Json.toUid (.str workflow), steps.items.filterMap StepDefinition.decode)
  ((j.getItems "workflows").filterMap WorkflowDefinition.decode).foldl WorkflowCatalog.insert
    { stepLists }

/-- The rehearsal that a document describes, with an address for callbacks. -/
def ofJson (callbackUrl : String) (j : Json) : Rehearsal :=
  let settings := settingsOf (j.get "settings")
  { setup :=
      { settings
        mode := if j.getText "dispatchMode" = "push" then .push else .queue
        callbackUrl }
    world :=
      { functions := functionsOf j
        workflows := workflowsOf j
        clock := beginning
        schedule := { permits := max 1 settings.maxDeploymentWatchers } } }

/-- Carries operations out, one after the other. -/
def reports : Rehearsal → List Json → List Report
  | _, [] => []
  | r, o :: rest =>
    let (report, r) := r.next o
    report :: reports r rest

end Rehearsal

end Orchestration
