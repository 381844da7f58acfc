import Orchestration.Proofs.Barring
import Orchestration.Proofs.Habits

/-!
# Two ways of handing work over

An engine publishes its work, or calls functions at their addresses. The two engines make the same
calls otherwise. Their programs are compared as trees (`Corresponds`): at each place both make the
same call, and go on alike from every answer, or one publishes a work request where the other calls
the function that the request is for. Then they go on alike if the request is published, and the
function accepts the call. All this is for functions that can be called: whoever looks one up finds
its address (`Call.Addressed`).

That the programs of all operations correspond (`agree_operation`) is shown along their definitions.
It takes a lemma for each function of the engine that may hand work over; whatever does not is the
same program in both engines (`Withholds.agree`).
-/

namespace Orchestration

namespace Engine

variable {α β : Type} {setup : Setup}

/-- The setup with another way of handing work over. -/
def Setup.inMode (setup : Setup) (mode : DispatchMode) : Setup := { setup with mode }

/-- A function is called for the work of a request: it gets the input, and the address at which it
answers names the run, the step and the attempt. -/
structure Calls (base : String) (w : WorkRequest) (q : PushRequest) : Prop where
  inputData : q.inputData = w.inputData
  callbackUrl : q.callbackUrl = callbackAddress base w.workflowInstanceId w.stepInstanceId w.attempt
  failureReason : q.failureReason = none

/-- An answer from which a function can be called: if one is found, so is its address. -/
def Call.Addressed : (c : Call) → c.Answer → Prop
  | .getFunction _, found => ∀ f, found = .ok f → f.serviceUrl.isSome = true
  | .store _, _ | .publish .., _ | .deployFunction _, _ | .getWorkflow _, _ | .getStepList
      _, _ | .post .., _
  | .now, _ | .newUid, _ | .spawn _, _ => True

/-! ## Corresponding programs -/

/-- Two programs make the same calls, but for work that one publishes and for which the other calls
functions, and for the words of the results that they publish. -/
inductive Corresponds (base : String) : Rest α → Rest α → Prop where
  | done (x : α) : Corresponds base (.done x) (.done x)
  /-- Both make the same call. -/
  | call {c : Call} {next next' : c.Answer → Rest α} (hc : c.handsOver = false)
      (rest : ∀ answer, c.Addressed answer → Corresponds base (next answer) (next' answer)) :
      Corresponds base (.call c next) (.call c next')
  /-- The one publishes work for which the other calls a function. -/
  | handOver {w : WorkRequest} {url : String} {q : PushRequest}
      {next : Except EngineError Unit → Rest α} {next' : Except EngineError Http.Response → Rest α}
      (hurl : w.serviceUrl = some url)
      (hq : Calls base w q) (rest : ∀ response : Http.Response, response.isSuccess = true →
        Corresponds base (next (.ok ())) (next' (.ok response))) :
      Corresponds base (.call (.publish .work w.toJson.text) next)
        (.call (.post url q.toJson.text) next')
  /-- Both publish a result, in words of their own. -/
  | result {m : StepResult} {payload payload' : String}
      {next next' : Except EngineError Unit → Rest α}
      (hm : decodePayload StepResult.decode payload = .ok m)
      (hm' : decodePayload StepResult.decode payload' = .ok m)
      (rest : ∀ answer, Corresponds base (next answer) (next' answer)) :
      Corresponds base (.call (.publish .results payload) next)
        (.call (.publish .results payload') next')

namespace Corresponds

variable {base : String}

theorem bind {p p' : Rest α} {k k' : α → Rest β} (h : Corresponds base p p')
    (hk : ∀ x, Corresponds base (k x) (k' x)) : Corresponds base (p >>= k) (p' >>= k') := by
  induction h with
  | done x => exact hk x
  | call hc _ ih => exact .call hc ih
  | handOver hurl hq _ ih => exact .handOver hurl hq ih
  | result hm hm' _ ih => exact .result hm hm' ih

theorem refl {p : Rest α} (h : Asked (fun c ↦ c.handsOver = false) p) : Corresponds base p p := by
  induction p with
  | done x => exact .done x
  | call c next ih => exact .call h.1 fun answer _ ↦ ih answer (h.2 answer)

end Corresponds

/-- Two actions are corresponding programs. -/
def Agree (base : String) (a a' : Action α) : Prop := Corresponds base a.run a'.run

theorem Withholds.agree {base : String} {a : Action α} (h : Withholds a) : Agree base a a := .refl h

namespace Agree

variable {base : String} {a a' : Action α}

theorem pure (x : α) : Agree base (pure x) (pure x : Action α) := .done _

theorem throw (e : EngineError) : Agree base (throw e) (throw e : Action α) := .done _

theorem bind {f f' : α → Action β} (h : Agree base a a') (hf : ∀ x, Agree base (f x) (f' x)) :
    Agree base (a >>= f) (a' >>= f') := by
  refine Corresponds.bind h fun outcome ↦ ?_
  cases outcome with
  | ok x => exact hf x
  | error e => exact .done _

theorem attempt (h : Agree base a a') : Agree base (Action.attempt a) (Action.attempt a') :=
  Corresponds.bind h fun _ ↦ .done _

theorem ite {c : Prop} [Decidable c] {b b' : Action α} (h : Agree base a a')
    (h' : Agree base b b') : Agree base (if c then a else b) (if c then a' else b') := by
  split
  · exact h
  · exact h'

end Agree

/-! ## Handing over -/

/-- The one engine publishes a work request where the other calls the function. -/
theorem agree_send (step : StepInstance) (input : Json.Object) {f : FunctionInfo}
    (hf : f.serviceUrl.isSome = true) :
    Agree setup.callbackUrl ((setup.inMode .queue).send step input f)
      ((setup.inMode .push).send step input f) := by
  obtain ⟨url, hurl⟩ := Option.isSome_iff_exists.1 hf
  have hpush : (setup.inMode .push).handOver step input f =
      (Action.post url (setup.pushRequest step input).toJson >>= fun response ↦
        unless response.isSuccess do
          throw (.functionResponded (Http.statusText response.status) response.text)) := by
    simp only [Setup.handOver, Setup.inMode, Setup.push, hurl]
    rfl
  unfold Setup.send
  rw [hpush]
  refine Corresponds.handOver (w := workRequest step input f)
    (q := setup.pushRequest step input) hurl ⟨rfl, rfl, rfl⟩ fun response hsuccess ↦ ?_
  dsimp only [Program.bind, ExceptT.bindCont]
  rw [if_pos hsuccess]
  exact .done _

theorem agree_terminate (run : Uid) (status : RunStatus) (failure : Option Failure)
    (output : Option Json.Object) :
    Agree setup.callbackUrl ((setup.inMode .queue).terminate run status failure output)
      ((setup.inMode .push).terminate run status failure output) :=
  (plain_terminate (setup.inMode .queue) run status failure output).withholds.agree

theorem agree_fail (run : Uid) (status : RunStatus) (step reason : String) :
    Agree setup.callbackUrl ((setup.inMode .queue).fail run status step reason)
      ((setup.inMode .push).fail run status step reason) := agree_terminate ..

/-! ## Launching -/

section Launching

variable {startChild startChild' : StartChild}

theorem agree_dispatchFunction (step : StepInstance) (input : Json.Object) (function : Uid) :
    Agree setup.callbackUrl ((setup.inMode .queue).dispatchFunction step input function)
      ((setup.inMode .push).dispatchFunction step input function) := by
  refine Corresponds.call (c := .getFunction function) rfl fun found haddressed ↦ ?_
  cases found with
  | error e => exact .done _
  | ok f =>
    have hlaunch : Agree setup.callbackUrl
        (launchAttempt step input >>= fun running ↦ (setup.inMode .queue).send running input f)
        (launchAttempt step input >>= fun running ↦ (setup.inMode .push).send running input f) :=
      .bind (plain_launchAttempt step input).withholds.agree fun running ↦
        agree_send running input (haddressed f rfl)
    exact hlaunch

/-- Two ways of starting a sub-workflow agree. -/
def StartsAlike (base : String) (startChild startChild' : StartChild) : Prop :=
  ∀ workflow input parent step,
    Agree base (startChild workflow input parent step) (startChild' workflow input parent step)

variable (hstart : StartsAlike setup.callbackUrl startChild startChild')

include hstart

theorem agree_startSubWorkflow (step : StepInstance) (input : Json.Object) (workflow : Uid) :
    Agree setup.callbackUrl (Setup.startSubWorkflow startChild step input workflow)
      (Setup.startSubWorkflow startChild' step input workflow) :=
  .bind (plain_launchAttempt step input).withholds.agree fun _ ↦ hstart ..

theorem agree_tryLaunch (step : StepInstance) :
    Agree setup.callbackUrl ((setup.inMode .queue).tryLaunch startChild step)
      ((setup.inMode .push).tryLaunch startChild' step) := by
  refine .bind (harmless_normalize ..).plain.withholds.agree fun input ↦ ?_
  cases step.shape with
  | simple f | doWhile f => exact agree_dispatchFunction step input f
  | subWorkflow w => exact agree_startSubWorkflow hstart step input w
  | switch expression cases =>
    have hchoose (value : String) : Withholds (Action.ofExcept (chooseCase cases value)) :=
      .ofExcept _
    refine .bind (harmless_evaluateSwitch step expression).plain.withholds.agree fun value ↦
      .bind (hchoose value).agree fun chosen ↦
        .bind (Withholds.agree ⟨rfl, fun _ ↦ trivial⟩) fun _ ↦ ?_
    obtain ⟨name, target⟩ := chosen
    cases target with
    | function f => exact agree_dispatchFunction step input f
    | subWorkflow w => exact agree_startSubWorkflow hstart step input w

theorem agree_launch (step : StepInstance) :
    Agree setup.callbackUrl ((setup.inMode .queue).launch startChild step)
      ((setup.inMode .push).launch startChild' step) := by
  refine .bind (agree_tryLaunch hstart step).attempt fun outcome ↦ ?_
  cases outcome with
  | ok => exact .pure _
  | error e => exact .ite (agree_fail ..) (.throw _)

theorem agree_prepareFunctions (run : Uid) (steps : List StepDefinition) (first : StepInstance) :
    Agree setup.callbackUrl ((setup.inMode .queue).prepareFunctions startChild run steps first)
      ((setup.inMode .push).prepareFunctions startChild' run steps first) := by
  refine .bind (withholds_of_consults (asks_lookUpFunctions _)).agree fun found ↦ ?_
  cases found with
  | error failure => exact agree_terminate ..
  | ok undeployed =>
    dsimp only
    split
    · exact agree_fail ..
    · refine .ite (.bind (plain_updateRunStatus run .running).withholds.agree fun _ ↦
        agree_launch hstart first) (Withholds.agree ?_)
      exact .bind (withholds_of_consults (asks_requestDeployments _)) fun _ ↦
        .bind (plain_updateRunStatus run _).withholds fun _ ↦ ⟨rfl, fun _ ↦ trivial⟩

/-! ## Starting -/

theorem agree_startRun (run : Uid) (definition : WorkflowDefinition) (steps : List StepDefinition) :
    Agree setup.callbackUrl ((setup.inMode .queue).startRun startChild run definition steps)
      ((setup.inMode .push).startRun startChild' run definition steps) := by
  refine .bind (harmless_setRunStartTime run).plain.withholds.agree fun _ ↦
    .bind (harmless_firstStep run).plain.withholds.agree.attempt fun found ↦ ?_
  have hstate : Agree setup.callbackUrl (state run) (state run) :=
    (harmless_state run).plain.withholds.agree
  cases found with
  | ok first =>
    refine .ite (.bind (plain_updateRunStatus run .running).withholds.agree fun _ ↦ ?_) ?_
    · exact .bind (agree_launch hstart first) fun _ ↦ hstate
    · exact .bind (agree_prepareFunctions hstart run steps first) fun _ ↦ hstate
  | error e =>
    refine .ite ?_ ?_
    · exact .bind (agree_fail ..) fun _ ↦ hstate
    · exact .bind (.throw e) fun _ ↦ hstate

theorem agree_startWith (workflow : Uid) (input : Json.Object) (parent parentStep : Option Uid) :
    Agree setup.callbackUrl ((setup.inMode .queue).startWith startChild workflow input
      parent parentStep) ((setup.inMode .push).startWith startChild' workflow input parent
      parentStep) := by
  have hworkflow : Withholds (Action.getWorkflow workflow) := ⟨rfl, fun _ ↦ trivial⟩
  have hsteps (definition : WorkflowDefinition) : Withholds (Setup.stepsOf definition workflow) :=
    .ite ⟨rfl, fun _ ↦ trivial⟩ (.pure _)
  exact .bind hworkflow.agree fun definition ↦ .bind (hsteps definition).agree fun steps ↦
    .bind (withholds_generate definition steps input parent parentStep).agree fun generated ↦
      agree_startRun hstart generated.1.uid definition steps

end Launching

theorem agree_startNested (depth : Nat) (workflow : Uid) (input : Json.Object)
    (parent parentStep : Option Uid) :
    Agree setup.callbackUrl ((setup.inMode .queue).startNested depth workflow input
      parent parentStep) ((setup.inMode .push).startNested depth workflow input parent
      parentStep) := by
  induction depth generalizing workflow input parent parentStep with
  | zero => exact .throw _
  | succ depth ih =>
    exact agree_startWith (fun _ _ _ _ ↦ .bind (ih ..) fun _ ↦ .pure _) ..

theorem agree_startWorkflow (workflow : Uid) (input : Json.Object)
    (parent parentStep : Option Uid) :
      Agree setup.callbackUrl ((setup.inMode .queue).startWorkflow workflow input parent parentStep)
      ((setup.inMode .push).startWorkflow workflow input parent parentStep) := agree_startNested ..

theorem agree_launchStep (step : StepInstance) :
    Agree setup.callbackUrl ((setup.inMode .queue).launchStep step)
      ((setup.inMode .push).launchStep step) :=
  agree_launch (fun _ _ _ _ ↦ .bind (agree_startWorkflow ..) fun _ ↦ .pure _) step

/-! ## Moving on -/

theorem agree_leave (step : StepInstance) :
    Agree setup.callbackUrl ((setup.inMode .queue).leave step)
      ((setup.inMode .push).leave step) := by
  refine .bind (readsSteps_nextStep step).harmless.plain.withholds.agree.attempt fun next ↦ ?_
  match next with
  | .ok (some next) => exact agree_launchStep next
  | .ok none =>
    exact .ite (agree_terminate ..) (agree_fail ..)
  | .error e => exact .ite (agree_fail ..) (.throw e)

theorem agree_retry (step : StepInstance) :
    Agree setup.callbackUrl ((setup.inMode .queue).retry step)
      ((setup.inMode .push).retry step) := by
  have hdecrement : Withholds (Action.store (.decrementRetry step.uid)) := ⟨rfl, fun _ ↦ trivial⟩
  exact .bind hdecrement.agree fun _ ↦ .ite
    (.bind (harmless_readStep step.uid).plain.withholds.agree fun x ↦ agree_launchStep x)
    (agree_fail ..)

theorem agree_advance (step : StepInstance) :
    Agree setup.callbackUrl ((setup.inMode .queue).advance step)
      ((setup.inMode .push).advance step) := by
  unfold Setup.advance
  cases step.runStatus with
  | completed | skipped => exact agree_leave step
  | failed | timedOut => exact agree_retry step
  | canceled | failedWithTerminalError => exact agree_fail ..
  | new | deployingFunctions | running | paused | completedWithErrors | stopped => exact .throw _

/-! ## Results -/

theorem withholds_hold (run step : Uid) : Withholds (Setup.hold run step) := ⟨rfl, fun _ ↦ trivial⟩

theorem agree_processRepeated (step : StepInstance) (m : StepResult) :
    Agree setup.callbackUrl ((setup.inMode .queue).processRepeated step m)
      ((setup.inMode .push).processRepeated step m) := by
  have hawaits : Withholds (awaitsFollowUp step) :=
    (readsSteps_awaitsFollowUp step).harmless.plain.withholds
  refine .ite (.bind (harmless_readRun _).plain.withholds.agree fun run ↦ ?_) (.pure _)
  split
  · exact .bind hawaits.agree fun _ ↦ .ite (agree_advance step) (.pure _)
  · exact .bind hawaits.agree fun _ ↦ .ite (withholds_hold ..).agree (.pure _)
  · exact .pure _
  · exact .ite (harmless_reportToParent _ _ _ _).plain.withholds.agree (.pure _)

theorem withholds_applyResult (step : StepInstance) (m : StepResult) :
    Withholds (applyResult step m) := by
  unfold applyResult
  split
  · exact .pure _
  · exact .bind ⟨rfl, fun _ ↦ trivial⟩ fun _ ↦ .bind (.store rfl) fun _ ↦
      .ite (.bind (harmless_announce _).plain.withholds fun _ ↦
        .bind (harmless_readStep _).plain.withholds fun _ ↦ .pure _) (.pure _)

theorem agree_processResult (m : StepResult) :
    Agree setup.callbackUrl ((setup.inMode .queue).processResult m)
      ((setup.inMode .push).processResult m) := by
  rw [processResult_eq, processResult_eq]
  refine .bind (harmless_readStep _).plain.withholds.agree fun x ↦
    .bind (withholds_applyResult x m).agree fun applied ↦ ?_
  cases applied with
  | none => exact agree_processRepeated x m
  | some y =>
    exact .bind (harmless_readRun _).plain.withholds.agree fun run ↦
      .ite (.pure _) (.ite (withholds_hold ..).agree (agree_advance y))

/-! ## Waits, and operators -/

theorem agree_processOutcome (o : DeploymentOutcome) :
    Agree setup.callbackUrl ((setup.inMode .queue).processOutcome o)
      ((setup.inMode .push).processOutcome o) := by
  refine .ite ?_ ?_
  · refine .bind (plain_writeRunStatus ..).withholds.agree fun moved ↦
      .bind (harmless_firstStep _).plain.withholds.agree fun first ↦
        .ite (agree_launchStep first) ?_
    exact .bind (harmless_readRun _).plain.withholds.agree fun r ↦
      .ite (agree_launchStep first) (.pure _)
  · exact .bind (harmless_readRun _).plain.withholds.agree fun r ↦
      .ite (agree_fail ..) (.pure _)

theorem withholds_requireMove (run : Uid) (source target : RunStatus) :
    Withholds (requireMove run source target) :=
  .bind (plain_writeRunStatus ..).withholds fun _ ↦
    .ite (.pure _) (.bind (harmless_readRun run).plain.withholds fun _ ↦ .throw _)

theorem agree_resume (run : Uid) :
    Agree setup.callbackUrl ((setup.inMode .queue).resume run)
      ((setup.inMode .push).resume run) := by
  have htake : Withholds (Action.store (.takeHeldStep run)) := ⟨rfl, fun _ ↦ trivial⟩
  have hstate : Agree setup.callbackUrl (state run) (state run) :=
    (harmless_state run).plain.withholds.agree
  refine .bind (withholds_requireMove ..).agree fun _ ↦ .bind htake.agree fun held ↦ ?_
  cases held with
  | none => exact hstate
  | some step =>
    exact .bind (harmless_readStep step).plain.withholds.agree fun x ↦
      .bind (agree_advance x) fun _ ↦ hstate

theorem withholds_stop (run : Uid) : Withholds (stop run) := by
  have hstopped : Withholds (setRunEndTime run >>= fun _ ↦ state run) :=
    .bind (harmless_setRunEndTime run).plain.withholds fun _ ↦ (harmless_state run).plain.withholds
  refine .bind (plain_updateRunStatus ..).withholds fun _ ↦ .ite hstopped ?_
  exact .bind (harmless_readRun run).plain.withholds fun _ ↦ .bind (.throw _) fun _ ↦ hstopped

theorem withholds_pause (run : Uid) : Withholds (pause run) :=
  .bind (withholds_requireMove ..) fun _ ↦ (harmless_state run).plain.withholds

theorem withholds_failRun (o : DeploymentOutcome) : Withholds (failRun o) :=
  .bind (plain_writeRunStatus ..).withholds fun _ ↦ .ite
    (.bind (harmless_readRun _).plain.withholds fun _ ↦
      .bind (harmless_setRunEndTime _).plain.withholds fun _ ↦ .store rfl) (.pure _)

theorem withholds_reportOutcome (o : DeploymentOutcome) (time attempt pause : Nat) :
    Withholds (reportOutcome o time attempt pause) := by
  have hdeliver : Withholds (deliver o) := by
    refine .bind (.attempt ⟨rfl, fun _ ↦ trivial⟩) fun published ↦ ?_
    cases published with
    | ok => exact .pure _
    | error e =>
      refine .bind (.attempt (harmless_readRun _).plain.withholds) fun found ↦ ?_
      cases found with
      | ok | error => exact .pure _
  exact .bind hdeliver fun _ ↦ .ite (.pure _) (.ite (.pure _)
    (.bind (.attempt (withholds_failRun o)) fun _ ↦ .pure _))

theorem withholds_lookUntil (run : Uid) (functions : List Uid) (time deadline : Nat) :
    Withholds (setup.lookUntil run functions time deadline) := by
  have hlook : Withholds (look run functions) :=
    .bind (harmless_readRun run).plain.withholds fun _ ↦ .ite (.pure _)
      (.bind (withholds_of_consults (asks_stillPending (fun _ ↦ trivial) functions)) fun _ ↦
        .pure _)
  refine .bind (.attempt hlook) fun seen ↦ ?_
  match seen with
  | .ok .ready => exact withholds_reportOutcome ..
  | .ok .abandoned => exact .pure _
  | .ok (.pending functions) => exact .ite (withholds_reportOutcome ..) (.pure _)
  | .error e => exact withholds_reportOutcome ..

theorem withholds_watch (run : Uid) (time : Nat) (phase : Phase) :
    Withholds (setup.watch run time phase) := by
  cases phase with
  | begin functions => exact withholds_lookUntil ..
  | wait functions nextLook deadline =>
    exact .ite (withholds_lookUntil ..) (withholds_reportOutcome ..)
  | report outcome attempt pause => exact withholds_reportOutcome ..

theorem withholds_deleteOldRuns (keepDays : Int) (maxCount : Nat) :
    Withholds (deleteOldRuns keepDays maxCount) :=
  .bind (.store rfl) fun _ ↦ .bind ⟨rfl, fun _ ↦ trivial⟩ fun _ ↦ .ite (.pure _) (.store rfl)

/-! ## Operations and messages -/

/-- **The programs of an operation correspond**, whatever the operation is. -/
theorem agree_operation (o : Operation) :
    Agree setup.callbackUrl (o.action (setup.inMode .queue)) (o.action (setup.inMode .push)) := by
  cases o with
  | start workflow input parent parentStep => exact .bind (agree_startWorkflow ..) fun _ ↦ .pure _
  | result m => exact agree_processResult m
  | outcome m => exact agree_processOutcome m
  | stop run => exact (withholds_stop run).agree.bind fun _ ↦ .pure _
  | pause run => exact (withholds_pause run).agree.bind fun _ ↦ .pure _
  | resume run => exact (agree_resume run).bind fun _ ↦ .pure _
  | watch run time phase =>
    exact (@withholds_watch (setup.inMode .queue) run time phase).agree.bind fun _ ↦ .pure _
  | failRun m => exact (withholds_failRun m).agree
  | sweep keepDays maxCount => exact (withholds_deleteOldRuns ..).agree.bind fun _ ↦ .pure _

theorem corresponds_handle (channel : Channel) (payload : String) :
    Corresponds setup.callbackUrl ((setup.inMode .queue).handle channel payload)
      ((setup.inMode .push).handle channel payload) := by
  have hconsume : Agree setup.callbackUrl ((setup.inMode .queue).consume channel payload)
      ((setup.inMode .push).consume channel payload) := by
    have hread {γ : Type} (decode : Json.Decoder γ) :
        Withholds (Action.ofExcept (decodePayload decode payload)) := .ofExcept _
    cases channel with
    | results => exact (hread _).agree.bind fun m ↦ agree_processResult m
    | deployments => exact (hread _).agree.bind fun m ↦ agree_processOutcome m
    | work | notifications => exact .throw _
  exact Corresponds.bind hconsume fun _ ↦ .done _

theorem corresponds_handle_results {m : StepResult} {payload payload' : String}
    (hm : decodePayload StepResult.decode payload = .ok m)
    (hm' : decodePayload StepResult.decode payload' = .ok m) :
    Corresponds setup.callbackUrl ((setup.inMode .queue).handle .results payload)
      ((setup.inMode .push).handle .results payload') := by
  have hhandle : (setup.inMode .push).handle .results payload' =
      (setup.inMode .push).handle .results payload := by
    simp only [Setup.handle, Setup.consume, hm, hm']
  rw [hhandle]
  exact corresponds_handle .results payload

end Engine

end Orchestration
