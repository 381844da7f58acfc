import Orchestration.Proofs.Asking

/-!
# What it takes to leave a step

To leave a step may end in many ways: the next step is launched, with all the runs that it starts,
the step is repeated, or the run comes to its end and reports. None of them writes a result, notes a
step for a paused run, takes such a note back or removes a record (`movesOn_advance`). Since this is
said of the calls and not of executions, it holds whoever else is at work meanwhile.

Most of the actions on the way are plainer than that. They read, announce and report, and change
what the records say of runs and steps that are there. So a property that is kept by all ways of
building an action is one of the whole way, as soon as plain actions, the few other calls and the
making of a run have it (`Habit`). It is enough that plain actions have it which make no run wait
for its functions, if the property allows that to be done to a run that has just been made
(`Practice`).
-/

namespace Orchestration

namespace Engine

variable {α : Type}

/-- Whether a call may be made on the way from one step to the next. A run that is put in holds
nothing. -/
def Call.movesOn : Call → Prop
  | .store (.setHeldStep ..) | .store (.takeHeldStep _) | .store (.applyStepResult ..)
  | .store (.deleteRuns _) => False
  | .store (.insertRun run _) => run.heldStepInstanceUid = none
  | _ => True

/-- Whether a call is one of those on the way that put no run in, hand no work over and ask no
catalog. -/
def Call.isPlain : Call → Prop
  | .store (.setHeldStep ..) | .store (.takeHeldStep _) | .store (.applyStepResult ..)
  | .store (.deleteRuns _) | .store (.insertRun ..) => False
  | .store _ | .now | .spawn _ => True
  | .publish channel _ => channel ≠ .work
  | .getFunction _ | .deployFunction _ | .getWorkflow _ | .getStepList _ | .post .. | .newUid =>
    False

/-- Whether a call reads, reports, or notes when and how a run begins and ends. Such a call changes
no step and no status. -/
def Call.isHarmless : Call → Prop
  | .store (.getRun _) | .store (.getStep _) | .store (.listSteps _) | .store (.findStep ..)
  | .store .listTopLevelRuns | .store (.setRunStartTime ..) | .store (.setRunEndTime ..)
  | .store (.recordRunError ..) | .store (.setRunOutput ..) | .now | .spawn _ => True
  | .publish channel _ => channel ≠ .work
  | _ => False

/-- Whether a call has a run wait for its functions. -/
def Call.detains : Call → Prop
  | .store (.updateRunStatus _ status _) => status = .deployingFunctions
  | _ => False

/-- An action makes only calls that lead from one step to the next. -/
abbrev MovesOn (a : Action α) : Prop := Asks Call.movesOn a

/-- An action makes only plain calls. -/
abbrev Plain (a : Action α) : Prop := Asks Call.isPlain a

/-- An action makes only plain calls, and has no run wait. -/
abbrev Modest (a : Action α) : Prop := Asks (fun c ↦ c.isPlain ∧ ¬c.detains) a

theorem Modest.plain {a : Action α} (h : Modest a) : Plain a := h.mono fun _ ↦ And.left

theorem Call.movesOn_of_isPlain {c : Call} (h : c.isPlain) : c.movesOn := by
  cases c with
  | store c =>
    cases c with
    | insertRun => exact h.elim
    | _ => exact h
  | _ => trivial

theorem Plain.movesOn {a : Action α} (h : Plain a) : MovesOn a :=
  h.mono fun _ ↦ Call.movesOn_of_isPlain

/-- An action makes only harmless calls. -/
abbrev Harmless (a : Action α) : Prop := Asks Call.isHarmless a

theorem Call.isPlain_of_isHarmless {c : Call} (h : c.isHarmless) : c.isPlain := by
  cases c with
  | store c =>
    cases c with
    | getRun | getStep | listSteps | findStep | listTopLevelRuns | setRunStartTime | setRunEndTime
    | recordRunError | setRunOutput => trivial
    | _ => exact h.elim
  | publish => exact h
  | now | spawn => trivial
  | getFunction | deployFunction | getWorkflow | getStepList | post | newUid => exact h.elim

theorem Harmless.plain {a : Action α} (h : Harmless a) : Plain a :=
  h.mono fun _ ↦ Call.isPlain_of_isHarmless

theorem Call.not_detains_of_isHarmless {c : Call} (h : c.isHarmless) : ¬c.detains := by
  cases c with
  | store c =>
    cases c with
    | updateRunStatus => exact h.elim
    | _ => exact id
  | _ => exact id

theorem Call.isModest_of_isHarmless {c : Call} (h : c.isHarmless) : c.isPlain ∧ ¬c.detains :=
  ⟨Call.isPlain_of_isHarmless h, Call.not_detains_of_isHarmless h⟩

theorem Harmless.modest {a : Action α} (h : Harmless a) : Modest a :=
  h.mono fun _ ↦ Call.isModest_of_isHarmless

/-! ## Reading and announcing -/

theorem ReadsSteps.harmless {a : Action α} (h : ReadsSteps a) : Harmless a := by
  refine h.mono fun c hc ↦ ?_
  cases c with
  | store c =>
    cases c with
    | getStep | listSteps | findStep => trivial
    | _ => cases hc
  | _ => cases hc

theorem harmless_announce (n : RunNotification) : Harmless (announce n) :=
  .bind (.attempt ⟨nofun, fun _ ↦ trivial⟩) fun _ ↦ .pure _

theorem harmless_readRun (run : Uid) : Harmless (readRun run) := asks_readRun trivial

theorem harmless_readStep (step : Uid) : Harmless (readStep step) := asks_readStep trivial

theorem harmless_firstStep (run : Uid) : Harmless (firstStep run) := asks_firstStep trivial

theorem harmless_state (run : Uid) : Harmless (state run) := asks_state trivial trivial

theorem harmless_evaluateSwitch (step : StepInstance) (text : String) :
    Harmless (evaluateSwitch step text) := asks_evaluateSwitch (fun _ ↦ trivial) text

theorem harmless_normalize (input : Json.Object) (run : Uid) (current : Option StepInstance) :
    Harmless (normalize input run current) := asks_normalize (fun _ ↦ trivial) input

/-! ## Changing statuses and times -/

theorem asks_writeRunStatus {φ : Call → Prop} {run : Uid} {status : RunStatus}
    {expected : Option RunStatus} (hφ : ∀ c, c.isHarmless → φ c)
    (h : φ (.store (.updateRunStatus run status expected))) :
    Asks φ (writeRunStatus run status expected) :=
  .bind (.store h) fun _ ↦ .ite (.bind ((harmless_announce _).mono hφ) fun _ ↦ .pure _) (.pure _)

theorem plain_writeRunStatus (run : Uid) (status : RunStatus) (expected : Option RunStatus) :
    Plain (writeRunStatus run status expected) :=
  asks_writeRunStatus (fun _ ↦ Call.isPlain_of_isHarmless) trivial

theorem modest_writeRunStatus (run : Uid) {status : RunStatus} (expected : Option RunStatus)
    (h : status ≠ .deployingFunctions) : Modest (writeRunStatus run status expected) :=
  asks_writeRunStatus (fun _ ↦ Call.isModest_of_isHarmless) ⟨trivial, h⟩

theorem plain_updateRunStatus (run : Uid) (status : RunStatus) :
    Plain (updateRunStatus run status) := plain_writeRunStatus run status none

theorem harmless_setRunStartTime (run : Uid) : Harmless (setRunStartTime run) :=
  .bind ⟨trivial, fun _ ↦ trivial⟩ fun _ ↦ .store trivial

theorem harmless_setRunEndTime (run : Uid) : Harmless (setRunEndTime run) :=
  .bind ⟨trivial, fun _ ↦ trivial⟩ fun _ ↦ .store trivial

theorem modest_launchAttempt (step : StepInstance) (input : Json.Object) :
    Modest (launchAttempt step input) :=
  .bind ⟨⟨trivial, id⟩, fun _ ↦ trivial⟩ fun _ ↦ .bind (.store ⟨trivial, id⟩) fun _ ↦
    .bind (harmless_announce _).modest fun _ ↦ (harmless_readStep _).modest

theorem plain_launchAttempt (step : StepInstance) (input : Json.Object) :
    Plain (launchAttempt step input) := (modest_launchAttempt step input).plain

/-! ## Ending a run -/

theorem harmless_publishResult (result : StepResult) : Harmless (publishResult result) :=
  ⟨nofun, fun _ ↦ trivial⟩

theorem harmless_reportToParent (run : WorkflowInstance) (status : RunStatus)
    (reason : Option String) (output : Json.Object) :
    Harmless (reportToParent run status reason output) := by
  unfold reportToParent
  split
  · exact .bind (harmless_readStep _) fun _ ↦ .ite (harmless_publishResult _) (.pure _)
  · exact .pure _

/-- What is done at the end of a run once its status has been written is harmless. -/
theorem harmless_finishing (setup : Setup) (run : Uid) (status : RunStatus)
    (failure : Option Failure) (output : Option Json.Object) :
    Harmless (Action.now >>= fun time ↦ closing run time failure (finalOutput? status output) >>=
      fun r ↦ reportToParent r status (failure.map Failure.text)
        ((finalOutput? status output).getD []) >>= fun _ ↦
        Action.spawn (.sweep setup.settings.retentionKeepDays
          setup.settings.retentionMaxCount)) := by
  refine .bind ⟨trivial, fun _ ↦ trivial⟩ fun time ↦ .bind (.bind (.store trivial) fun _ ↦ ?_)
    fun r ↦ .bind (harmless_reportToParent _ _ _ _) fun _ ↦ ⟨trivial, fun _ ↦ trivial⟩
  refine .bind ?_ fun _ ↦ .bind ?_ fun _ ↦ harmless_readRun run
  · cases failure with
    | none => exact .pure _
    | some f => exact .store trivial
  · cases finalOutput? status output with
    | none => exact .pure _
    | some o => exact .store trivial

theorem asks_terminate {φ : Call → Prop} (setup : Setup) {run : Uid} {status : RunStatus}
    (failure : Option Failure) (output : Option Json.Object) (hφ : ∀ c, c.isHarmless → φ c)
    (h : φ (.store (.updateRunStatus run status none))) :
    Asks φ (setup.terminate run status failure output) := by
  rw [terminate_eq]
  exact .bind (asks_writeRunStatus hφ h) fun _ ↦
    .ite ((harmless_finishing setup run status failure output).mono hφ) (.pure _)

theorem plain_terminate (setup : Setup) (run : Uid) (status : RunStatus)
    (failure : Option Failure) (output : Option Json.Object) :
    Plain (setup.terminate run status failure output) :=
  asks_terminate setup failure output (fun _ ↦ Call.isPlain_of_isHarmless) trivial

theorem modest_terminate (setup : Setup) (run : Uid) {status : RunStatus}
    (failure : Option Failure) (output : Option Json.Object) (h : status ≠ .deployingFunctions) :
    Modest (setup.terminate run status failure output) :=
  asks_terminate setup failure output (fun _ ↦ Call.isModest_of_isHarmless) ⟨trivial, h⟩

theorem plain_fail (setup : Setup) (run : Uid) (status : RunStatus) (step reason : String) :
    Plain (setup.fail run status step reason) := plain_terminate setup run status _ none

theorem modest_fail (setup : Setup) (run : Uid) {status : RunStatus} (step reason : String)
    (h : status ≠ .deployingFunctions) : Modest (setup.fail run status step reason) :=
  modest_terminate setup run _ none h

/-! ## Whatever is kept on the way -/

/-- A property of actions that all ways of building an action keep, and that everything has from
which the way from one step to the next is built. Only runs of a kind are made to wait for their
functions, and the runs that are generated are of this kind. -/
structure Practice (N : Uid → Prop) (P : ∀ ⦃α : Type⦄, Action α → Prop) : Prop where
  bind : ∀ {α β : Type} {a : Action α} {f : α → Action β}, P a → (∀ x, P (f x)) → P (a >>= f)
  attempt : ∀ {α : Type} {a : Action α}, P a → P (Action.attempt a)
  modest : ∀ {α : Type} {a : Action α}, Modest a → P a
  detain : ∀ run, N run → P (updateRunStatus run .deployingFunctions)
  publishWork : ∀ document, P (Action.publish .work document)
  post : ∀ address document, P (Action.post address document)
  getFunction : ∀ f, P (Action.getFunction f)
  deployFunction : ∀ f, P (Action.deployFunction f)
  getWorkflow : ∀ w, P (Action.getWorkflow w)
  getStepList : ∀ w, P (Action.getStepList w)
  make : ∀ {α : Type} {f : WorkflowInstance × List StepInstance → Action α} definition steps input
    parent parentStep, (∀ made, N made.1.uid → P (f made)) →
      P (generate definition steps input parent parentStep >>= f)

/-- A practice that has nothing to do with which runs wait. -/
structure Habit (P : ∀ ⦃α : Type⦄, Action α → Prop) : Prop extends Practice (fun _ ↦ True) P where
  plain : ∀ {α : Type} {a : Action α}, Plain a → P a
  generate : ∀ definition steps input parent parentStep,
    P (generate definition steps input parent parentStep)
  modest := fun h ↦ plain h.plain
  detain := fun run _ ↦ plain (plain_updateRunStatus run _)
  make := fun _ _ _ _ _ hf ↦ bind (generate ..) fun made ↦ hf made trivial

/-- Whoever starts sub-workflows keeps a property. -/
abbrev KeptByChild (P : ∀ ⦃α : Type⦄, Action α → Prop) (startChild : StartChild) : Prop :=
  ∀ workflow input parent parentStep, P (startChild workflow input parent parentStep)

namespace Practice

variable {N : Uid → Prop} {P : ∀ ⦃α : Type⦄, Action α → Prop} (h : Practice N P) (setup : Setup)
  {startChild : StartChild}

theorem ite (_ : Practice N P) {p : Prop} [Decidable p] {a b : Action α} (ha : P a) (hb : P b) :
    P (if p then a else b) := by
  split
  · exact ha
  · exact hb

include h

theorem harmless {a : Action α} (ha : Harmless a) : P a := h.modest ha.modest

theorem pure (x : α) : P (Pure.pure x : Action α) := h.modest (.pure x)

theorem throw (e : EngineError) : P (throw e : Action α) := h.modest (.throw e)

/-! ### Launching -/

theorem handOver (step : StepInstance) (input : Json.Object) (f : FunctionInfo) :
    P (setup.handOver step input f) := by
  unfold Setup.handOver
  split
  · exact h.publishWork _
  · unfold Setup.push
    split
    · exact h.throw _
    · exact h.bind (h.post _ _) fun _ ↦ h.ite (h.pure _) (h.throw _)

theorem send (step : StepInstance) (input : Json.Object) (f : FunctionInfo) :
    P (setup.send step input f) := by
  refine h.bind (h.attempt (h.handOver setup step input f)) fun o ↦ ?_
  split
  · exact h.pure _
  · exact h.harmless (harmless_publishResult _)

theorem dispatchFunction (step : StepInstance) (input : Json.Object) (f : Uid) :
    P (setup.dispatchFunction step input f) :=
  h.bind (h.getFunction f) fun _ ↦ h.bind (h.modest (modest_launchAttempt _ _)) fun _ ↦
    h.send setup _ _ _

theorem startSubWorkflow (hc : KeptByChild P startChild) (step : StepInstance)
    (input : Json.Object) (workflow : Uid) :
    P (Setup.startSubWorkflow startChild step input workflow) :=
  h.bind (h.modest (modest_launchAttempt _ _)) fun _ ↦ hc ..

theorem tryLaunch (hc : KeptByChild P startChild) (step : StepInstance) :
    P (setup.tryLaunch startChild step) := by
  refine h.bind (h.harmless (harmless_normalize _ _ _)) fun input ↦ ?_
  split
  · exact h.dispatchFunction setup _ _ _
  · exact h.dispatchFunction setup _ _ _
  · exact h.startSubWorkflow hc _ _ _
  · refine h.bind (h.harmless (harmless_evaluateSwitch _ _)) fun value ↦
      h.bind (h.modest (.ofExcept _)) fun chosen ↦ h.bind
        (h.modest (.store ⟨trivial, id⟩)) fun _ ↦ ?_
    split
    · exact h.dispatchFunction setup _ _ _
    · exact h.startSubWorkflow hc _ _ _

theorem launch (hc : KeptByChild P startChild) (step : StepInstance) :
    P (setup.launch startChild step) := by
  refine h.bind (h.attempt (h.tryLaunch setup hc step)) fun o ↦ ?_
  split
  · exact h.pure _
  · exact h.ite (h.modest (modest_fail setup _ _ _ nofun)) (h.throw _)

theorem lookUpFunctions (refs : List (Uid × String)) : P (Setup.lookUpFunctions refs) := by
  induction refs with
  | nil => exact h.pure _
  | cons ref rest ih =>
    refine h.bind (h.attempt (h.getFunction _)) fun o ↦ ?_
    split
    · exact h.bind ih fun _ ↦ h.pure _
    · exact h.ite (h.pure _) (h.throw _)

theorem requestDeployments (functions : List FunctionInfo) :
    P (Setup.requestDeployments functions) := by
  induction functions with
  | nil => exact h.pure _
  | cons f rest ih => exact h.ite ih (h.bind (h.deployFunction _) fun _ ↦ ih)

theorem prepareFunctions (hc : KeptByChild P startChild) {run : Uid} (hrun : N run)
    (steps : List StepDefinition) (first : StepInstance) :
    P (setup.prepareFunctions startChild run steps first) := by
  refine h.bind (h.lookUpFunctions _) fun found ↦ ?_
  split
  · exact h.modest (modest_terminate setup _ _ _ nofun)
  split
  · exact h.modest (modest_fail setup _ _ _ nofun)
  refine h.ite ?_ ?_
  · exact h.bind (h.modest (modest_writeRunStatus _ _ nofun)) fun _ ↦ h.launch setup hc first
  · exact h.bind (h.requestDeployments _) fun _ ↦ h.bind (h.detain run hrun) fun _ ↦
      h.modest ⟨⟨trivial, id⟩, fun _ ↦ trivial⟩

/-! ### Starting runs -/

theorem startRun (hc : KeptByChild P startChild) {run : Uid} (hrun : N run)
    (definition : WorkflowDefinition) (steps : List StepDefinition) :
    P (setup.startRun startChild run definition steps) := by
  refine h.bind (h.harmless (harmless_setRunStartTime run)) fun _ ↦
    h.bind (h.harmless (.attempt (harmless_firstStep run))) fun o ↦ ?_
  split
  · refine h.ite ?_ ?_
    · exact h.bind (h.modest (modest_writeRunStatus _ _ nofun)) fun _ ↦ h.bind (h.launch setup hc _)
        fun _ ↦ h.harmless (harmless_state run)
    · exact h.bind (h.prepareFunctions setup hc hrun _ _) fun _ ↦ h.harmless (harmless_state run)
  · exact h.modest (.ite (.bind (modest_fail setup _ _ _ nofun) fun _ ↦ (harmless_state run).modest)
      (.bind (.throw _) fun _ ↦ (harmless_state run).modest))

theorem startWith (hc : KeptByChild P startChild) (workflow : Uid) (input : Json.Object)
    (parent parentStep : Option Uid) :
    P (setup.startWith startChild workflow input parent parentStep) := by
  refine h.bind (h.getWorkflow _) fun definition ↦
    h.bind (h.ite (h.getStepList _) (h.pure _)) fun steps ↦ h.make _ _ _ _ _ fun made hmade ↦ ?_
  split
  exact h.startRun setup hc hmade _ _

theorem startNested (depth : Nat) (workflow : Uid) (input : Json.Object)
    (parent parentStep : Option Uid) :
    P (setup.startNested depth workflow input parent parentStep) := by
  induction depth generalizing workflow input parent parentStep with
  | zero => exact h.throw _
  | succ depth ih =>
    exact h.startWith setup (fun _ _ _ _ ↦ h.bind (ih ..) fun _ ↦ h.pure _) _ _ _ _

theorem launchStep (step : StepInstance) : P (setup.launchStep step) :=
  h.launch setup (fun _ _ _ _ ↦ h.bind (h.startNested setup _ _ _ _ _) fun _ ↦ h.pure _) step

/-! ### Leaving a step -/

theorem advance (step : StepInstance) : P (setup.advance step) := by
  have hleave : P (setup.leave step) := by
    refine h.bind (h.harmless (.attempt (readsSteps_nextStep step).harmless)) fun o ↦ ?_
    split
    · exact h.launchStep setup _
    · exact h.modest (.ite (modest_terminate setup _ _ _ nofun) (modest_fail setup _ _ _ nofun))
    · exact h.modest (.ite (modest_fail setup _ _ _ nofun) (.throw _))
  have hfail : step.runStatus ≠ .deployingFunctions →
      P (setup.fail step.workflowInstanceUid step.runStatus step.name (failureReason step)) :=
    fun hstatus ↦ h.modest (modest_fail setup _ _ _ hstatus)
  have hretry : step.runStatus ≠ .deployingFunctions → P (setup.retry step) := fun hstatus ↦
    h.bind (h.modest (.store ⟨trivial, id⟩)) fun _ ↦ h.ite
      (h.bind (h.harmless (harmless_readStep _)) fun _ ↦ h.launchStep setup _) (hfail hstatus)
  unfold Setup.advance
  split
  · exact hleave
  · exact hleave
  · next hstatus => exact hretry (by rw [hstatus]; nofun)
  · next hstatus => exact hretry (by rw [hstatus]; nofun)
  · next hstatus => exact hfail (by rw [hstatus]; nofun)
  · next hstatus => exact hfail (by rw [hstatus]; nofun)
  all_goals exact h.throw _

end Practice

/-! ## Moving on -/

theorem asks_newUids {φ : Call → Prop} (hnew : φ .newUid) (n : Nat) :
    Asks φ (Action.newUids n) := by
  induction n with
  | zero => exact .pure _
  | succ n ih => exact .bind ⟨hnew, fun _ ↦ trivial⟩ fun _ ↦ .bind ih fun _ ↦ .pure _

/-- To make only calls that lead from one step to the next is a habit. -/
theorem habit_movesOn : Habit fun _ a ↦ MovesOn a where
  bind := .bind
  attempt := .attempt
  plain := Plain.movesOn
  publishWork := fun _ ↦ ⟨trivial, fun _ ↦ trivial⟩
  post := fun _ _ ↦ ⟨trivial, fun _ ↦ trivial⟩
  getFunction := fun _ ↦ ⟨trivial, fun _ ↦ trivial⟩
  deployFunction := fun _ ↦ ⟨trivial, fun _ ↦ trivial⟩
  getWorkflow := fun _ ↦ ⟨trivial, fun _ ↦ trivial⟩
  getStepList := fun _ ↦ ⟨trivial, fun _ ↦ trivial⟩
  generate := by
    intro definition steps input parent parentStep
    refine .ite (.throw _) (.bind ⟨trivial, fun _ ↦ trivial⟩ fun uid ↦
      .bind (asks_newUids trivial _) fun stepUids ↦ .bind ⟨trivial, fun _ ↦ trivial⟩
        fun createdAt ↦ ?_)
    -- A new run is put in as `newRun` makes it, and holds nothing.
    exact .bind (.store rfl) fun _ ↦ .pure _

/-- To leave a step takes only calls that lead from one step to the next. -/
theorem movesOn_advance (setup : Setup) (step : StepInstance) : MovesOn (setup.advance step) :=
  habit_movesOn.advance setup step

/-! ## What stays -/

section Stays

variable {R : Rule} {s s' : Scene} {t : Store.Tables} {u : Uid}

theorem runs_onStep {α : Type} (v : Uid) (change : StepInstance → α × StepInstance) :
    (t.onStep v change).2.runs = t.runs := by
  cases hv : t.step? v with
  | none => rw [Store.Tables.onStep_of_none hv]
  | some x =>
    rw [Store.Tables.onStep_of_some hv]
    rfl

theorem runs_foldl_insertStep (steps : List StepInstance) (t : Store.Tables) :
    (steps.foldl Store.Tables.insertStep t).runs = t.runs := by
  induction steps generalizing t with
  | nil => rfl
  | cons x rest ih =>
    rw [List.foldl_cons, ih, Store.Tables.insertStep]
    split
    · rfl
    · rfl

theorem Call.run_stays {c : Call} (hc : c.movesOn) (answer : c.Answer)
    (h : u ∈ s.tables.runs.map (·.uid)) : u ∈ (s.after c answer).tables.runs.map (·.uid) := by
  have honRun : ∀ {α : Type} (v : Uid) (change : WorkflowInstance → α × WorkflowInstance),
      u ∈ (s.tables.onRun v change).2.runs.map (·.uid) := by
    intro α v change
    cases hv : s.tables.run? v with
    | none =>
      rw [Store.Tables.onRun_of_none hv]
      exact h
    | some p =>
      rw [Store.Tables.onRun_of_some hv]
      show u ∈ (Store.overwrite WorkflowInstance.uid (change p).2 s.tables.runs).map _
      rw [Store.map_key_overwrite]
      exact h
  cases c with
  | store c =>
    cases c with
    | insertRun p steps =>
      show u ∈ (if _ then _ else _ : Except EngineError Unit × Store.Tables).2.runs.map _
      split
      · exact h
      · rw [runs_foldl_insertStep, List.map_append]
        exact List.mem_append_left _ h
    | getRun | getStep | listSteps | findStep | listTopLevelRuns => exact h
    | updateRunStatus v | setRunStartTime v | setRunEndTime v | recordRunError v | setRunOutput v =>
      exact honRun v _
    | setHeldStep | takeHeldStep | applyStepResult | deleteRuns => exact hc.elim
    | updateStepStatus v | launchStep v | setStepStartTime v | setStepEndTime v | setSelectedCase v
    | decrementRetry v =>
      show u ∈ (s.tables.onStep v _).2.runs.map _
      rw [runs_onStep]
      exact h
  | publish channel payload =>
    show u ∈ (s.publish channel payload (Except.isOk answer)).tables.runs.map _
    unfold Scene.publish
    split
    · exact h
    · exact h
  | getFunction | deployFunction | getWorkflow | getStepList | post | now | newUid | spawn =>
    exact h

theorem MovesOn.run_stays {a : Action α} (ha : MovesOn a) {r : Except EngineError α}
    (h : Runs R a s r s') (hu : u ∈ s.tables.runs.map (·.uid)) :
    u ∈ s'.tables.runs.map (·.uid) := by
  exact Asks.keeps (I := fun s ↦ u ∈ s.tables.runs.map (·.uid)) ha
    (fun _ _ hc answer hs ↦ Call.run_stays hc answer hs) hu h

/-! ### What runs hold -/

/-- A run, if it is there, holds nothing. -/
structure HoldsNothing (u : Uid) (s : Scene) : Prop where
  runs : (s.tables.runs.map (·.uid)).Nodup
  unheld : ∀ p ∈ s.tables.runs, p.uid = u → p.heldStepInstanceUid = none

/-- A run keeps holding nothing if what is written over the runs holds what they have held. -/
private theorem HoldsNothing.onRun {α : Type} (h : HoldsNothing u s) (v : Uid)
    {change : WorkflowInstance → α × WorkflowInstance}
    (hchange : ∀ p, (change p).2.uid = p.uid ∧
      (change p).2.heldStepInstanceUid = p.heldStepInstanceUid) :
    HoldsNothing u { s with tables := (s.tables.onRun v change).2 } := by
  cases hv : s.tables.run? v with
  | none =>
    rw [Store.Tables.onRun_of_none hv]
    exact h
  | some p =>
    rw [Store.Tables.onRun_of_some hv]
    obtain ⟨huid, hheld⟩ := hchange p
    refine ⟨?_, fun r hr hru ↦ ?_⟩
    · show ((Store.overwrite WorkflowInstance.uid (change p).2 s.tables.runs).map _).Nodup
      rw [Store.map_key_overwrite]
      exact h.runs
    · rcases Store.mem_overwrite hr with rfl | ⟨hr, -⟩
      · rw [hheld]
        exact h.unheld p (Store.Tables.mem_of_run? hv).1 (huid.symm.trans hru)
      · exact h.unheld r hr hru

private theorem HoldsNothing.congr (h : HoldsNothing u s) (hruns : s'.tables.runs = s.tables.runs) :
    HoldsNothing u s' := ⟨hruns ▸ h.runs, hruns ▸ h.unheld⟩

private theorem HoldsNothing.insertRun {p : WorkflowInstance} (hp : p.heldStepInstanceUid = none)
    (steps : List StepInstance) (h : HoldsNothing u s) :
    HoldsNothing u (s.afterStore (.insertRun p steps)) := by
  by_cases hthere : (s.tables.run? p.uid).isSome
  · refine h.congr ?_
    show (if _ then _ else _ : Except EngineError Unit × Store.Tables).2.runs = _
    rw [if_pos hthere]
  have hruns : (s.afterStore (.insertRun p steps)).tables.runs = s.tables.runs ++ [p] := by
    show (if _ then _ else _ : Except EngineError Unit × Store.Tables).2.runs = _
    rw [if_neg hthere]
    exact runs_foldl_insertStep steps _
  have hnew : p.uid ∉ s.tables.runs.map (·.uid) := by
    intro hmem
    obtain ⟨r, hr, hu⟩ := List.mem_map.1 hmem
    refine hthere (List.find?_isSome.2 ⟨r, hr, ?_⟩)
    simpa using hu
  constructor
  · rw [hruns, List.map_append]
    exact List.nodup_append'.2 ⟨h.runs, List.nodup_singleton _,
      List.disjoint_singleton.2 hnew⟩
  · intro r hr hru
    rw [hruns] at hr
    rcases List.mem_append.1 hr with hr | hr
    · exact h.unheld r hr hru
    · rw [List.mem_singleton.1 hr]
      exact hp

/-- What leads from one step to the next has no run hold anything. -/
theorem HoldsNothing.after {c : Call} (hc : c.movesOn) (answer : c.Answer) (h : HoldsNothing u s) :
    HoldsNothing u (s.after c answer) := by
  cases c with
  | store c =>
    cases c with
    | insertRun p steps => exact h.insertRun hc steps
    | getRun | getStep | listSteps | findStep | listTopLevelRuns => exact h.congr rfl
    | updateRunStatus v status expected =>
      refine (h.onRun v fun p ↦ ?_).congr rfl
      unfold Store.Tables.withStatus
      split
      · exact ⟨rfl, rfl⟩
      · exact ⟨rfl, rfl⟩
    | setRunStartTime v | setRunEndTime v | recordRunError v | setRunOutput v =>
      exact (h.onRun v fun p ↦ ⟨rfl, rfl⟩).congr rfl
    | setHeldStep | takeHeldStep | applyStepResult | deleteRuns => exact hc.elim
    | updateStepStatus v | launchStep v | setStepStartTime v | setStepEndTime v | setSelectedCase v
    | decrementRetry v =>
      exact h.congr (runs_onStep v _)
  | publish channel payload =>
    refine h.congr ?_
    show (s.publish channel payload (Except.isOk answer)).tables.runs = _
    unfold Scene.publish
    split
    · rfl
    · rfl
  | getFunction | deployFunction | getWorkflow | getStepList | post | now | newUid | spawn =>
    exact h.congr rfl

/-- Moving on from one step to the next has no run hold anything. -/
theorem MovesOn.holdsNothing {a : Action α} (ha : MovesOn a) {r : Except EngineError α}
    (h : Runs R a s r s') (hs : HoldsNothing u s) : HoldsNothing u s' :=
  Asks.keeps (I := HoldsNothing u) ha (fun _ _ hc answer hs ↦ hs.after hc answer) hs h

end Stays

end Engine

end Orchestration
