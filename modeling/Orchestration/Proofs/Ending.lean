import Orchestration.Engine.Deployment
import Orchestration.Proofs.Standing

/-!
# Reading, announcing, and ending runs

The first layer of what the engine does: actions that only read or announce, which leave a scene as
it is, and actions that write to the record of a run. Most of the latter touch neither its status
nor the step that it holds. A run that gets a terminal status needs nothing more, so a run may be
ended at any time.
-/

namespace Orchestration

namespace Engine

variable {α : Type}

/-! ## Reading and announcing -/

theorem still_announce (n : RunNotification) : Still (announce n) :=
  .bind (.attempt (.notify _)) fun _ ↦ .pure _

theorem runs_announce {R : Rule} {s s' : Scene} {n : RunNotification}
    {r : Except EngineError Unit} (h : Runs R (announce n) s r s') : r = .ok () := by
  obtain ⟨o, s₁, -, hrest⟩ := runs_attempt_bind.1 h
  exact (runs_pure.1 hrest).1

theorem still_announceRun (run : Uid) (status : RunStatus) : Still (announceRun run status) :=
  still_announce _

theorem still_announceStep (step : StepInstance) (status : RunStatus) :
    Still (announceStep step status) := still_announce _

theorem reads_readRun (run : Uid) : Reads (readRun run) := by
  refine .bind (.store rfl) fun found ↦ ?_
  split
  · exact .pure _
  · exact .throw _

theorem still_readRun (run : Uid) : Still (readRun run) := (reads_readRun run).still

theorem reads_readStep (step : Uid) : Reads (readStep step) := by
  refine .bind (.store rfl) fun found ↦ ?_
  split
  · exact .pure _
  · exact .throw _

theorem still_readStep (step : Uid) : Still (readStep step) := (reads_readStep step).still

theorem reads_firstStep (run : Uid) : Reads (firstStep run) := by
  refine .bind (.store rfl) fun steps ↦ ?_
  split
  · exact .pure _
  · exact .throw _

theorem still_firstStep (run : Uid) : Still (firstStep run) := (reads_firstStep run).still

/-- The step that a step names as the next one. -/
def followLink (step : StepInstance) : Action (Option StepInstance) :=
  match step.nextStepId with
  | some next => Action.store (.getStep next)
  | none => pure none

theorem nextStep_of_loop {step : StepInstance} {f : Uid} {text : String}
    (h : step.shape = .doWhile f text) :
    nextStep step = evaluateStop step text >>= fun stops ↦
      if stops then followLink step else pure (some step) := by
  unfold nextStep
  rw [h]
  rfl

theorem nextStep_of_not_loop {step : StepInstance} (h : ∀ f text, step.shape ≠ .doWhile f text) :
    nextStep step = followLink step := by
  unfold nextStep
  cases hs : step.shape with
  | doWhile f text => exact absurd hs (h f text)
  | _ => rfl

theorem reads_followLink (step : StepInstance) : Reads (followLink step) := by
  unfold followLink
  split
  · exact .store rfl
  · exact .pure _

theorem reads_nextStep (step : StepInstance) : Reads (nextStep step) := by
  by_cases h : ∃ f text, step.shape = .doWhile f text
  · obtain ⟨f, text, h⟩ := h
    rw [nextStep_of_loop h]
    exact .bind (reads_evaluateStop _ _) fun _ ↦ .ite (reads_followLink _) (.pure _)
  · rw [nextStep_of_not_loop fun f text hs ↦ h ⟨f, text, hs⟩]
    exact reads_followLink _

theorem still_state (run : Uid) : Still (state run) :=
  .bind (still_readRun run) fun _ ↦ .bind (.listSteps run) fun _ ↦ .pure _

theorem still_lookUpFunctions (refs : List (Uid × String)) :
    Still (Setup.lookUpFunctions refs) := by
  induction refs with
  | nil => exact .pure _
  | cons ref rest ih =>
    refine .bind (.attempt (.getFunction _)) fun found ↦ ?_
    split
    · exact .bind ih fun _ ↦ .pure _
    · exact .ite (.pure _) (.throw _)

theorem still_requestDeployments (functions : List FunctionInfo) :
    Still (Setup.requestDeployments functions) := by
  induction functions with
  | nil => exact .pure _
  | cons f rest ih => exact .ite ih (.bind (.deployFunction _) fun _ ↦ ih)

theorem still_stillPending (functions : List Uid) : Still (stillPending functions) := by
  induction functions with
  | nil => exact .pure _
  | cons f rest ih =>
    refine .bind (.getFunction f) fun found ↦ ?_
    split
    · exact ih
    · exact .throw _
    · exact .bind ih fun _ ↦ .pure _
    · exact .bind ih fun _ ↦ .pure _
    · exact .bind ih fun _ ↦ .pure _

theorem still_look (run : Uid) (functions : List Uid) : Still (look run functions) :=
  .bind (still_readRun run) fun _ ↦
    .ite (.pure _) (.bind (still_stillPending functions) fun _ ↦ .pure _)

/-! ### What is read -/

variable {R : Rule} {s s' : Scene}

theorem runs_readRun {run : Uid} {r : WorkflowInstance} (h : Runs R (readRun run) s (.ok r) s') :
    s.tables.run? run = some r := by
  rcases runs_bind.1 h with ⟨e, -, he⟩ | ⟨found, s₁, h₁, h₂⟩
  · cases he
  · obtain ⟨hfound, -, -⟩ := runs_store.1 h₁
    obtain rfl : found = s.tables.run? run := Except.ok.inj hfound
    cases hr : s.tables.run? run with
    | none =>
      rw [hr] at h₂
      cases (runs_throw.1 h₂).1
    | some q =>
      rw [hr] at h₂
      obtain rfl := Except.ok.inj (runs_pure.1 h₂).1
      rfl

theorem runs_readStep {step : Uid} {x : StepInstance} (h : Runs R (readStep step) s (.ok x) s') :
    s.tables.step? step = some x := by
  rcases runs_bind.1 h with ⟨e, -, he⟩ | ⟨found, s₁, h₁, h₂⟩
  · cases he
  · obtain ⟨hfound, -, -⟩ := runs_store.1 h₁
    obtain rfl : found = s.tables.step? step := Except.ok.inj hfound
    cases hr : s.tables.step? step with
    | none =>
      rw [hr] at h₂
      cases (runs_throw.1 h₂).1
    | some q =>
      rw [hr] at h₂
      obtain rfl := Except.ok.inj (runs_pure.1 h₂).1
      rfl

theorem finds_readRun {t : Store.Tables} {run : Uid} {r : WorkflowInstance}
    (h : t.run? run = some r) : Finds t (readRun run) (.ok r) :=
  finds_bind.2 (.inr ⟨some r, (finds_store rfl).2 (congrArg Except.ok h.symm), finds_pure.2 rfl⟩)

theorem finds_readStep {t : Store.Tables} {step : Uid} {x : StepInstance}
    (h : t.step? step = some x) : Finds t (readStep step) (.ok x) :=
  finds_bind.2 (.inr ⟨some x, (finds_store rfl).2 (congrArg Except.ok h.symm), finds_pure.2 rfl⟩)

theorem finds_readRun_none {t : Store.Tables} {run : Uid} (h : t.run? run = none) :
    Finds t (readRun run) (.error (.runNotFound run)) :=
  finds_bind.2 (.inr ⟨none, (finds_store rfl).2 (congrArg Except.ok h.symm), finds_throw.2 rfl⟩)

theorem finds_readStep_none {t : Store.Tables} {step : Uid} (h : t.step? step = none) :
    Finds t (readStep step) (.error (.stepInstanceNotFound step)) :=
  finds_bind.2 (.inr ⟨none, (finds_store rfl).2 (congrArg Except.ok h.symm), finds_throw.2 rfl⟩)

/-- The first step of a run is a step of its chain that is labelled so. -/
theorem runs_firstStep {run : Uid} {x : StepInstance}
    (h : Runs R (firstStep run) s (.ok x) s') :
    x ∈ s.tables.chainOf run ∧ x.runOrderLabel = .first := by
  rcases runs_bind.1 h with ⟨e, -, he⟩ | ⟨steps, s₁, h₁, h₂⟩
  · cases he
  · obtain ⟨hsteps, -, -⟩ := runs_store.1 h₁
    obtain rfl : steps = inExecutionOrder (s.tables.chainOf run) := Except.ok.inj hsteps
    cases hf : (inExecutionOrder (s.tables.chainOf run)).find? fun s ↦ s.runOrderLabel = .first with
    | none =>
      rw [hf] at h₂
      cases (runs_throw.1 h₂).1
    | some y =>
      rw [hf] at h₂
      obtain rfl := Except.ok.inj (runs_pure.1 h₂).1
      exact ⟨(mem_ordered _).1 (List.mem_of_find?_eq_some hf),
        by simpa using List.find?_some hf⟩

/-! ## Writing to a run -/

section Writing

variable {setup : Setup} {G : Uid → Prop} {run : Uid}

/-- A change of one run keeps the invariant if the run stands afterwards. -/
theorem Standing.onRun (hs : Standing setup G s) {c : Store.Call}
    (change : WorkflowInstance → α × WorkflowInstance)
    (hans : (s.tables.answer c).2 = (s.tables.onRun run change).2)
    (huid : ∀ r, (change r).2.uid = r.uid)
    (hheld : ∀ r u, s.tables.run? run = some r → (change r).2.heldStepInstanceUid = some u →
      r.heldStepInstanceUid = some u ∨
        ∃ x ∈ s.tables.steps, x.uid = u ∧ x.workflowInstanceUid = run)
    (hrun : ∀ r, s.tables.run? run = some r → G run → RunStands r (s.tables.chainOf run) →
      RunStands (change r).2 (s.tables.chainOf run)) :
    Standing setup G (s.afterStore c) := by
  obtain ⟨ds, hst, hds⟩ := hs
  refine ⟨ds, ?_, hds⟩
  show Stands G (s.tables.answer c).2 s.issued ds
  rw [hans]
  cases hr : s.tables.run? run with
  | none =>
    rw [Store.Tables.onRun_of_none hr]
    exact hst
  | some r =>
    rw [Store.Tables.onRun_of_some hr]
    obtain ⟨hmem, rfl⟩ := Store.Tables.mem_of_run? hr
    exact hst.putRun hmem (huid r) (fun u hu ↦ hheld r u hr hu) fun hG ↦ hrun r hr hG

/-- A change of a run that touches neither its status nor what it holds keeps the invariant. -/
theorem keeps_onRun {c : Store.Call} (change : WorkflowInstance → α × WorkflowInstance)
    (hans : ∀ t : Store.Tables, (t.answer c).2 = (t.onRun run change).2)
    (hsame : ∀ r, (change r).2.uid = r.uid ∧ (change r).2.runStatus = r.runStatus ∧
      (change r).2.heldStepInstanceUid = r.heldStepInstanceUid) :
    Keeps R (Standing setup G) (Action.store c) :=
  .store fun s hs _ ↦ hs.onRun change (hans s.tables) (fun r ↦ (hsame r).1)
    (fun r _ _ hu ↦ .inl ((hsame r).2.2 ▸ hu)) fun r _ _ hr ↦
    hr.of_eq (hsame r).2.1 (hsame r).2.2

theorem keeps_setRunStartTime : Keeps R (Standing setup G) (setRunStartTime run) :=
  .bind Still.now.keeps fun _ ↦ keeps_onRun _ (fun _ ↦ rfl) fun _ ↦ ⟨rfl, rfl, rfl⟩

theorem keeps_setRunEndTime : Keeps R (Standing setup G) (setRunEndTime run) :=
  .bind Still.now.keeps fun _ ↦ keeps_onRun _ (fun _ ↦ rfl) fun _ ↦ ⟨rfl, rfl, rfl⟩

theorem keeps_recordRunError (step reason : String) :
    Keeps R (Standing setup G) (Action.store (.recordRunError run step reason)) :=
  keeps_onRun _ (fun _ ↦ rfl) fun _ ↦ ⟨rfl, rfl, rfl⟩

theorem keeps_setRunOutput (output : Json.Object) :
    Keeps R (Standing setup G) (Action.store (.setRunOutput run output)) :=
  keeps_onRun _ (fun _ ↦ rfl) fun _ ↦ ⟨rfl, rfl, rfl⟩

/-- A parcel that hands no work over is of no account to the invariant. -/
theorem Standing.send (hs : Standing setup G s) {p : Parcel} (hp : p.handsOver = false)
    (accepted : Bool) : Standing setup G (s.send p accepted) := by
  obtain ⟨ds, hst, hds⟩ := hs
  refine ⟨ds, hst, ?_⟩
  rw [← hds, Scene.handOvers, Scene.send, List.map_append, List.filter_append]
  simp [Scene.handOvers, hp]

theorem keeps_publish {channel : Channel} (hc : channel ≠ .work) (document : Json) :
    Keeps R (Standing setup G) (Action.publish channel document) := by
  intro s r s' hs h
  obtain ⟨-, rfl⟩ := runs_publish.1 h
  unfold Scene.publish
  split
  · exact hs
  · exact hs.send (by simpa [Parcel.handsOver] using hc) _

theorem keeps_publishResult (result : StepResult) :
    Keeps R (Standing setup G) (publishResult result) := keeps_publish (by decide) _

/-! ### Statuses -/

/-- The status of a run is what the store makes of it; the announcement adds nothing. -/
theorem runs_writeRunStatus {status : RunStatus} {expected : Option RunStatus}
    {r : Except EngineError Bool} (h : Runs R (writeRunStatus run status expected) s r s') :
    s' = s.afterStore (.updateRunStatus run status expected) ∧
      r = (s.tables.answer (.updateRunStatus run status expected)).1 := by
  rcases runs_bind.1 h with ⟨e, h₁, rfl⟩ | ⟨applied, s₁, h₁, hrest⟩
  · obtain ⟨happlied, -, rfl⟩ := runs_store.1 h₁
    exact ⟨rfl, happlied⟩
  obtain ⟨happlied, -, rfl⟩ := runs_store.1 h₁
  cases applied with
  | false =>
    obtain ⟨rfl, rfl⟩ := runs_pure.1 hrest
    exact ⟨rfl, happlied⟩
  | true =>
    rcases runs_bind.1 hrest with ⟨e, h₂, -⟩ | ⟨_, s₂, h₂, hrest⟩
    · cases runs_announce h₂
    · rw [still_announceRun _ _ h₂] at hrest
      obtain ⟨rfl, rfl⟩ := runs_pure.1 hrest
      exact ⟨rfl, happlied⟩

theorem withStatus_uid (status : RunStatus) (expected : Option RunStatus) (r : WorkflowInstance) :
    (Store.Tables.withStatus status expected r).2.uid = r.uid := by
  unfold Store.Tables.withStatus
  split
  · rfl
  · rfl

theorem withStatus_held (status : RunStatus) (expected : Option RunStatus)
    (r : WorkflowInstance) :
    (Store.Tables.withStatus status expected r).2.heldStepInstanceUid =
      r.heldStepInstanceUid := by
  unfold Store.Tables.withStatus
  split
  · rfl
  · rfl

theorem Standing.updateRunStatus {status : RunStatus} {expected : Option RunStatus}
    (hs : Standing setup G s)
    (hrun : ∀ r, s.tables.run? run = some r → r.runStatus.isTerminal = false →
      (∀ e ∈ expected, r.runStatus = e) → G run → RunStands r (s.tables.chainOf run) →
      RunStands { r with runStatus := status } (s.tables.chainOf run)) :
    Standing setup G (s.afterStore (.updateRunStatus run status expected)) := by
  refine hs.onRun (Store.Tables.withStatus status expected) rfl
    (withStatus_uid status expected) (fun r u _ hu ↦ .inl (withStatus_held _ _ r ▸ hu))
    fun r hr hG h ↦ ?_
  unfold Store.Tables.withStatus
  split
  · exact h
  · next hno =>
    rw [Bool.or_eq_true, not_or] at hno
    refine hrun r hr (by simpa using hno.1) (fun e he ↦ ?_) hG h
    obtain rfl : expected = some e := he
    have hexp : e = r.runStatus := by simpa using hno.2
    exact hexp.symm

theorem keeps_writeRunStatus {status : RunStatus} {expected : Option RunStatus}
    (hrun : ∀ r cs, (∀ e ∈ expected, r.runStatus = e) → RunStands r cs →
      RunStands { r with runStatus := status } cs) :
    Keeps R (Standing setup G) (writeRunStatus run status expected) := by
  intro s r s' hs h
  rw [(runs_writeRunStatus h).1]
  exact hs.updateRunStatus fun q _ _ he _ hq ↦ hrun q _ he hq

theorem keeps_writeRunStatus_terminal {status : RunStatus} (ht : status.isTerminal = true)
    (expected : Option RunStatus) :
    Keeps R (Standing setup G) (writeRunStatus run status expected) :=
  keeps_writeRunStatus fun _ _ _ h ↦ h.of_terminal ht

theorem keeps_pausing : Keeps R (Standing setup G) (moveRunStatus run .running .paused) :=
  keeps_writeRunStatus fun _ _ he h ↦
    h.of_unheld (h.unheld (.inr (.inr (he _ rfl)))) (.inr rfl)

theorem keeps_beginning :
    Keeps R (Standing setup G) (moveRunStatus run .deployingFunctions .running) :=
  keeps_writeRunStatus fun _ _ he h ↦
    h.of_unheld (h.unheld (.inr (.inl (he _ rfl)))) (.inl rfl)

/-! ## Ending a run -/

theorem keeps_reportToParent_of {I : Scene → Prop}
    (hpublish : ∀ result, Keeps R I (publishResult result)) (r : WorkflowInstance)
    (status : RunStatus) (reason : Option String) (output : Json.Object) :
    Keeps R I (reportToParent r status reason output) := by
  unfold reportToParent
  split
  · exact .bind (still_readStep _).keeps fun _ ↦
      .ite (hpublish _) (Still.pure _).keeps
  · exact (Still.pure _).keeps

/-- The reason for the end of a run is written, if there is one. -/
def recordFailure (run : Uid) (failure : Option Failure) : Action Unit :=
  failure.elim (pure ()) fun f ↦ Action.store (.recordRunError run f.step f.reason)

/-- The output of a run is written, if there is one. -/
def recordOutput (run : Uid) (output : Option Json.Object) : Action Unit :=
  output.elim (pure ()) fun o ↦ Action.store (.setRunOutput run o)

/-- What is written at the end of a run besides its status, and the record that comes of it. -/
def closing (run : Uid) (time : Instant) (failure : Option Failure) (output : Option Json.Object) :
    Action WorkflowInstance := do
  Action.store (.setRunEndTime run time)
  recordFailure run failure
  recordOutput run output
  readRun run

/-- The end of a run consists of its status, its closing and its report. -/
theorem terminate_eq (run : Uid) (status : RunStatus) (failure : Option Failure)
    (output : Option Json.Object) :
    setup.terminate run status failure output = updateRunStatus run status >>= fun applied ↦
      if applied then
        Action.now >>= fun time ↦ closing run time failure (finalOutput? status output) >>= fun r ↦
          reportToParent r status (failure.map Failure.text)
            ((finalOutput? status output).getD []) >>= fun _ ↦
            Action.spawn (.sweep setup.settings.retentionKeepDays setup.settings.retentionMaxCount)
      else pure () := by
  unfold Setup.terminate closing setRunEndTime
  generalize finalOutput? status output = out
  refine congrArg (bind _) (funext fun applied ↦ ?_)
  cases applied with
  | false => rfl
  | true =>
    rw [if_pos rfl, if_pos rfl]
    cases failure with
    | none =>
      cases out with
      | none => simp [recordFailure, recordOutput]
      | some o => simp [recordFailure, recordOutput]
    | some f =>
      cases out with
      | none => simp [recordFailure, recordOutput]
      | some o => simp [recordFailure, recordOutput]

/-- The end of a run keeps whatever is kept by the writes that it consists of. -/
theorem keeps_terminate_of {I : Scene → Prop} {status : RunStatus}
    (hstatus : Keeps R I (writeRunStatus run status none))
    (htime : ∀ time, Keeps R I (Action.store (.setRunEndTime run time)))
    (herror : ∀ f : Failure, Keeps R I (Action.store (.recordRunError run f.step f.reason)))
    (houtput : ∀ o, Keeps R I (Action.store (.setRunOutput run o)))
    (hpublish : ∀ result, Keeps R I (publishResult result)) (failure : Option Failure)
    (output : Option Json.Object) :
    Keeps R I (setup.terminate run status failure output) := by
  have hfailure : Keeps R I (recordFailure run failure) := by
    cases failure with
    | none => exact (Still.pure _).keeps
    | some f => exact herror f
  have hout : ∀ out, Keeps R I (recordOutput run out) := by
    intro out
    cases out with
    | none => exact (Still.pure _).keeps
    | some o => exact houtput o
  rw [terminate_eq]
  refine .bind hstatus fun applied ↦ .ite (.bind Still.now.keeps fun time ↦ ?_) (Still.pure _).keeps
  refine .bind (.bind (htime time) fun _ ↦ .bind hfailure fun _ ↦ .bind (hout _) fun _ ↦
    (still_readRun run).keeps) fun r ↦ ?_
  exact .bind (keeps_reportToParent_of hpublish r status _ _) fun _ ↦ (Still.spawn _).keeps

theorem keeps_reportToParent (r : WorkflowInstance) (status : RunStatus) (reason : Option String)
    (output : Json.Object) :
    Keeps R (Standing setup G) (reportToParent r status reason output) :=
  keeps_reportToParent_of keeps_publishResult r status reason output

theorem keeps_terminate {status : RunStatus} (ht : status.isTerminal = true)
    (failure : Option Failure) (output : Option Json.Object) :
    Keeps R (Standing setup G) (setup.terminate run status failure output) :=
  keeps_terminate_of (keeps_writeRunStatus_terminal ht none)
    (fun _ ↦ keeps_onRun _ (fun _ ↦ rfl) fun _ ↦ ⟨rfl, rfl, rfl⟩)
    (fun f ↦ keeps_recordRunError f.step f.reason) keeps_setRunOutput keeps_publishResult _ _

def endedRun (r : WorkflowInstance) (status : RunStatus) (failure : Option Failure)
    (output : Option Json.Object) (time : Instant) : WorkflowInstance :=
  { r with
    runStatus := status
    endTime := some time
    errorMessages :=
      match failure with
      | some f => Dict.insert f.step f.reason r.errorMessages
      | none => r.errorMessages
    outputData := (finalOutput? status output).getD r.outputData }

/-- The status of a run that has not come to its end is accepted. -/
theorem answer_updateRunStatus {t : Store.Tables} {q : WorkflowInstance} (hq : t.run? run = some q)
    (hnt : q.runStatus.isTerminal = false) (status : RunStatus) :
    t.answer (.updateRunStatus run status none) =
      (.ok true, t.putRun { q with runStatus := status }) := by
  show t.onRun run (Store.Tables.withStatus status none) = _
  rw [Store.Tables.onRun_of_some hq, Store.Tables.withStatus, if_neg (by simp [hnt])]

theorem writes_writeRunStatus {t t' : Store.Tables} {status : RunStatus}
    {expected : Option RunStatus} {applied : Bool}
    (h : t.answer (.updateRunStatus run status expected) = (.ok applied, t')) :
    Writes t (writeRunStatus run status expected) applied t' := by
  rintro R s r s' rfl hrun
  obtain ⟨rfl, rfl⟩ := runs_writeRunStatus hrun
  refine ⟨by rw [h], ?_⟩
  simp only [Scene.afterStore, h, Scene.madeBy, List.append_nil]

/-- Of the changes of one run in a row only the last one is seen. -/
private theorem writes_onRun {t : Store.Tables} {c : Store.Call} {q q' : WorkflowInstance}
    {g : WorkflowInstance → c.Value × WorkflowInstance} (ht : t.Keyed)
    (hq : t.run? run = some q) (hq' : q'.uid = run) (huid : (g q').2.uid = run)
    (hmade : Scene.madeBy c = []) (hans : ∀ t : Store.Tables, t.answer c = t.onRun run g) :
    Writes (t.putRun q') (Action.store c) (g q').1 (t.putRun (g q').2) := by
  have hput := (hans (t.putRun q')).trans (ht.onRun_putRun hq hq' g huid)
  have hstore := Writes.store (t := t.putRun q') (c := c) (x := (g q').1) (by rw [hput]) hmade
  rw [hput] at hstore
  exact hstore

section Ended

variable {t : Store.Tables} {q p : WorkflowInstance}

theorem writes_setRunEndTime (ht : t.Keyed) (hq : t.run? run = some q) (hp : p.uid = run)
    (time : Instant) :
    Writes (t.putRun p) (Action.store (.setRunEndTime run time)) ()
      (t.putRun { p with endTime := some time }) :=
  writes_onRun (c := .setRunEndTime run time) (g := fun p ↦ ((), { p with endTime := some time }))
    ht hq hp hp rfl fun _ ↦ rfl

theorem writes_recordRunError (ht : t.Keyed) (hq : t.run? run = some q) (hp : p.uid = run)
    (f : Failure) :
    Writes (t.putRun p) (Action.store (.recordRunError run f.step f.reason)) ()
      (t.putRun { p with errorMessages := Dict.insert f.step f.reason p.errorMessages }) :=
  writes_onRun (c := .recordRunError run f.step f.reason)
    (g := fun p ↦ ((), { p with errorMessages := Dict.insert f.step f.reason p.errorMessages }))
    ht hq hp hp rfl fun _ ↦ rfl

theorem writes_setRunOutput (ht : t.Keyed) (hq : t.run? run = some q) (hp : p.uid = run)
    (o : Json.Object) :
    Writes (t.putRun p) (Action.store (.setRunOutput run o)) ()
      (t.putRun { p with outputData := o }) :=
  writes_onRun (c := .setRunOutput run o) (g := fun p ↦ ((), { p with outputData := o }))
    ht hq hp hp rfl fun _ ↦ rfl

theorem writes_closing (ht : t.Keyed) (hq : t.run? run = some q) (status : RunStatus)
    (failure : Option Failure) (output : Option Json.Object) (time : Instant) :
    Writes (t.putRun { q with runStatus := status })
      (closing run time failure (finalOutput? status output))
        (endedRun q status failure output time)
      (t.putRun (endedRun q status failure output time)) := by
  obtain ⟨-, hqu⟩ := Store.Tables.mem_of_run? hq
  have htime := writes_setRunEndTime (p := { q with runStatus := status }) ht hq hqu time
  have hfailure : ∀ {p : WorkflowInstance}, p.uid = run →
      Writes (t.putRun p) (recordFailure run failure) ()
        (t.putRun { p with errorMessages := (failure.map fun f ↦
          Dict.insert f.step f.reason p.errorMessages).getD p.errorMessages }) := by
    intro p hp
    cases failure with
    | none => exact Writes.pure _
    | some f => exact writes_recordRunError ht hq hp f
  have hout : ∀ {p : WorkflowInstance} (out : Option Json.Object), p.uid = run →
      Writes (t.putRun p) (recordOutput run out) ()
        (t.putRun { p with outputData := out.getD p.outputData }) := by
    intro p out hp
    cases out with
    | none => exact Writes.pure _
    | some o => exact writes_setRunOutput ht hq hp o
  have hread : Finds (t.putRun (endedRun q status failure output time)) (readRun run)
      (.ok (endedRun q status failure output time)) := finds_readRun (ht.run?_putRun hq hqu)
  refine htime.bind (.bind (hfailure ?_) (.bind (hout (finalOutput? status output) ?_) ?_))
  · exact hqu
  · exact hqu
  · cases failure with
    | none => exact hread.writes
    | some f => exact hread.writes

/-- A run that has not come to its end is written as ended, and reports. -/
theorem runs_terminate {status : RunStatus} {failure : Option Failure} {output : Option Json.Object}
    {r : Except EngineError Unit} (ht : s.tables.Keyed) (hq : s.tables.run? run = some q)
    (hnt : q.runStatus.isTerminal = false)
    (h : Runs R (setup.terminate run status failure output) s r s') :
    ∃ time, Runs R
      (reportToParent (endedRun q status failure output time) status (failure.map Failure.text)
        ((finalOutput? status output).getD []))
      { s with tables := s.tables.putRun (endedRun q status failure output time) } r s' := by
  rw [terminate_eq] at h
  have hrest := (writes_writeRunStatus (answer_updateRunStatus hq hnt status)).next h
  rw [if_pos rfl] at hrest
  obtain ⟨time, hrest⟩ := Runs.of_now hrest
  have hrest := (writes_closing ht hq status failure output time).next hrest
  refine ⟨time, ?_⟩
  rcases runs_bind.1 hrest with ⟨e, h₁, rfl⟩ | ⟨_, s₁, h₁, h₂⟩
  · exact h₁
  · obtain ⟨-, rfl, rfl⟩ := runs_spawn.1 h₂
    exact h₁

end Ended

theorem keeps_fail {status : RunStatus} (ht : status.isTerminal = true) (step reason : String) :
    Keeps R (Standing setup G) (setup.fail run status step reason) := keeps_terminate ht _ _

end Writing

end Engine

end Orchestration
