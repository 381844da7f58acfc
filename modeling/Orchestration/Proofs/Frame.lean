import Orchestration.Proofs.Launching

/-!
# What the start of a run leaves alone

Starting a run puts records into the store under new identifiers and writes to those records only.
So does everything that follows from the start: launching the first step, starting the runs below,
and ending any of them. Whatever was in the store before is there afterwards as it was.

`Beside s₀ s` says that the records of `s` are those of `s₀` with others behind them, which no
identifier of `s₀` names. It is kept by every write to a run or a step that `s₀` does not know, and
that is all that the start of a run consists of (`beside_startWorkflow`). What a launch writes to
its own step therefore stays as it is while the runs below are started.
-/

namespace Orchestration

namespace Engine

open Chain

variable {α : Type} {R : Rule} {setup : Setup} {G : Uid → Prop} {s₀ s s' : Scene}

/-- A scene has the records of an earlier one, and others that the earlier one has no identifiers
for. -/
structure Beside (s₀ s : Scene) : Prop where
  issued : s₀.issued ⊆ s.issued
  runs : ∃ rs, s.tables.runs = s₀.tables.runs ++ rs ∧ ∀ r ∈ rs, r.uid ∉ s₀.issued
  steps : ∃ xs, s.tables.steps = s₀.tables.steps ++ xs ∧
    ∀ x ∈ xs, x.uid ∉ s₀.issued ∧ x.workflowInstanceUid ∉ s₀.issued

theorem Beside.refl (s : Scene) : Beside s s :=
  ⟨List.Subset.refl _, ⟨[], by simp⟩, ⟨[], by simp⟩⟩

/-- Every record of a scene has an identifier that has been given out. -/
structure Named (s : Scene) : Prop where
  keyed : s.tables.Keyed
  runs : ∀ r ∈ s.tables.runs, r.uid ∈ s.issued
  steps : ∀ x ∈ s.tables.steps, x.uid ∈ s.issued

theorem Standing.named (hs : Standing setup G s) : Named s := by
  obtain ⟨ds, hst, -⟩ := hs
  exact ⟨hst.keyed, hst.runsIssued, hst.stepsIssued⟩

/-! ## The records of the earlier scene -/

theorem Beside.run?_eq (h : Beside s₀ s) {u : Uid} (hu : u ∈ s₀.issued) :
    s.tables.run? u = s₀.tables.run? u := by
  obtain ⟨rs, hrs, hnew⟩ := h.runs
  rw [Store.Tables.run?, hrs]
  exact Store.find?_append_of_ne fun r hr hru ↦ hnew r hr (hru ▸ hu)

theorem Beside.step?_eq (h : Beside s₀ s) {u : Uid} (hu : u ∈ s₀.issued) :
    s.tables.step? u = s₀.tables.step? u := by
  obtain ⟨xs, hxs, hnew⟩ := h.steps
  rw [Store.Tables.step?, hxs]
  exact Store.find?_append_of_ne fun x hx hxu ↦ (hnew x hx).1 (hxu ▸ hu)

/-- A step of a run that the earlier scene has no identifier for is itself such a step. -/
theorem Beside.not_issued (h : Beside s₀ s) (h₀ : Named s₀) {x : StepInstance}
    (hx : x ∈ s.tables.steps) (hw : x.workflowInstanceUid ∉ s₀.issued) : x.uid ∉ s₀.issued := by
  obtain ⟨xs, hxs, hnew⟩ := h.steps
  rcases List.mem_append.1 (hxs ▸ hx) with hx | hx
  · obtain ⟨r, hr, hu⟩ := h₀.keyed.owned x hx
    exact absurd (hu ▸ h₀.runs r hr) hw
  · exact (hnew x hx).1

/-! ## Writing to other records -/

section Writing

variable {u : Uid}

/-- Writing over a record that is not among the first ones changes only those behind. -/
private theorem overwrite_behind {ρ : Type} {key : ρ → Uid} {x : ρ} {l l' : List ρ} {p : ρ → Prop}
    (hx : p x) (hl : ∀ y ∈ l, key y ≠ key x) (hl' : ∀ y ∈ l', p y) :
    Store.overwrite key x (l ++ l') = l ++ Store.overwrite key x l' ∧
      ∀ y ∈ Store.overwrite key x l', p y := by
  refine ⟨by rw [Store.overwrite_append, Store.overwrite_of_forall_ne hl], fun y hy ↦ ?_⟩
  rcases Store.mem_overwrite hy with rfl | ⟨hy, -⟩
  · exact hx
  · exact hl' y hy

theorem Beside.onRun (h : Beside s₀ s) (h₀ : Named s₀) (hu : u ∉ s₀.issued) {c : Store.Call}
    (change : WorkflowInstance → α × WorkflowInstance)
    (hans : (s.tables.answer c).2 = (s.tables.onRun u change).2)
    (huid : ∀ r, (change r).2.uid = r.uid) : Beside s₀ (s.afterStore c) := by
  obtain ⟨rs, hrs, hnew⟩ := h.runs
  have hsteps : (s.afterStore c).tables.steps = s.tables.steps := by
    rw [Scene.afterStore, hans]
    exact Store.Tables.steps_onRun u change
  refine ⟨h.issued, ?_, hsteps ▸ h.steps⟩
  show ∃ rs, (s.tables.answer c).2.runs = _ ∧ _
  rw [hans]
  cases hr : s.tables.run? u with
  | none =>
    rw [Store.Tables.onRun_of_none hr]
    exact h.runs
  | some r =>
    obtain ⟨-, rfl⟩ := Store.Tables.mem_of_run? hr
    rw [Store.Tables.onRun_of_some hr, Store.Tables.runs_putRun, hrs]
    refine ⟨_, overwrite_behind (p := fun q : WorkflowInstance ↦ q.uid ∉ s₀.issued) ?_
      (fun q hq hqu ↦ ?_) hnew⟩
    · rw [huid r]
      exact hu
    · exact hu (huid r ▸ hqu ▸ h₀.runs q hq)

theorem Beside.putStep (h : Beside s₀ s) (h₀ : Named s₀) {x : StepInstance}
    (hx : x.uid ∉ s₀.issued ∧ x.workflowInstanceUid ∉ s₀.issued) :
    Beside s₀ { s with tables := s.tables.putStep x } := by
  obtain ⟨xs, hxs, hnew⟩ := h.steps
  refine ⟨h.issued, h.runs, ?_⟩
  rw [Store.Tables.steps_putStep, hxs]
  refine ⟨_, overwrite_behind
    (p := fun y : StepInstance ↦ y.uid ∉ s₀.issued ∧ y.workflowInstanceUid ∉ s₀.issued) hx
    (fun y hy hyu ↦ ?_) hnew⟩
  exact hx.1 (hyu ▸ h₀.steps y hy)

theorem Beside.onStep (h : Beside s₀ s) (h₀ : Named s₀) (hu : u ∉ s₀.issued) {c : Store.Call}
    (change : StepInstance → α × StepInstance)
    (hans : (s.tables.answer c).2 = (s.tables.onStep u change).2)
    (hsame : ∀ x, SameStep x (change x).2) : Beside s₀ (s.afterStore c) := by
  have htables : Beside s₀ { s with tables := (s.tables.onStep u change).2 } := by
    cases hx : s.tables.step? u with
    | none =>
      rw [Store.Tables.onStep_of_none hx]
      exact h
    | some x =>
      rw [Store.Tables.onStep_of_some hx]
      obtain ⟨hmem, rfl⟩ := Store.Tables.mem_of_step? hx
      refine h.putStep h₀ ⟨?_, ?_⟩
      · rw [(hsame x).uid]
        exact hu
      · rw [(hsame x).run]
        obtain ⟨xs, hxs, hnew⟩ := h.steps
        rcases List.mem_append.1 (hxs ▸ hmem) with hmem | hmem
        · exact absurd (h₀.steps x hmem) hu
        · exact (hnew x hmem).2
  rw [← hans] at htables
  exact ⟨htables.issued, htables.runs, htables.steps⟩

theorem Beside.insertStep (h : Beside s₀ s) (h₀ : Named s₀) {x : StepInstance}
    (hx : x.uid ∉ s₀.issued ∧ x.workflowInstanceUid ∉ s₀.issued) :
    Beside s₀ { s with tables := s.tables.insertStep x } := by
  unfold Store.Tables.insertStep
  split
  · exact h.putStep h₀ hx
  · obtain ⟨xs, hxs, hnew⟩ := h.steps
    refine ⟨h.issued, h.runs, xs ++ [x], ?_, fun y hy ↦ ?_⟩
    · rw [hxs, List.append_assoc]
    · rcases List.mem_append.1 hy with hy | hy
      · exact hnew y hy
      · exact List.mem_singleton.1 hy ▸ hx

theorem Beside.insertRun (h : Beside s₀ s) (h₀ : Named s₀) {run : WorkflowInstance}
    {steps : List StepInstance} (hr : run.uid ∉ s₀.issued)
    (hx : ∀ x ∈ steps, x.uid ∉ s₀.issued ∧ x.workflowInstanceUid ∉ s₀.issued) :
    Beside s₀ (s.afterStore (.insertRun run steps)) := by
  have hfold : ∀ {t : Scene}, Beside s₀ t →
      Beside s₀ { t with tables := steps.foldl Store.Tables.insertStep t.tables } := by
    induction steps with
    | nil => exact fun ht ↦ ht
    | cons x rest ih =>
      intro t ht
      exact ih (fun y hy ↦ hx y (List.mem_cons_of_mem _ hy))
        (ht.insertStep h₀ (hx x List.mem_cons_self))
  have htables : Beside s₀ { s with tables := (s.tables.answer (.insertRun run steps)).2 } := by
    rw [Store.Tables.answer]
    split
    · exact h
    · refine @hfold { s with tables := { s.tables with runs := s.tables.runs ++ [run] } } ?_
      obtain ⟨rs, hrs, hnew⟩ := h.runs
      refine ⟨h.issued, ⟨rs ++ [run], ?_, fun r hr' ↦ ?_⟩, h.steps⟩
      · rw [hrs, List.append_assoc]
      · rcases List.mem_append.1 hr' with hr' | hr'
        · exact hnew r hr'
        · exact List.mem_singleton.1 hr' ▸ hr
  exact ⟨htables.issued, htables.runs, htables.steps⟩

end Writing

/-! ## Sending off -/

section Sending

variable {I : Scene → Prop} (hI : ∀ s, I s → ∀ p accepted, I (s.send p accepted))

include hI

/-- What does not depend on the parcels that were sent off is kept when one is. -/
theorem keeps_publish_of (channel : Channel) (document : Json) :
    Keeps R I (Action.publish channel document) := by
  intro s r s' hs h
  obtain ⟨-, rfl⟩ := runs_publish.1 h
  unfold Scene.publish
  split
  · exact hs
  · exact hI s hs _ _

theorem keeps_send_of (x : StepInstance) (input : Json.Object) (f : FunctionInfo) :
    Keeps R I (setup.send x input f) := by
  have hpost : ∀ address document, Keeps R I (Action.post address document) := by
    intro address document s r s' hs h
    obtain ⟨-, rfl⟩ := runs_post.1 h
    exact hI s hs _ _
  have hpush : Keeps R I (setup.push x input f) := by
    unfold Setup.push
    split
    · exact (Still.throw _).keeps
    · exact .bind (hpost _ _) fun _ ↦ .ite (Still.pure _).keeps (Still.throw _).keeps
  have hover : Keeps R I (setup.handOver x input f) := by
    unfold Setup.handOver
    split
    · exact keeps_publish_of hI _ _
    · exact hpush
  refine .bind (.attempt hover) fun o ↦ ?_
  split
  · exact (Still.pure _).keeps
  · exact keeps_publish_of hI _ _

end Sending

/-! ## Ending and launching -/

variable {run : Uid}

theorem beside_onRun (h₀ : Named s₀) (hu : run ∉ s₀.issued) {c : Store.Call}
    (change : WorkflowInstance → α × WorkflowInstance)
    (hans : ∀ t : Store.Tables, (t.answer c).2 = (t.onRun run change).2)
    (huid : ∀ r, (change r).2.uid = r.uid) : Keeps R (Beside s₀) (Action.store c) :=
  .store fun s hs _ ↦ hs.onRun h₀ hu change (hans s.tables) huid

theorem beside_send_parcel (hs : Beside s₀ s) (p : Parcel) (accepted : Bool) :
    Beside s₀ (s.send p accepted) := ⟨hs.issued, hs.runs, hs.steps⟩

theorem beside_writeRunStatus (h₀ : Named s₀) (hu : run ∉ s₀.issued) (status : RunStatus)
    (expected : Option RunStatus) :
    Keeps R (Beside s₀) (writeRunStatus run status expected) := by
  intro s r s' hs h
  rw [(runs_writeRunStatus h).1]
  exact hs.onRun h₀ hu _ rfl (withStatus_uid status expected)

theorem beside_terminate (h₀ : Named s₀) (hu : run ∉ s₀.issued) (status : RunStatus)
    (failure : Option Failure) (output : Option Json.Object) :
    Keeps R (Beside s₀) (setup.terminate run status failure output) :=
  keeps_terminate_of (beside_writeRunStatus h₀ hu status none)
    (fun _ ↦ beside_onRun h₀ hu _ (fun _ ↦ rfl) fun _ ↦ rfl)
    (fun _ ↦ beside_onRun h₀ hu _ (fun _ ↦ rfl) fun _ ↦ rfl)
    (fun _ ↦ beside_onRun h₀ hu _ (fun _ ↦ rfl) fun _ ↦ rfl)
    (fun _ ↦ keeps_publish_of (fun _ hs ↦ beside_send_parcel hs) _ _) _ _

/-! ### Launching -/

variable {startChild : StartChild} {step : StepInstance}

/-- Whatever starts the run of a sub-workflow leaves the earlier records alone. -/
def ChildBeside (R : Rule) (s₀ : Scene) (startChild : StartChild) : Prop :=
  ∀ workflow input parent parentStep,
    Keeps R (Beside s₀) (startChild workflow input parent parentStep)

theorem beside_launchAttempt (h₀ : Named s₀) (hu : step.uid ∉ s₀.issued) (input : Json.Object) :
    Keeps R (Beside s₀) (launchAttempt step input) :=
  .bind Still.now.keeps fun time ↦
    .bind (.store fun _ hs _ ↦ hs.onStep h₀ hu
      (fun x ↦ ((), Store.Tables.launched input time x)) rfl fun _ ↦ ⟨rfl, rfl, rfl, rfl, rfl⟩)
      fun _ ↦ .bind (still_announceStep _ _).keeps fun _ ↦ (still_readStep _).keeps

theorem beside_dispatchFunction (h₀ : Named s₀) (hu : step.uid ∉ s₀.issued) (input : Json.Object)
    (function : Uid) : Keeps R (Beside s₀) (setup.dispatchFunction step input function) :=
  .bind (Still.getFunction _).keeps fun f ↦
    .bind (beside_launchAttempt h₀ hu input) fun x ↦
      keeps_send_of (fun _ hs ↦ beside_send_parcel hs) x input f

theorem beside_startSubWorkflow (h₀ : Named s₀) (hc : ChildBeside R s₀ startChild)
    (hu : step.uid ∉ s₀.issued) (input : Json.Object) (workflow : Uid) :
    Keeps R (Beside s₀) (Setup.startSubWorkflow startChild step input workflow) :=
  .bind (beside_launchAttempt h₀ hu input) fun _ ↦ hc _ _ _ _

theorem beside_tryLaunch (h₀ : Named s₀) (hc : ChildBeside R s₀ startChild)
    (hu : step.uid ∉ s₀.issued) : Keeps R (Beside s₀) (setup.tryLaunch startChild step) := by
  refine .bind (reads_normalize _ _ _).still.keeps fun input ↦ ?_
  split
  · exact beside_dispatchFunction h₀ hu input _
  · exact beside_dispatchFunction h₀ hu input _
  · exact beside_startSubWorkflow h₀ hc hu input _
  · refine .bind (reads_evaluateSwitch _ _).still.keeps fun value ↦
      .bind (Still.ofExcept _).keeps fun choice ↦
        .bind (.store fun _ hs _ ↦ hs.onStep h₀ hu
          (fun x ↦ ((), { x with selectedCaseName := some choice.1 })) rfl
          fun _ ↦ ⟨rfl, rfl, rfl, rfl, rfl⟩) fun _ ↦ ?_
    split
    · exact beside_dispatchFunction h₀ hu input _
    · exact beside_startSubWorkflow h₀ hc hu input _

theorem beside_launch (h₀ : Named s₀) (hc : ChildBeside R s₀ startChild)
    (hu : step.uid ∉ s₀.issued) (hw : step.workflowInstanceUid ∉ s₀.issued) :
    Keeps R (Beside s₀) (setup.launch startChild step) := by
  refine .bind (.attempt (beside_tryLaunch h₀ hc hu)) fun o ↦ ?_
  split
  · exact (Still.pure _).keeps
  · exact .ite (beside_terminate h₀ hw _ _ _) (Still.throw _).keeps

/-! ## Starting -/

theorem beside_prepareFunctions (h₀ : Named s₀) (hc : ChildBeside R s₀ startChild)
    (hr : run ∉ s₀.issued) (hu : step.uid ∉ s₀.issued) (hw : step.workflowInstanceUid ∉ s₀.issued)
    (steps : List StepDefinition) :
    Keeps R (Beside s₀) (setup.prepareFunctions startChild run steps step) := by
  refine .bind (still_lookUpFunctions _).keeps fun found ↦ ?_
  split
  · exact beside_terminate h₀ hr _ _ _
  · split
    · exact beside_terminate h₀ hr _ _ _
    · exact .ite
        (.bind (beside_writeRunStatus h₀ hr _ _) fun _ ↦ beside_launch h₀ hc hu hw)
        (.bind (still_requestDeployments _).keeps fun _ ↦
          .bind (beside_writeRunStatus h₀ hr _ _) fun _ ↦ (Still.spawn _).keeps)

theorem runs_generate_beside (h₀ : Named s₀) {definition : WorkflowDefinition}
    {steps : List StepDefinition} {input : Json.Object} {parent parentStep : Option Uid}
    {r : Except EngineError (WorkflowInstance × List StepInstance)} (hs : Beside s₀ s)
    (h : Runs R (generate definition steps input parent parentStep) s r s') :
    Beside s₀ s' ∧ ∀ m, r = .ok m → m.1.uid ∉ s₀.issued := by
  rcases runs_generate_cases h with ⟨-, rfl, rfl⟩ | ⟨run, uids, time, instances, new, -, hlen, -,
    hrun, hfresh, hinst, hnew, -, rfl, hr⟩
  · exact ⟨hs, fun m hm ↦ nomatch hm⟩
  have huid : new.uid = run := by rw [hnew]; rfl
  have hrun₀ : run ∉ s₀.issued := fun hi ↦ hrun (hs.issued hi)
  have hmap : instances.map (·.uid) = uids := hinst ▸ map_uid_buildStepInstances run input hlen
  refine ⟨?_, fun m hm ↦ ?_⟩
  · have hissued : s₀.issued ⊆ (s.issue run).issued ++ uids := fun u hu ↦
      List.mem_append_left _ (List.mem_append_left _ (hs.issued hu))
    have hs₁ : Beside s₀ { s.issue run with issued := (s.issue run).issued ++ uids } :=
      ⟨hissued, hs.runs, hs.steps⟩
    refine hs₁.insertRun h₀ (huid ▸ hrun₀) fun x hx ↦ ⟨fun hi ↦ ?_, ?_⟩
    · exact hfresh x.uid (hmap ▸ List.mem_map_of_mem hx) (List.mem_append_left _ (hs.issued hi))
    · rw [(of_mem_buildStepInstances run input hlen (hinst ▸ hx)).2.1]
      exact hrun₀
  · cases hans : (s.tables.answer (.insertRun new instances)).1 with
    | error e =>
      rw [hans] at hr
      cases hr.symm.trans hm
    | ok v =>
      rw [hans] at hr
      obtain rfl := Except.ok.inj (hr.symm.trans hm)
      exact huid ▸ hrun₀

theorem beside_startRun (h₀ : Named s₀) (hc : ChildBeside R s₀ startChild) (hr : run ∉ s₀.issued)
    (definition : WorkflowDefinition) (steps : List StepDefinition) :
    Keeps R (Beside s₀) (setup.startRun startChild run definition steps) := by
  have hstate : Keeps R (Beside s₀) (state run) := (still_state run).keeps
  refine .bind (.bind Still.now.keeps fun time ↦
    beside_onRun h₀ hr (fun r ↦ ((), { r with startTime := some time })) (fun _ ↦ rfl)
      fun _ ↦ rfl) fun _ ↦ ?_
  intro s r s' hs h
  rcases runs_bind.1 h with ⟨e, h₁, -⟩ | ⟨o, s₁, h₁, hrest⟩
  · rw [Still.attempt (still_firstStep run) h₁]
    exact hs
  obtain ⟨o', hfirst, ho⟩ := runs_attempt.1 h₁
  obtain rfl := Except.ok.inj ho
  rw [still_firstStep run hfirst] at hrest hfirst
  cases o with
  | error e =>
    exact Keeps.ite (.bind (beside_terminate h₀ hr _ _ _) fun _ ↦ hstate)
      (.bind (Still.throw _).keeps fun _ ↦ hstate) hs hrest
  | ok x =>
    obtain ⟨hx, rfl⟩ := Store.Tables.mem_chainOf.1 (runs_firstStep hfirst).1
    have hu := hs.not_issued h₀ hx hr
    refine Keeps.ite ?_ ?_ hs hrest
    · exact .bind (beside_writeRunStatus h₀ hr _ _) fun _ ↦
        .bind (beside_launch h₀ hc hu hr) fun _ ↦ hstate
    · exact .bind (beside_prepareFunctions h₀ hc hr hu hr steps) fun _ ↦ hstate

theorem beside_startWith (h₀ : Named s₀) (hc : ChildBeside R s₀ startChild) (workflow : Uid)
    (input : Json.Object) (parent parentStep : Option Uid) :
    Keeps R (Beside s₀) (setup.startWith startChild workflow input parent parentStep) := by
  refine .bind (Still.getWorkflow _).keeps fun definition ↦
    .bind (still_stepsOf definition workflow).keeps fun steps ↦ ?_
  intro s r s' hs h
  rcases runs_bind.1 h with ⟨e, h₁, -⟩ | ⟨m, s₁, h₁, hstart⟩
  · exact (runs_generate_beside h₀ hs h₁).1
  · obtain ⟨hs₁, hm⟩ := runs_generate_beside h₀ hs h₁
    exact beside_startRun h₀ hc (hm m rfl) definition steps hs₁ hstart

/-- **Starting a run leaves the records alone that were there before.** -/
theorem beside_startNested (h₀ : Named s₀) (depth : Nat) (workflow : Uid) (input : Json.Object)
    (parent parentStep : Option Uid) :
    Keeps R (Beside s₀) (setup.startNested depth workflow input parent parentStep) := by
  induction depth generalizing workflow input parent parentStep with
  | zero => exact (Still.throw _).keeps
  | succ depth ih =>
    exact beside_startWith h₀ (fun w i p ps ↦ .bind (ih w i (some p) (some ps)) fun _ ↦
      (Still.pure _).keeps) workflow input parent parentStep

end Engine

end Orchestration
