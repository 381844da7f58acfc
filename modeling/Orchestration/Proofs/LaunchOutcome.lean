import Orchestration.Proofs.Frame

/-!
# What comes of a launch

A launch ends in one of four ways. The input of the step, or the value that a decision falls by, may
have no value for a reason that does not prevent the launch: then nothing has happened
(`LaunchStalls`). The catalog of functions may fail: then the step is not in an attempt, and the
launch fails with the error of the catalog (`LooksUpInVain`). The launch may be prevented: then the
run has failed. Otherwise the step is in an attempt, whatever becomes of the attempt.
-/

namespace Orchestration

namespace Engine

variable {R : Rule} {setup : Setup} {G : Uid → Prop} {s s' : Scene}
variable {startChild : StartChild} {step x : StepInstance} {r : Except EngineError Unit}

/-! ## An attempt -/

theorem Named.putStep (hs : Named s) {u : Uid} {y : StepInstance} (hx : s.tables.step? u = some x)
    (hu : y.uid = x.uid) (hw : y.workflowInstanceUid = x.workflowInstanceUid) :
    Named { s with tables := s.tables.putStep y } := by
  obtain ⟨hmem, -⟩ := Store.Tables.mem_of_step? hx
  refine ⟨hs.keyed.putStep hmem hw, hs.runs, fun z hz ↦ ?_⟩
  rcases Store.mem_overwrite hz with rfl | ⟨hz, -⟩
  · exact hu ▸ hs.steps x hmem
  · exact hs.steps z hz

theorem writes_onStep {t : Store.Tables} {c : Store.Call} {u : Uid}
    {g : StepInstance → c.Value × StepInstance} (hx : t.step? u = some x)
    (hmade : Scene.madeBy c = []) (hans : t.answer c = t.onStep u g) :
    Writes t (Action.store c) (g x).1 (t.putStep (g x).2) := by
  have hput := hans.trans (Store.Tables.onStep_of_some hx g)
  have hstore := Writes.store (t := t) (c := c) (x := (g x).1) (by rw [hput]) hmade
  rw [hput] at hstore
  exact hstore

theorem writes_setSelectedCase {t : Store.Tables} {u : Uid} (hx : t.step? u = some x)
    (name : String) : Writes t (Action.store (.setSelectedCase u name)) ()
      (t.putStep { x with selectedCaseName := some name }) :=
  writes_onStep (c := .setSelectedCase u name)
    (g := fun y ↦ ((), { y with selectedCaseName := some name })) hx rfl rfl

theorem writes_launchStep {t : Store.Tables} {u : Uid} (hx : t.step? u = some x)
    (input : Json.Object) (time : Instant) : Writes t (Action.store (.launchStep u input time)) ()
      (t.putStep (Store.Tables.launched input time x)) :=
  writes_onStep (c := .launchStep u input time)
    (g := fun y ↦ ((), Store.Tables.launched input time y)) hx rfl rfl

theorem runs_launchAttempt_eq {input : Json.Object} {r : Except EngineError StepInstance}
    (ht : s.tables.Keyed) (hx : s.tables.step? step.uid = some x)
    (h : Runs R (launchAttempt step input) s r s') :
    ∃ time, r = .ok (Store.Tables.launched input time x) ∧
      s' = { s with tables := s.tables.putStep (Store.Tables.launched input time x) } := by
  obtain ⟨-, hxu⟩ := Store.Tables.mem_of_step? hx
  obtain ⟨time, h⟩ := Runs.of_now h
  have hread : Finds (s.tables.putStep (Store.Tables.launched input time x)) (readStep step.uid)
      (.ok (Store.Tables.launched input time x)) := by
    exact finds_readStep (ht.step?_putStep hx hxu rfl)
  rcases runs_bind.1 ((writes_launchStep hx input time).next h) with ⟨e, h₁, -⟩ | ⟨_, s₁, h₁, h₂⟩
  · cases runs_announce h₁
  · rw [still_announceStep _ _ h₁] at h₂
    obtain ⟨rfl, rfl⟩ := hread.of_runs h₂
    exact ⟨time, rfl, rfl⟩

/-- A step is in an attempt. -/
def IsRunning (t : Store.Tables) (u : Uid) : Prop :=
  ∃ y, t.step? u = some y ∧ y.runStatus = .running

theorem isRunning_launchAttempt {input : Json.Object} {r : Except EngineError StepInstance}
    (hs : Named s) (hx : s.tables.step? step.uid = some x)
    (h : Runs R (launchAttempt step input) s r s') :
    IsRunning s'.tables step.uid ∧ s'.tables.runs = s.tables.runs ∧ s'.issued = s.issued ∧
      Named s' := by
  obtain ⟨-, hxu⟩ := Store.Tables.mem_of_step? hx
  obtain ⟨time, -, rfl⟩ := runs_launchAttempt_eq hs.keyed hx h
  exact ⟨⟨Store.Tables.launched input time x, hs.keyed.step?_putStep hx hxu rfl, rfl⟩, rfl, rfl,
    hs.putStep hx rfl rfl⟩

theorem tables_send {input : Json.Object} {f : FunctionInfo}
    (h : Runs R (setup.send x input f) s r s') : s'.tables = s.tables :=
  keeps_send_of (I := fun s₁ ↦ s₁.tables = s.tables) (fun _ hs _ _ ↦ hs) x input f rfl h

/-! ## A launch -/

/-- A launch comes to nothing: the input of the step, or the value that its decision falls by, has
no value for a reason that does not prevent the launch. -/
inductive LaunchStalls (t : Store.Tables) (step : StepInstance) : Prop where
  | input (e : EngineError) (he : Setup.preventsLaunch e = false)
      (h : Finds t (normalize step.inputData step.workflowInstanceUid (some step)) (.error e))
  | decision (input : Json.Object) (expression : String) (cases : Dict CaseTarget) (e : EngineError)
      (he : Setup.preventsLaunch e = false)
      (hinput : Finds t (normalize step.inputData step.workflowInstanceUid (some step)) (.ok input))
      (hshape : step.shape = .switch expression cases)
      (h : Finds t (evaluateSwitch step expression) (.error e))

/-- A run has come to its end. -/
def IsEnded (t : Store.Tables) (u : Uid) : Prop :=
  ∃ q, t.run? u = some q ∧ q.runStatus.isTerminal = true

/-- A run that is in the store has come to its end when it has been ended. -/
theorem isEnded_of_terminate {run : Uid} {status : RunStatus} {failure : Option Failure}
    {output : Option Json.Object} (ht : s.tables.Keyed) (hrun : ∃ q, s.tables.run? run = some q)
    (hstatus : status.isTerminal = true)
    (h : Runs R (setup.terminate run status failure output) s r s') : IsEnded s'.tables run := by
  obtain ⟨q, hq⟩ := hrun
  obtain ⟨-, hqu⟩ := Store.Tables.mem_of_run? hq
  by_cases hend : q.runStatus.isTerminal = true
  · have hrefused : s.tables.answer (.updateRunStatus run status none) =
        (.ok false, s.tables.putRun q) := by
      show s.tables.onRun run (Store.Tables.withStatus status none) = _
      rw [Store.Tables.onRun_of_some hq, Store.Tables.withStatus, if_pos (by simp [hend])]
    have hrest := (writes_writeRunStatus hrefused).next h
    rw [if_neg (by simp)] at hrest
    rw [(runs_pure.1 hrest).2]
    exact ⟨q, ht.run?_putRun hq hqu, hend⟩
  · obtain ⟨time, hreport⟩ := runs_terminate ht hq (by simpa using hend) h
    have htables := keeps_reportToParent_of
      (I := fun s₁ ↦ s₁.tables = s.tables.putRun (endedRun q status failure output time))
      (fun _ ↦ keeps_publish_of (fun _ hs _ _ ↦ hs) _ _) _ _ _ _ rfl hreport
    exact ⟨endedRun q status failure output time, htables ▸ ht.run?_putRun hq hqu, hstatus⟩

/-- An error is what the catalog of functions answers. -/
def LooksUpInVain (R : Rule) (e : EngineError) : Prop := ∃ f, R (.getFunction f) (.error e)

/-- Either a launch is prevented or meets a failure of the catalog, or the step is in an attempt.
The run of the step is as it was. -/
structure Tried (R : Rule) (s : Scene) (u run : Uid) (o : Except EngineError Unit) (s' : Scene) :
    Prop where
  run : s'.tables.run? run = s.tables.run? run
  outcome : (∃ e, o = .error e ∧ (Setup.preventsLaunch e = true ∨ LooksUpInVain R e)) ∨
    IsRunning s'.tables u

theorem tried_dispatchFunction {input : Json.Object} {f run : Uid}
    (hs : Named s) (hx : s.tables.step? step.uid = some x)
    (h : Runs R (setup.dispatchFunction step input f) s r s') : Tried R s step.uid run r s' := by
  rcases runs_bind.1 h with ⟨e, h₁, rfl⟩ | ⟨info, s₁, h₁, hrest⟩
  · obtain ⟨he, rfl⟩ := runs_getFunction.1 h₁
    exact ⟨rfl, .inl ⟨e, rfl, .inr ⟨f, he⟩⟩⟩
  obtain ⟨-, rfl⟩ := runs_getFunction.1 h₁
  rcases runs_bind.1 hrest with ⟨e, h₂, -⟩ | ⟨y, s₂, h₂, hsend⟩
  · obtain ⟨_, he, -⟩ := runs_launchAttempt_eq hs.keyed hx h₂
    cases he
  obtain ⟨hrunning, hruns, -⟩ := isRunning_launchAttempt hs hx h₂
  rw [← tables_send hsend] at hrunning hruns
  exact ⟨by rw [Store.Tables.run?, hruns]; rfl, .inr hrunning⟩

theorem tried_startSubWorkflow {input : Json.Object} {w run : Uid}
    (hc : ∀ s₀, Named s₀ → ChildBeside R s₀ startChild) (hs : Named s)
    (hx : s.tables.step? step.uid = some x) (hrun : run ∈ s.issued)
    (h : Runs R (Setup.startSubWorkflow startChild step input w) s r s') :
    Tried R s step.uid run r s' := by
  rcases runs_bind.1 h with ⟨e, h₁, -⟩ | ⟨y, s₁, h₁, hchild⟩
  · obtain ⟨_, he, -⟩ := runs_launchAttempt_eq hs.keyed hx h₁
    cases he
  obtain ⟨⟨y, hy, hrunning⟩, hruns, hissued, hs₁⟩ := isRunning_launchAttempt hs hx h₁
  have hbeside := hc s₁ hs₁ _ _ _ _ (Beside.refl s₁) hchild
  refine ⟨?_, .inr ⟨y, ?_, hrunning⟩⟩
  · rw [hbeside.run?_eq (hissued ▸ hrun)]
    rw [Store.Tables.run?, hruns]
    rfl
  · obtain ⟨hmem, hu⟩ := Store.Tables.mem_of_step? hy
    rw [hbeside.step?_eq (hu ▸ hs₁.steps y hmem)]
    exact hy

theorem preventsLaunch_of_chooseCase {cases : Dict CaseTarget} {value : String} {e : EngineError}
    (h : chooseCase cases value = .error e) : Setup.preventsLaunch e = true := by
  unfold chooseCase at h
  split at h
  · cases h
  · split at h
    · cases h
    · obtain rfl := Except.error.inj h
      rfl

theorem Tried.of_eq {s₁ : Scene} {u run : Uid} (h : Tried R s₁ u run r s')
    (hruns : s₁.tables.runs = s.tables.runs) : Tried R s u run r s' := by
  refine ⟨h.run.trans ?_, h.outcome⟩
  rw [Store.Tables.run?, hruns]
  rfl

/-- What is tried at a launch stalls, is prevented, meets a failure of the catalog, or brings the
step into an attempt. -/
theorem tried_tryLaunch {run : Uid}
    (hc : ∀ s₀, Named s₀ → ChildBeside R s₀ startChild) (hs : Named s)
    (hx : s.tables.step? step.uid = some x) (hrun : run ∈ s.issued)
    (h : Runs R (setup.tryLaunch startChild step) s r s') :
    (LaunchStalls s.tables step ∧ s' = s ∧ ∃ e, r = .error e ∧ Setup.preventsLaunch e = false) ∨
      Tried R s step.uid run r s' := by
  have hstall : ∀ {e}, (Setup.preventsLaunch e = false → LaunchStalls s.tables step) →
      (LaunchStalls s.tables step ∧ s = s ∧
        ∃ e', (Except.error e : Except EngineError Unit) = .error e' ∧
          Setup.preventsLaunch e' = false) ∨ Tried R s step.uid run (.error e) s := by
    intro e he
    cases hp : Setup.preventsLaunch e with
    | true => exact .inr ⟨rfl, .inl ⟨e, rfl, .inl hp⟩⟩
    | false => exact .inl ⟨he hp, rfl, e, rfl, hp⟩
  obtain ⟨o, hinput⟩ := reads_normalize step.inputData step.workflowInstanceUid (some step) s.tables
  cases o with
  | error e =>
    obtain ⟨rfl, rfl⟩ := hinput.fails h
    exact hstall fun hp ↦ .input e hp hinput
  | ok input =>
    have hrest := hinput.next h
    cases hshape : step.shape with
    | simple f | doWhile f _ =>
      rw [hshape] at hrest
      exact .inr (tried_dispatchFunction hs hx hrest)
    | subWorkflow w =>
      rw [hshape] at hrest
      exact .inr (tried_startSubWorkflow hc hs hx hrun hrest)
    | switch expression cases =>
      rw [hshape] at hrest
      obtain ⟨o, hvalue⟩ := reads_evaluateSwitch step expression s.tables
      cases o with
      | error e =>
        obtain ⟨rfl, rfl⟩ := hvalue.fails hrest
        exact hstall fun hp ↦ .decision input expression cases e hp hinput hshape hvalue
      | ok value =>
        have hrest := hvalue.next hrest
        cases hchoice : chooseCase cases value with
        | error e =>
          obtain ⟨rfl, rfl⟩ := (finds_ofExcept.2 hchoice.symm).fails hrest
          exact .inr ⟨rfl, .inl ⟨e, rfl, .inl (preventsLaunch_of_chooseCase hchoice)⟩⟩
        | ok choice =>
          have hrest := (finds_ofExcept.2 hchoice.symm).next hrest
          obtain ⟨name, target⟩ := choice
          -- The case is noted before the attempt begins.
          have hnoted := writes_setSelectedCase hx name
          have hs₁ : Named { s with
              tables := s.tables.putStep { x with selectedCaseName := some name } } :=
                hs.putStep hx rfl rfl
          have hx₁ : (s.tables.putStep { x with selectedCaseName := some name }).step? step.uid =
              some { x with selectedCaseName := some name } :=
            hs.keyed.step?_putStep hx (Store.Tables.mem_of_step? hx).2 rfl
          cases target with
          | function f =>
            exact .inr ((tried_dispatchFunction hs₁ hx₁ (hnoted.next hrest)).of_eq rfl)
          | subWorkflow w =>
            exact .inr ((tried_startSubWorkflow hc hs₁ hx₁ hrun (hnoted.next hrest)).of_eq rfl)

/-- Whatever starts runs for a launched step leaves the earlier records alone. -/
theorem childBeside_startWorkflow (s₀ : Scene) (h₀ : Named s₀) :
    ChildBeside R s₀ (fun workflow input parent parentStep ↦ do
      let _ ← setup.startWorkflow workflow input (some parent) (some parentStep)) :=
  fun w i p ps ↦ .bind (beside_startNested h₀ _ w i (some p) (some ps)) fun _ ↦ (Still.pure _).keeps

/-- A launch is tried, and then settled by what has come of that. -/
theorem runs_launchStep_parts (hs : Standing setup (fun _ ↦ False) s)
    (hx : s.tables.step? step.uid = some x)
    (hrun : ∃ q, s.tables.run? step.workflowInstanceUid = some q)
    (h : Runs R (setup.launchStep step) s r s') :
    ∃ o s₁, s₁.tables.Keyed ∧ Runs R (setup.settle step o) s₁ r s' ∧
      ((LaunchStalls s.tables step ∧ s₁ = s ∧
          ∃ e, o = .error e ∧ Setup.preventsLaunch e = false) ∨
        Tried R s step.uid step.workflowInstanceUid o s₁) := by
  obtain ⟨o, s₁, htry, hrest⟩ := runs_launch_iff.1 h
  have hissued : step.workflowInstanceUid ∈ s.issued := by
    obtain ⟨q, hq⟩ := hrun
    obtain ⟨hmem, hqu⟩ := Store.Tables.mem_of_run? hq
    exact hqu ▸ hs.named.runs q hmem
  have hs₁ : Standing setup (fun _ ↦ False) s₁ :=
    runs_tryLaunch (fun w i p ps ↦ .bind
      (keeps_startWorkflow (fun _ _ _ _ hG ↦ hG.elim) w i (some p) (some ps)) fun _ ↦
      (Still.pure _).keeps) hs (fun _ _ _ hG ↦ hG.elim) htry
  exact ⟨o, s₁, hs₁.named.keyed, hrest,
    tried_tryLaunch childBeside_startWorkflow hs.named hx hissued htry⟩

theorem run_launchStep (hs : Standing setup (fun _ ↦ False) s)
    (hx : s.tables.step? step.uid = some x)
    (hrun : ∃ q, s.tables.run? step.workflowInstanceUid = some q)
    (h : Runs R (setup.launchStep step) s r s') :
    s'.tables.run? step.workflowInstanceUid = s.tables.run? step.workflowInstanceUid ∨
      IsEnded s'.tables step.workflowInstanceUid := by
  obtain ⟨o, s₁, ht₁, hrest, htried⟩ := runs_launchStep_parts hs hx hrun h
  have hsame : s₁.tables.run? step.workflowInstanceUid =
      s.tables.run? step.workflowInstanceUid := by
    rcases htried with ⟨-, rfl, -⟩ | htried
    · rfl
    · exact htried.run
  cases o with
  | ok _ =>
    rw [(runs_pure.1 hrest).2]
    exact .inl hsame
  | error e =>
    cases hp : Setup.preventsLaunch e with
    | true =>
      rw [settle_of_preventsLaunch hp] at hrest
      exact .inr (isEnded_of_terminate ht₁ (hsame ▸ hrun) rfl hrest)
    | false =>
      rw [settle_of_not_preventsLaunch hp] at hrest
      rw [(runs_throw.1 hrest).2]
      exact .inl hsame

/-- **A launch stalls, meets a failure of the catalog, brings the step into an attempt and leaves
the run as it is, or ends the run.** -/
theorem launchStep_cases (hs : Standing setup (fun _ ↦ False) s)
    (hx : s.tables.step? step.uid = some x)
    (hrun : ∃ q, s.tables.run? step.workflowInstanceUid = some q)
    (h : Runs R (setup.launchStep step) s r s') :
    (∃ e, r = .error e ∧ Setup.preventsLaunch e = false ∧
      (LaunchStalls s.tables step ∧ s' = s ∨ LooksUpInVain R e)) ∨
      (IsRunning s'.tables step.uid ∧
        s'.tables.run? step.workflowInstanceUid = s.tables.run? step.workflowInstanceUid) ∨
      IsEnded s'.tables step.workflowInstanceUid := by
  obtain ⟨o, s₁, ht₁, hrest, ⟨hstalls, rfl, e, rfl, hp⟩ | htried⟩ :=
    runs_launchStep_parts hs hx hrun h
  · rw [settle_of_not_preventsLaunch hp] at hrest
    obtain ⟨rfl, rfl⟩ := runs_throw.1 hrest
    exact .inl ⟨e, rfl, hp, .inl ⟨hstalls, rfl⟩⟩
  have hsame := htried.run
  rw [← hsame] at hrun
  cases o with
  | ok _ =>
    obtain ⟨e, he, -⟩ | hrunning := htried.outcome
    · cases he
    · rw [(runs_pure.1 hrest).2]
      exact .inr (.inl ⟨hrunning, hsame⟩)
  | error e =>
    cases hp : Setup.preventsLaunch e with
    | true =>
      rw [settle_of_preventsLaunch hp] at hrest
      exact .inr (.inr (isEnded_of_terminate ht₁ hrun rfl hrest))
    | false =>
      rw [settle_of_not_preventsLaunch hp] at hrest
      obtain ⟨rfl, rfl⟩ := runs_throw.1 hrest
      obtain ⟨e', he, hp' | hvain⟩ | hrunning := htried.outcome
      · rw [← Except.error.inj he, hp] at hp'
        cases hp'
      · exact .inl ⟨e, rfl, hp, .inr (Except.error.inj he ▸ hvain)⟩
      · exact .inr (.inl ⟨hrunning, hsame⟩)

/-- As long as no call fails, a launch stalls, or brings the step into an attempt and leaves the run
as it is, or ends the run. -/
theorem outcome_launchStep (hs : Standing setup (fun _ ↦ False) s)
    (hR : ∀ f a, R (.getFunction f) a → ∀ e, a = .error e → e.kind = .notFound)
    (hx : s.tables.step? step.uid = some x)
    (hrun : ∃ q, s.tables.run? step.workflowInstanceUid = some q)
    (h : Runs R (setup.launchStep step) s r s') :
    (LaunchStalls s.tables step ∧ s' = s) ∨
      (IsRunning s'.tables step.uid ∧
        s'.tables.run? step.workflowInstanceUid = s.tables.run? step.workflowInstanceUid) ∨
      IsEnded s'.tables step.workflowInstanceUid := by
  rcases launchStep_cases hs hx hrun h with ⟨e, rfl, hp, hstalls | ⟨f, hf⟩⟩ | hgone
  · exact .inl hstalls
  · simp [Setup.preventsLaunch, hR f _ hf e rfl] at hp
  · exact .inr hgone

theorem LaunchStalls.runs_launch (hstalls : LaunchStalls s.tables step)
    (h : Runs R (setup.launch startChild step) s r s') : s' = s := by
  obtain ⟨o, s₁, htry, hrest⟩ := runs_launch_iff.1 h
  have hnothing : ∃ e, o = .error e ∧ Setup.preventsLaunch e = false ∧ s₁ = s := by
    cases hstalls with
    | input e he hinput =>
      obtain ⟨rfl, rfl⟩ := hinput.fails htry
      exact ⟨e, rfl, he, rfl⟩
    | decision input expression cases e he hinput hshape hvalue =>
      have hrest := hinput.next htry
      rw [hshape] at hrest
      obtain ⟨rfl, rfl⟩ := hvalue.fails hrest
      exact ⟨e, rfl, he, rfl⟩
  obtain ⟨e, rfl, hp, rfl⟩ := hnothing
  rw [settle_of_not_preventsLaunch hp] at hrest
  exact (runs_throw.1 hrest).2

end Engine

end Orchestration
