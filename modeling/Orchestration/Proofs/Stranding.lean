import Orchestration.Proofs.Habits
import Orchestration.Proofs.Hindrances

/-!
# What becomes of a run with a hindered step

A step that cannot be left or launched fails its run: the error is caught where the step is left or
launched, the run gets the status FAILED, and the error is written under the name of the step.
Nothing that the operation does afterwards takes that back, because nobody removes records but a
sweep (`conserves_operation`), and whatever else is written leaves a failed run failed
(`FailedWith.after`).

Two errors are not caught. That a value has no document is taken for a fault of a message, and that
a workflow has no steps for a fault of a request. So they rise through all launches and end the
operation. The run is left as it is, although nothing has been handed over and no run has been
started that could ever move it on: its step is stranded.

What an execution meets with may lie deep below the operation. Both statements are shown by
induction on the way there.
-/

namespace Orchestration

namespace Engine

variable {α β : Type} {R : Rule} {setup : Setup} {s s' s₀ s₁ : Scene} {x : StepInstance}
variable {run : Uid} {name : String} {e : EngineError} {r : Except EngineError Unit}

/-! ## Operations that remove nothing -/

/-- Whether a call removes no records. -/
def Call.conserves : Call → Prop
  | .store (.deleteRuns _) => False
  | _ => True

/-- An action removes no records. -/
abbrev Conserves (a : Action α) : Prop := Asks Call.conserves a

theorem MovesOn.conserves {a : Action α} (h : MovesOn a) : Conserves a := by
  refine h.mono fun c hc ↦ ?_
  cases c with
  | store c =>
    cases c with
    | deleteRuns => exact hc
    | _ => trivial
  | _ => trivial

theorem Plain.conserves {a : Action α} (h : Plain a) : Conserves a := h.movesOn.conserves

theorem habit_conserves : Habit.Steady fun _ a ↦ Conserves a where
  bind := .bind
  attempt := .attempt
  plain := Plain.conserves
  publishWork := fun _ ↦ ⟨trivial, fun _ ↦ trivial⟩
  post := fun _ _ ↦ ⟨trivial, fun _ ↦ trivial⟩
  getFunction := fun _ ↦ ⟨trivial, fun _ ↦ trivial⟩
  deployFunction := fun _ ↦ ⟨trivial, fun _ ↦ trivial⟩
  getWorkflow := fun _ ↦ ⟨trivial, fun _ ↦ trivial⟩
  getStepList := fun _ ↦ ⟨trivial, fun _ ↦ trivial⟩
  generate := fun _ _ _ _ _ ↦ (habit_movesOn.generate _ _ _ _ _).conserves
  setHeldStep := fun _ _ ↦ .store trivial
  takeHeldStep := fun _ ↦ .store trivial

theorem conserves_operation {o : Operation}
    (ho : ∀ keepDays maxCount, o ≠ .sweep keepDays maxCount) : Conserves (o.action setup) := by
  refine habit_conserves.operation setup (fun m _ x ↦ ?_) fun keepDays maxCount h ↦
    absurd h (ho _ _)
  unfold applyResult
  split
  · exact .pure _
  · exact .bind ⟨trivial, fun _ ↦ trivial⟩ fun _ ↦ .bind (.store trivial) fun _ ↦
      .ite (.bind (harmless_announce _).plain.conserves fun _ ↦
        .bind (harmless_readStep _).plain.conserves fun _ ↦ .pure _) (.pure _)

/-! ## A run that has failed -/

/-- A run has failed, and one of its errors is that of a step. -/
def FailedAt (t : Store.Tables) (run : Uid) (name : String) : Prop :=
  ∃ q, t.run? run = some q ∧ q.runStatus = .failed ∧ (q.errorMessages.get? name).isSome = true

/-- A run has failed, and its errors are of one kind. -/
def FailedWith (P : Dict String → Prop) (t : Store.Tables) (run : Uid) : Prop :=
  ∃ q, t.run? run = some q ∧ q.runStatus = .failed ∧ P q.errorMessages

section Failed

variable {P : Dict String → Prop} {t : Store.Tables}

/-- A change of a run that leaves its failure and adds to its errors at most. -/
structure KeepsFailure (P : Dict String → Prop) (change : WorkflowInstance → α × WorkflowInstance) :
    Prop where
  uid : ∀ q, (change q).2.uid = q.uid
  failed : ∀ q, q.runStatus = .failed → P q.errorMessages →
    (change q).2.runStatus = .failed ∧ P (change q).2.errorMessages

theorem FailedWith.onRun {change : WorkflowInstance → α × WorkflowInstance} (h : FailedWith P t run)
    (hchange : KeepsFailure P change) (u : Uid) : FailedWith P (t.onRun u change).2 run := by
  obtain ⟨q, hq, hfailed, hP⟩ := h
  cases hp : t.run? u with
  | none =>
    rw [Store.Tables.onRun_of_none hp]
    exact ⟨q, hq, hfailed, hP⟩
  | some p =>
    rw [Store.Tables.onRun_of_some hp]
    obtain ⟨-, hpu⟩ := Store.Tables.mem_of_run? hp
    have hu : (change p).2.uid = u := (hchange.uid p).trans hpu
    by_cases hsame : u = run
    · subst hsame
      obtain rfl := Option.some.inj (hq.symm.trans hp)
      exact ⟨_, Store.find?_overwrite hu hq, hchange.failed q hfailed hP⟩
    · rw [FailedWith, Store.Tables.run?_putRun_of_ne (hu.symm ▸ hsame)]
      exact ⟨q, hq, hfailed, hP⟩

theorem FailedWith.of_runs {t' : Store.Tables} (h : FailedWith P t run) (hruns : t'.runs = t.runs) :
    FailedWith P t' run := by
  rw [FailedWith, Store.Tables.run?, hruns]
  exact h

theorem FailedWith.after (hP : ∀ key value d, P d → P (Dict.insert key value d)) {c : Call}
    (hc : c.conserves) (answer : c.Answer) (h : FailedWith P s.tables run) :
    FailedWith P (s.after c answer).tables run := by
  cases c with
  | store c =>
    cases c with
    | insertRun p steps =>
      show FailedWith P (if _ then _ else _ : Except EngineError Unit × Store.Tables).2 run
      split
      · exact h
      · refine FailedWith.of_runs (t := { s.tables with runs := s.tables.runs ++ [p] }) ?_
          (runs_foldl_insertStep _ _)
        obtain ⟨q, hq, hfailed⟩ := h
        refine ⟨q, ?_, hfailed⟩
        rw [Store.Tables.run?, List.find?_append]
        rw [Store.Tables.run?] at hq
        rw [hq]
        rfl
    | getRun | getStep | listSteps | findStep | listTopLevelRuns => exact h
    | updateRunStatus u status expected =>
      refine h.onRun ⟨fun q ↦ withStatus_uid _ _ q, fun q hfailed hq ↦ ?_⟩ u
      rw [Store.Tables.withStatus, if_pos (by rw [hfailed]; rfl)]
      exact ⟨hfailed, hq⟩
    | recordRunError u => exact h.onRun ⟨fun _ ↦ rfl, fun q hfailed hq ↦ ⟨hfailed, hP _ _ _ hq⟩⟩ u
    | setRunStartTime u | setRunEndTime u | setRunOutput u | setHeldStep u | takeHeldStep u =>
      exact h.onRun ⟨fun _ ↦ rfl, fun q hfailed hq ↦ ⟨hfailed, hq⟩⟩ u
    | deleteRuns => exact hc.elim
    | updateStepStatus v | launchStep v | setStepStartTime v | setStepEndTime v | setSelectedCase v
    | decrementRetry v => exact h.of_runs (runs_onStep v _)
    | applyStepResult v =>
      exact Store.Tables.answer_applyStepResult_elim (P := fun t ↦ FailedWith P t run) h
        (h.of_runs (runs_onStep v _))
  | publish channel payload =>
    show FailedWith P (s.publish channel payload (Except.isOk answer)).tables run
    unfold Scene.publish
    split
    · exact h
    · exact h
  | getFunction | deployFunction | getWorkflow | getStepList | post | now | newUid | spawn =>
    exact h

theorem Conserves.failedWith (hP : ∀ key value d, P d → P (Dict.insert key value d)) {a : Action α}
    (ha : Conserves a) : Keeps R (fun s ↦ FailedWith P s.tables run) a :=
  ha.keeps fun _ _ hc answer h ↦ h.after hP hc answer

theorem FailedAt.after {a : Action α} {o : Except EngineError α} (ha : Conserves a)
    (h : FailedAt s.tables run name) (hrun : Runs R a s o s') : FailedAt s'.tables run name := by
  refine ha.failedWith (P := fun errors ↦ (errors.get? name).isSome = true)
    (fun key value d hd ↦ ?_) h hrun
  rw [Dict.get?_insert]
  split
  · rfl
  · exact hd

end Failed

theorem run?_onRun {t : Store.Tables} {q : WorkflowInstance} (hq : t.run? run = some q)
    {change : WorkflowInstance → α × WorkflowInstance} (huid : (change q).2.uid = run) :
    (t.onRun run change).2.run? run = some (change q).2 := by
  rw [Store.Tables.onRun_of_some hq]
  exact Store.find?_overwrite huid hq

theorem runs_onRun_next {c : Store.Call} {f : c.Value → Action α} {o : Except EngineError α}
    {change : WorkflowInstance → c.Value × WorkflowInstance} {q : WorkflowInstance}
    (hans : s.tables.answer c = s.tables.onRun run change) (hq : s.tables.run? run = some q)
    (h : Runs R (Action.store c >>= f) s o s') :
    Runs R (f (change q).1) (s.afterStore c) o s' := by
  rw [Store.Tables.onRun_of_some hq] at hans
  rcases runs_bind.1 h with ⟨d, h₁, -⟩ | ⟨v, s₁, h₁, h₂⟩
  · cases (runs_store.1 h₁).1.trans (congrArg Prod.fst hans)
  · obtain ⟨hv, -, rfl⟩ := runs_store.1 h₁
    obtain rfl := Except.ok.inj (hv.trans (congrArg Prod.fst hans))
    exact h₂

/-- A run that has not come to its end has failed when it has been ended for a failure. -/
theorem failedAt_of_fail {q : WorkflowInstance} {reason : String} (hq : s.tables.run? run = some q)
    (hgoes : q.runStatus.isTerminal = false)
    (h : Runs R (setup.fail run .failed name reason) s r s') :
    FailedAt s'.tables run name := by
  obtain ⟨-, hqu⟩ := Store.Tables.mem_of_run? hq
  rw [Setup.fail, terminate_eq] at h
  have hrest := (writes_writeRunStatus (answer_updateRunStatus hq hgoes .failed)).next h
  rw [if_pos rfl] at hrest
  obtain ⟨time, hrest⟩ := Runs.of_now hrest
  unfold closing recordFailure at hrest
  simp only [bind_assoc] at hrest
  have hfailed : ({ s with tables := s.tables.putRun { q with runStatus := .failed } } :
      Scene).tables.run? run = some { q with runStatus := .failed } := Store.find?_overwrite hqu hq
  have hended : ∀ s₁ : Scene, s₁.tables.run? run = some { q with runStatus := .failed } →
      (s₁.afterStore (.setRunEndTime run time)).tables.run? run =
        some { q with runStatus := .failed, endTime := some time } :=
    fun s₁ h₁ ↦ run?_onRun h₁ hqu
  have hrest := runs_onRun_next rfl (hended _ hfailed) (runs_onRun_next rfl hfailed hrest)
  -- What follows the error of the step only reads and reports.
  refine FailedAt.after ?_ ?_ hrest
  · refine .bind (.pure _) fun _ ↦ .bind (harmless_readRun run).plain.conserves fun _ ↦
      .bind (harmless_reportToParent _ _ _ _).plain.conserves fun _ ↦ ⟨trivial, fun _ ↦ trivial⟩
  · refine ⟨_, run?_onRun (hended _ hfailed) hqu, rfl, ?_⟩
    show (Dict.get? (Dict.insert name reason q.errorMessages) name).isSome = true
    rw [Dict.get?_insert, if_pos rfl]
    rfl

/-! ## Hindered steps -/

/-- A step that is hindered for a reason that is not overlooked fails its run. -/
theorem Halts.failedAt {a : Action Unit} (h : Halts R setup s run name e a r s')
    {q : WorkflowInstance} (hq : s.tables.run? run = some q)
    (hgoes : q.runStatus.isTerminal = false)
    (he : ¬Overlooked e) : FailedAt s'.tables run name := by
  cases h with
  | launch h hsettle =>
    rw [settle_of_preventsLaunch (h.prevents_or_overlooked.resolve_right he)] at hsettle
    refine failedAt_of_fail ?_ hgoes hsettle
    rw [Store.Tables.run?, h.fruitless.runs]
    exact hq
  | leave h hsettle =>
    rw [goOn_of_isConfiguration (isConfiguration_of_nextStep h he)] at hsettle
    exact failedAt_of_fail hq hgoes hsettle

/-- A step that is hindered for a reason that is overlooked leaves its run as it is. -/
theorem Halts.fruitless {a : Action Unit} (h : Halts R setup s run name e a r s')
    (he : Overlooked e) : r = .error e ∧ Fruitless s s' := by
  cases h with
  | launch h hsettle =>
    rw [settle_of_overlooked he] at hsettle
    obtain ⟨rfl, rfl⟩ := runs_throw.1 hsettle
    exact ⟨rfl, h.fruitless⟩
  | leave h hsettle =>
    rw [goOn_of_overlooked he] at hsettle
    obtain ⟨rfl, rfl⟩ := runs_throw.1 hsettle
    exact ⟨rfl, .refl _⟩

/-- Whoever fails a run that a hindered step belongs to asks for the status of the run to be
changed. -/
theorem Halts.asked (hR : Lenient R) {φ : Call → Prop} {a : Action Unit}
    (h : Halts R setup s run name e a r s') (he : ¬Overlooked e) (ha : Asks φ a) :
    φ (.store (.updateRunStatus run .failed none)) := by
  have hfail : ∀ {reason}, Asks φ (setup.fail run .failed name reason) →
      φ (.store (.updateRunStatus run .failed none)) := fun hasks ↦ hasks.first.first.1
  cases h with
  | launch h _ =>
    rw [launch_eq] at ha
    have hrest := ha.rest (runs_attempt.2 ⟨_, h.runs_tryLaunch hR, rfl⟩)
    rw [settle_of_preventsLaunch (h.prevents_or_overlooked.resolve_right he)] at hrest
    exact hfail hrest
  | leave h _ =>
    rw [leave_eq] at ha
    have hrest := ha.rest (runs_attempt.2 ⟨_, h.runs hR.store, rfl⟩)
    rw [goOn_of_isConfiguration (isConfiguration_of_nextStep h he)] at hrest
    exact hfail hrest

theorem Meets.asked (hR : Lenient R) {φ : Call → Prop} {a : Action α} {o : Except EngineError α}
    (h : Meets R setup s₀ run name e a s o s') (he : ¬Overlooked e) (ha : Asks φ a) :
    φ (.store (.updateRunStatus run .failed none)) := by
  induction h with
  | here h => exact h.asked hR he ha
  | fails _ ih => exact ih ha.first
  | first _ _ ih => exact ih ha.first
  | later hfirst _ ih => exact ih (ha.rest hfirst)
  | nested _ _ ih =>
    rw [launch_eq] at ha
    exact ih ha.first.of_attempt

theorem Meets.failedAt (hR : Lenient R) {a : Action α} {o : Except EngineError α}
    (h : Meets R setup s₀ run name e a s o s') {q : WorkflowInstance}
    (hq : s₀.tables.run? run = some q) (hgoes : q.runStatus.isTerminal = false)
    (he : ¬Overlooked e) (ha : Conserves a) : FailedAt s'.tables run name := by
  induction h with
  | here h => exact h.failedAt hq hgoes he
  | fails _ ih => exact ih ha.first
  | first h hrest ih => exact (ih ha.first).after (ha.rest (h.runs hR)) hrest
  | later hfirst _ ih => exact ih (ha.rest hfirst)
  | nested h hsettle ih =>
    rw [launch_eq] at ha
    exact (ih ha.first.of_attempt).after (ha.rest (runs_attempt.2 ⟨_, h.runs hR, rfl⟩)) hsettle

theorem Meets.fruitless {a : Action α} {o : Except EngineError α}
    (h : Meets R setup s₀ run name e a s o s') (he : Overlooked e) :
    o = .error e ∧ Fruitless s₀ s' := by
  induction h with
  | here h => exact h.fruitless he
  | fails _ ih =>
    obtain ⟨hd, hs⟩ := ih
    exact ⟨by rw [Except.error.inj hd], hs⟩
  | first _ _ ih => cases ih.1
  | later _ _ ih => exact ih
  | nested _ hsettle ih =>
    obtain ⟨rfl, hs⟩ := ih
    rw [settle_of_overlooked he] at hsettle
    obtain ⟨rfl, rfl⟩ := runs_throw.1 hsettle
    exact ⟨rfl, hs⟩

/-- **A hindered step fails its run**, unless the reason is overlooked. Then the operation fails
with that reason and the run is as it was, with no work handed over and no run started that could
ever move it on. -/
theorem failed_of_hindered {o : Operation}
    (h : Meets noFailure setup s₀ run name e (o.action setup) s r s') {q : WorkflowInstance}
    (hq : s₀.tables.run? run = some q) (hgoes : q.runStatus.isTerminal = false) :
    (¬Overlooked e → FailedAt s'.tables run name) ∧
      (Overlooked e → r = .error e ∧ s'.tables.run? run = some q ∧ Fruitless s₀ s') := by
  refine ⟨fun he ↦ ?_, fun he ↦ ?_⟩
  swap
  · obtain ⟨hr, hfruitless⟩ := h.fruitless he
    refine ⟨hr, ?_, hfruitless⟩
    rw [Store.Tables.run?, hfruitless.runs]
    exact hq
  by_cases hsweep : ∃ keepDays maxCount, o = .sweep keepDays maxCount
  · obtain ⟨keepDays, maxCount, rfl⟩ := hsweep
    have hasks : Asks (fun c ↦ ∀ u status expected, c ≠ .store (.updateRunStatus u status expected))
        (Operation.action setup (.sweep keepDays maxCount)) := by
      refine .bind (.bind (.store ?_) fun _ ↦ .bind ⟨?_, fun _ ↦ trivial⟩ fun _ ↦
        .ite (.pure _) (.store ?_)) fun _ ↦ .pure _
      all_goals
        intro u status expected hc
        cases hc
    exact absurd rfl (h.asked lenient_noFailure he hasks _ _ _)
  · push Not at hsweep
    exact h.failedAt lenient_noFailure hq hgoes he (conserves_operation hsweep)

/-! ## A step without an expression -/

/-- A workflow of one step, with a formula that has no expression. -/
def unfilled : WorkflowDefinition :=
  { uid := .ofNat 1
    name := "unfilled"
    steps :=
      [{ uid := .ofNat 2
         name := "call"
         executionOrder := 1
         inputData := [("x", .str "@formula##")]
         shape := .simple (.ofNat 9) }] }

/-- Its run while it waits for the function of the step. -/
def unfilledScene : Scene :=
  ((Collaborators.single lazyFunction unfilled).performAll queueSetup
    [.start (.ofNat 1) [] none none] {}).get (by decide +kernel)

def unfilledReady : Except EngineError Bool × Scene :=
  ((Collaborators.single lazyFunction unfilled).perform
    (moveRunStatus (World.nthUid 0) .deployingFunctions .running).run unfilledScene).get
    (by decide +kernel)

def unfilledStep : StepInstance :=
  (unfilledReady.2.tables.step? (World.nthUid 1)).get (by decide +kernel)

/-- What comes of the launch of the step. -/
def unfilledSettled : Except EngineError Unit × Scene :=
  ((Collaborators.single lazyFunction unfilled).perform
    (queueSetup.settle unfilledStep (.error .emptyExpression)).run unfilledReady.2).get
    (by decide +kernel)

/-- The outcome of the wait makes the run fail at its step. -/
theorem failed_of_unfilled :
    (Reachable queueSetup anyAnswer unfilledScene ∧
      Meets noFailure queueSetup unfilledReady.2 (World.nthUid 0) "call" .emptyExpression
        ((Operation.outcome { workflowInstanceId := World.nthUid 0, ready := true }).action
          queueSetup)
        unfilledScene unfilledSettled.1 unfilledSettled.2) ∧
    (∃ q, unfilledReady.2.tables.run? (World.nthUid 0) = some q ∧
      q.runStatus.isTerminal = false) ∧
    ¬Overlooked .emptyExpression ∧
    FailedAt unfilledSettled.2.tables (World.nthUid 0) "call" := by
  have hreach : Reachable queueSetup anyAnswer unfilledScene :=
    (Collaborators.reachable_get _).weaken fun _ _ _ ↦ trivial
  have hmove : Runs noFailure (moveRunStatus (World.nthUid 0) .deployingFunctions .running)
      unfilledScene (.ok true) unfilledReady.2 := by
    have hdone : unfilledReady.1 = .ok true := by decide +kernel
    rw [← hdone]
    exact Leads.weaken (fun _ _ ↦ Collaborators.noFailure_of_single) (Collaborators.leads_get _ _)
  have hfirst : Finds unfilledReady.2.tables (firstStep (World.nthUid 0)) (.ok unfilledStep) := by
    show valueIn? unfilledReady.2.tables (firstStep (World.nthUid 0)).run = some (.ok unfilledStep)
    decide +kernel
  have hinput : Finds unfilledReady.2.tables
      (normalize unfilledStep.inputData unfilledStep.workflowInstanceUid (some unfilledStep))
      (.error .emptyExpression) := by
    refine finds_bind.2 (.inl ⟨_, finds_ofExcept.2 ?_, rfl⟩)
    decide +kernel
  have hsettle : Runs noFailure (queueSetup.settle unfilledStep (.error .emptyExpression))
      unfilledReady.2 unfilledSettled.1 unfilledSettled.2 :=
    Leads.weaken (fun _ _ ↦ Collaborators.noFailure_of_single) (Collaborators.leads_get _ _)
  obtain ⟨hrun, hname⟩ : unfilledStep.workflowInstanceUid = World.nthUid 0 ∧
      unfilledStep.name = "call" := by decide +kernel
  have hlaunch : Meets noFailure queueSetup unfilledReady.2 (World.nthUid 0) "call" .emptyExpression
      (queueSetup.launchStep unfilledStep) unfilledReady.2 unfilledSettled.1 unfilledSettled.2 := by
    have hhalts := Halts.launch (.input (n := queueSetup.nesting) hinput) hsettle
    rw [hrun, hname] at hhalts
    exact .here hhalts
  have hmeets : Meets noFailure queueSetup unfilledReady.2 (World.nthUid 0) "call" .emptyExpression
      ((Operation.outcome { workflowInstanceId := World.nthUid 0, ready := true }).action
        queueSetup)
      unfilledScene unfilledSettled.1 unfilledSettled.2 :=
    .later hmove (.later (hfirst.runs lenient_noFailure.store) hlaunch)
  obtain ⟨q, hq, hgoes⟩ : ∃ q, unfilledReady.2.tables.run? (World.nthUid 0) = some q ∧
      q.runStatus.isTerminal = false :=
    ⟨(unfilledReady.2.tables.run? (World.nthUid 0)).get (by decide +kernel),
      (Option.some_get _).symm, by decide +kernel⟩
  exact ⟨⟨hreach, hmeets⟩, ⟨q, hq, hgoes⟩, nofun, (failed_of_hindered hmeets hq hgoes).1 nofun⟩

end Engine

end Orchestration
