import Orchestration.Engine.Handler
import Orchestration.Proofs.FinishedRuns
import Orchestration.Proofs.Footprint

/-!
# Failures that are no faults

A collaborator that is out of reach is a fault that may pass, and an action that meets one is to be
tried again. Any other failure is for good. What can be said of an action that has failed for good?

It has come to no such fault on its way, or has got over it: nobody who looks a function up goes on
when the catalog is out of reach (`findsFunctions`). And it has handed no work over. For work is
handed over last of all, and what comes after it is only the report of a failure to the queue, which
fails for the time being, or a look at a run that is there. Both together are said by `Orderly`, for
everything from a launch to the handling of a message (`orderly_consume`).
-/

namespace Orchestration

namespace Engine

variable {α β : Type} {R : Rule} {setup : Setup} {s s' : Scene}

/-! ## Failures that are no faults -/

/-- The rule that a queue fails only for the time being, and that a catalog of functions that gives
no function does not know it, or fails for the time being. -/
def honest : Rule
  | .publish .., a => ∀ e, a = .error e → e.kind.isTransient = true
  | .getFunction _, a => ∀ e, a = .error e → e.kind = .notFound ∨ e.kind.isTransient = true
  | _, _ => True

theorem honest_of_noFailure {c : Call} {a : c.Answer} (h : noFailure c a) : honest c a := by
  cases c with
  | publish =>
    rintro e rfl
    cases h
  | getFunction => exact fun e he ↦ .inl (h e he)
  | _ => trivial

/-- The rule that a catalog of functions that gives no function does not know it. -/
def findsFunctions : Rule
  | .getFunction _, a => ∀ e, a = .error e → e.kind = .notFound
  | _, _ => True

/-- An action has met a fault of the infrastructure, so it is to be tried again. -/
def Transient (r : Except EngineError α) : Prop := ∃ e, r = .error e ∧ e.kind.isTransient = true

/-- However an action ends, unless it is to be tried again: it has looked up every function that it
has asked for, and has handed no work over. -/
def Silent (a : Action α) : Prop :=
  ∀ ⦃s r s'⦄, Runs honest a s r s' →
    Transient r ∨ Runs findsFunctions a s r s' ∧ s'.handOvers = s.handOvers

/-- However an action ends from a scene on, unless it is to be tried again: it has looked up every
function that it has asked for, and if it has failed it has handed no work over. -/
def Orderly (a : Action α) (s : Scene) : Prop :=
  ∀ ⦃r s'⦄, Runs honest a s r s' →
    Transient r ∨ Runs findsFunctions a s r s' ∧ ((∃ e, r = .error e) → s'.handOvers = s.handOvers)

/-- Whether a call neither looks a function up nor hands work over. -/
def Call.isModest : Call → Prop
  | .getFunction _ | .post .. => False
  | .publish channel _ => channel ≠ .work
  | _ => True

theorem Call.isModest_of_isPlain {c : Call} (h : c.isPlain) : c.isModest := by
  cases c with
  | publish => exact h
  | getFunction | post => exact h.elim
  | _ => trivial

theorem Call.handOvers_after {c : Call} (hc : c.isModest) (answer : c.Answer) :
    (s.after c answer).handOvers = s.handOvers := by
  cases c with
  | publish channel payload =>
    show (s.publish channel payload (Except.isOk answer)).handOvers = s.handOvers
    unfold Scene.publish
    split
    · rfl
    · have hno : (Parcel.message channel payload).handsOver = false := by
        have hno : channel ≠ .work := hc
        simp [Parcel.handsOver, hno]
      rw [Scene.handOvers_send, hno]
      exact List.append_nil _
  | getFunction | post => exact hc.elim
  | store | deployFunction | getWorkflow | getStepList | now | newUid | spawn => rfl

theorem runs_findsFunctions {a : Action α} {r : Except EngineError α}
    (ha : Asks (fun c ↦ ∀ f, c ≠ .getFunction f) a) (h : Runs R a s r s') :
    Runs findsFunctions a s r s' := by
  have hprogram : ∀ {p : Program Call.Answer (Except EngineError α)} {s : Scene},
      Asked (fun c ↦ ∀ f, c ≠ .getFunction f) p → Leads R p s r s' →
      Leads findsFunctions p s r s' := by
    intro p
    induction p with
    | done o => exact fun _ h ↦ h
    | call c next ih =>
      rintro s hp ⟨answer, hadm, -, h⟩
      refine ⟨answer, hadm, ?_, ih answer (hp.2 answer) h⟩
      cases c with
      | getFunction f => exact (hp.1 f rfl).elim
      | _ => trivial
  exact hprogram ha h

theorem handOvers_of_modest {a : Action α} {r : Except EngineError α} (ha : Asks Call.isModest a)
    (h : Runs R a s r s') : s'.handOvers = s.handOvers := by
  have hkept : Keeps R (fun s₁ ↦ s₁.handOvers = s.handOvers) a :=
    ha.keeps fun _ _ hc answer hs ↦ (Call.handOvers_after hc answer).trans hs
  exact hkept rfl h

namespace Silent

theorem of_asks {a : Action α} (ha : Asks Call.isModest a) : Silent a := by
  intro s r s' h
  refine .inr ⟨runs_findsFunctions (ha.mono fun c hc f hf ↦ ?_) h, handOvers_of_modest ha h⟩
  rw [hf] at hc
  exact hc

theorem of_plain {a : Action α} (ha : Plain a) : Silent a :=
  of_asks (ha.mono fun _ ↦ Call.isModest_of_isPlain)

theorem pure (x : α) : Silent (Pure.pure x : Action α) := of_asks (.pure x)

theorem throw (e : EngineError) : Silent (throw e : Action α) := of_asks (.throw e)

theorem getFunction (f : Uid) : Silent (Action.getFunction f) := by
  intro s r s' h
  obtain ⟨hr, rfl⟩ := runs_getFunction.1 h
  by_cases htransient : Transient r
  · exact .inl htransient
  · refine .inr ⟨runs_getFunction.2 ⟨fun e he ↦ ?_, rfl⟩, rfl⟩
    exact (hr e he).resolve_right fun hkind ↦ htransient ⟨e, he, hkind⟩

theorem bind {a : Action α} {f : α → Action β} (ha : Silent a) (hf : ∀ x, Silent (f x)) :
    Silent (a >>= f) := by
  intro s r s' h
  rcases runs_bind.1 h with ⟨e, h₁, rfl⟩ | ⟨x, s₁, h₁, h₂⟩
  · rcases ha h₁ with ⟨e', he, hkind⟩ | ⟨h₁, hover⟩
    · cases he
      exact .inl ⟨e, rfl, hkind⟩
    · exact .inr ⟨runs_bind.2 (.inl ⟨e, h₁, rfl⟩), hover⟩
  · rcases ha h₁ with ⟨e', he, -⟩ | ⟨h₁, hover₁⟩
    · cases he
    rcases hf x h₂ with htransient | ⟨h₂, hover₂⟩
    · exact .inl htransient
    · exact .inr ⟨runs_bind.2 (.inr ⟨x, s₁, h₁, h₂⟩), hover₂.trans hover₁⟩

/-- Whoever goes on with the outcome of an action passes on that it is to be tried again. -/
theorem attempt_bind {a : Action α} {f : Except EngineError α → Action β} (ha : Silent a)
    (hf : ∀ o, Silent (f o))
    (hpass : ∀ e : EngineError, e.kind.isTransient = true → f (.error e) = MonadExcept.throw e) :
    Silent (Action.attempt a >>= f) := by
  intro s r s' h
  obtain ⟨o, s₁, ho, h₂⟩ := runs_attempt_bind.1 h
  rcases ha ho with ⟨e, rfl, hkind⟩ | ⟨ho, hover₁⟩
  · rw [hpass e hkind] at h₂
    exact .inl ⟨e, (runs_throw.1 h₂).1, hkind⟩
  rcases hf o h₂ with htransient | ⟨h₂, hover₂⟩
  · exact .inl htransient
  · exact .inr ⟨runs_attempt_bind.2 ⟨o, s₁, ho, h₂⟩, hover₂.trans hover₁⟩

theorem orderly {a : Action α} (ha : Silent a) (s : Scene) : Orderly a s :=
  fun _ _ h ↦ (ha h).imp_right fun ⟨h, hover⟩ ↦ ⟨h, fun _ ↦ hover⟩

end Silent

namespace Orderly

/-- An action goes on orderly after one that has handed nothing over. -/
theorem bind {a : Action α} {f : α → Action β} (ha : Silent a)
    (hf : ∀ x s₁, Runs honest a s (.ok x) s₁ → Orderly (f x) s₁) : Orderly (a >>= f) s := by
  intro r s' h
  rcases runs_bind.1 h with ⟨e, h₁, rfl⟩ | ⟨x, s₁, h₁, h₂⟩
  · rcases ha h₁ with ⟨e', he, hkind⟩ | ⟨h₁, hover⟩
    · cases he
      exact .inl ⟨e, rfl, hkind⟩
    · exact .inr ⟨runs_bind.2 (.inl ⟨e, h₁, rfl⟩), fun _ ↦ hover⟩
  · rcases ha h₁ with ⟨e', he, -⟩ | ⟨h₁', hover₁⟩
    · cases he
    rcases hf x s₁ h₁ h₂ with htransient | ⟨h₂, hover₂⟩
    · exact .inl htransient
    · exact .inr ⟨runs_bind.2 (.inr ⟨x, s₁, h₁', h₂⟩), fun hfails ↦ (hover₂ hfails).trans hover₁⟩

theorem bind_finds {a : Action α} {f : α → Action β} (ha : Orderly a s)
    (hf : ∀ x s₁, Runs honest a s (.ok x) s₁ → ∃ y, Finds s₁.tables (f x) (.ok y)) :
    Orderly (a >>= f) s := by
  intro r s' h
  rcases runs_bind.1 h with ⟨e, h₁, rfl⟩ | ⟨x, s₁, h₁, h₂⟩
  · rcases ha h₁ with ⟨e', he, hkind⟩ | ⟨h₁, hover⟩
    · cases he
      exact .inl ⟨e, rfl, hkind⟩
    · exact .inr ⟨runs_bind.2 (.inl ⟨e, h₁, rfl⟩), fun _ ↦ hover ⟨e, rfl⟩⟩
  · obtain ⟨y, hy⟩ := hf x s₁ h₁
    obtain ⟨rfl, rfl⟩ := hy.of_runs h₂
    rcases ha h₁ with ⟨e', he, -⟩ | ⟨h₁, -⟩
    · cases he
    · exact .inr ⟨runs_bind.2 (.inr ⟨x, _, h₁, hy.runs fun _ _ ↦ trivial⟩),
        fun ⟨e, he⟩ ↦ nomatch he⟩

end Orderly

/-! ## Launching -/

section Launching

variable {startChild : StartChild}

theorem orderly_send (x : StepInstance) (input : Json.Object) (f : FunctionInfo) (s : Scene) :
    Orderly (setup.send x input f) s := by
  intro r s' h
  have hasks : Asks (fun c ↦ ∀ f, c ≠ .getFunction f) (setup.send x input f) := by
    refine .bind (.attempt ?_) fun o ↦ ?_
    · unfold Setup.handOver
      split
      · exact ⟨nofun, fun _ ↦ trivial⟩
      · unfold Setup.push
        split
        · exact .throw _
        · exact .bind ⟨nofun, fun _ ↦ trivial⟩ fun _ ↦ .ite (.pure _) (.throw _)
    · split
      · exact .pure _
      · exact ⟨nofun, fun _ ↦ trivial⟩
  have hfails : ∀ e, r = .error e → Transient r := by
    rintro e rfl
    obtain ⟨o, s₁, -, h₂⟩ := runs_attempt_bind.1 h
    split at h₂
    · cases (runs_pure.1 h₂).1
    · exact ⟨e, rfl, (runs_publish.1 h₂).1 e rfl⟩
  cases r with
  | error e => exact .inl (hfails e rfl)
  | ok _ => exact .inr ⟨runs_findsFunctions hasks h, fun ⟨e, he⟩ ↦ nomatch he⟩

/-- Whoever starts sub-workflows is orderly. -/
abbrev OrderlyChild (startChild : StartChild) : Prop :=
  ∀ workflow input parent parentStep s, Orderly (startChild workflow input parent parentStep) s

theorem orderly_dispatchFunction (x : StepInstance) (input : Json.Object) (f : Uid) (s : Scene) :
    Orderly (setup.dispatchFunction x input f) s :=
  .bind (.getFunction f) fun info _ _ ↦ .bind (.of_plain (plain_launchAttempt _ _)) fun y s₁ _ ↦
    orderly_send y input info s₁

theorem orderly_startSubWorkflow (hc : OrderlyChild startChild) (x : StepInstance)
    (input : Json.Object) (w : Uid) (s : Scene) :
    Orderly (Setup.startSubWorkflow startChild x input w) s :=
  .bind (.of_plain (plain_launchAttempt _ _)) fun _ s₁ _ ↦ hc _ _ _ _ s₁

theorem orderly_tryLaunch (hc : OrderlyChild startChild) (x : StepInstance) (s : Scene) :
    Orderly (setup.tryLaunch startChild x) s := by
  refine .bind (.of_plain (harmless_normalize _ _ _).plain) fun input s₁ _ ↦ ?_
  split
  · exact orderly_dispatchFunction _ _ _ _
  · exact orderly_dispatchFunction _ _ _ _
  · exact orderly_startSubWorkflow hc _ _ _ _
  · refine .bind (.of_plain (harmless_evaluateSwitch _ _).plain) fun value s₂ _ ↦
      .bind (.of_plain (.ofExcept _)) fun chosen s₃ _ ↦
        .bind (.of_plain (.store trivial)) fun _ s₄ _ ↦ ?_
    split
    · exact orderly_dispatchFunction _ _ _ _
    · exact orderly_startSubWorkflow hc _ _ _ _

theorem not_preventsLaunch {e : EngineError} (h : e.kind.isTransient = true) :
    Setup.preventsLaunch e = false := by
  unfold Setup.preventsLaunch EngineError.isConfiguration
  cases hkind : e.kind with
  | database | queue | externalService | internal => rfl
  | _ =>
    rw [hkind] at h
    cases h

theorem orderly_launch (hc : OrderlyChild startChild) (x : StepInstance) (s : Scene) :
    Orderly (setup.launch startChild x) s := by
  intro r s' h
  obtain ⟨o, s₁, ho, h₂⟩ := runs_launch_iff.1 h
  rcases orderly_tryLaunch hc x s ho with ⟨e, rfl, hkind⟩ | ⟨htry, hover⟩
  · rw [settle_of_not_preventsLaunch (not_preventsLaunch hkind)] at h₂
    exact .inl ⟨e, (runs_throw.1 h₂).1, hkind⟩
  -- Unless the launch has succeeded, nothing has been handed over, and ending the run hands nothing
  -- over either.
  have hrest : Silent (setup.settle x o) := by
    cases o with
    | ok _ => exact .pure ()
    | error e => exact .of_plain (.ite (plain_fail setup _ _ _ _) (.throw _))
  refine (hrest h₂).imp_right fun ⟨h₂', hover₂⟩ ↦ ⟨runs_launch_iff.2 ⟨o, s₁, htry, h₂'⟩, ?_⟩
  · rintro ⟨e, rfl⟩
    cases o with
    | ok _ => cases (runs_pure.1 h₂).1
    | error e' => exact hover₂.trans (hover ⟨e', rfl⟩)

theorem silent_lookUpFunctions (refs : List (Uid × String)) :
    Silent (Setup.lookUpFunctions refs) := by
  induction refs with
  | nil => exact .pure _
  | cons ref rest ih =>
    refine .attempt_bind (.getFunction ref.1) (fun o ↦ ?_) fun e hkind ↦ ?_
    · split
      · exact .bind ih fun _ ↦ .pure _
      · exact .of_plain (.ite (.pure _) (.throw _))
    · refine if_neg fun hmissing ↦ ?_
      rw [hmissing] at hkind
      cases hkind

theorem orderly_prepareFunctions (hc : OrderlyChild startChild) (run : Uid)
    (steps : List StepDefinition) (first : StepInstance) (s : Scene) :
    Orderly (setup.prepareFunctions startChild run steps first) s := by
  refine .bind (silent_lookUpFunctions _) fun found s₁ _ ↦ ?_
  split
  · exact (Silent.of_plain (plain_terminate setup _ _ _ _)).orderly _
  split
  · exact (Silent.of_plain (plain_fail setup _ _ _ _)).orderly _
  split
  · exact .bind (.of_plain (plain_updateRunStatus _ _)) fun _ s₂ _ ↦ orderly_launch hc first s₂
  · have hrequest : ∀ functions, Asks Call.isModest (Setup.requestDeployments functions) := by
      intro functions
      induction functions with
      | nil => exact .pure _
      | cons f rest ih => exact .ite ih (.bind ⟨trivial, fun _ ↦ trivial⟩ fun _ ↦ ih)
    exact .bind (.of_asks (hrequest _)) fun _ s₂ _ ↦
      .bind (.of_plain (plain_updateRunStatus _ _)) fun _ s₃ _ ↦
        (Silent.of_asks (a := Action.spawn _) ⟨trivial, fun _ ↦ trivial⟩).orderly _

/-! ## Starting runs -/

theorem finds_state {t : Store.Tables} {run : Uid} (h : run ∈ t.runs.map (·.uid)) :
    ∃ shown, Finds t (state run) (.ok shown) := by
  cases hq : t.run? run with
  | none =>
    obtain ⟨q, hq', hu⟩ := List.mem_map.1 h
    have hno := List.find?_eq_none.1 hq q hq'
    simp [hu] at hno
  | some q =>
    exact ⟨_, finds_bind.2 (.inr ⟨q, finds_readRun hq, finds_bind.2 (.inr
      ⟨_, (finds_store rfl).2 rfl, finds_pure.2 rfl⟩)⟩)⟩

/-- A run that is in the store starts orderly: its state can be shown in the end, because nothing
removes it on the way. -/
theorem orderly_startRun (hc : OrderlyChild startChild)
    (hm : KeptByChild (fun _ a ↦ MovesOn a) startChild) {run : Uid}
    (definition : WorkflowDefinition) (steps : List StepDefinition)
    (hrun : run ∈ s.tables.runs.map (·.uid)) :
    Orderly (setup.startRun startChild run definition steps) s := by
  refine .bind (.of_plain (harmless_setRunStartTime run).plain) fun _ s₁ h₁ ↦ ?_
  have hrun₁ := (harmless_setRunStartTime run).plain.movesOn.run_stays h₁ hrun
  refine .bind (.of_plain (.attempt (harmless_firstStep run).plain)) fun o s₂ h₂ ↦ ?_
  have hrun₂ := MovesOn.run_stays (.attempt (harmless_firstStep run).plain.movesOn) h₂ hrun₁
  split
  · split
    · refine .bind (.of_plain (plain_updateRunStatus run _)) fun _ s₃ h₃ ↦
        .bind_finds (orderly_launch hc _ s₃) fun _ s₄ h₄ ↦ finds_state ?_
      exact (habit_movesOn.launch setup hm _).run_stays h₄
        ((plain_updateRunStatus run _).movesOn.run_stays h₃ hrun₂)
    · refine .bind_finds (orderly_prepareFunctions hc run steps _ s₂) fun _ s₃ h₃ ↦ finds_state ?_
      exact (habit_movesOn.prepareFunctions setup hm trivial _ _).run_stays h₃ hrun₂
  · refine (Silent.of_plain (.ite ?_ ?_)).orderly s₂
    · exact .bind (plain_fail setup _ _ _ _) fun _ ↦ (harmless_state run).plain
    · exact .bind (.throw _) fun _ ↦ (harmless_state run).plain

theorem there_of_generate {definition : WorkflowDefinition} {steps : List StepDefinition}
    {input : Json.Object} {parent parentStep : Option Uid}
    {made : WorkflowInstance × List StepInstance}
    (h : Runs R (generate definition steps input parent parentStep) s (.ok made) s') :
    made.1.uid ∈ s'.tables.runs.map (·.uid) := by
  rcases runs_generate_cases h with ⟨-, hr, -⟩ | ⟨run, uids, time, instances, new, -, -, -, -, -, -,
    -, -, rfl, hr⟩
  · cases hr
  by_cases hthere : (s.tables.run? new.uid).isSome
  · have hans : s.tables.answer (.insertRun new instances) =
        (.error (.runExists new.uid), s.tables) := if_pos hthere
    rw [hans] at hr
    cases hr
  · have hans : s.tables.answer (.insertRun new instances) =
        (.ok (), instances.foldl Store.Tables.insertStep
          { s.tables with runs := s.tables.runs ++ [new] }) := if_neg hthere
    rw [hans] at hr
    obtain rfl := Except.ok.inj hr
    show new.uid ∈ (s.tables.answer (.insertRun new instances)).2.runs.map _
    rw [hans, runs_foldl_insertStep, List.map_append]
    exact List.mem_append_right _ List.mem_cons_self

theorem orderly_startWith (hc : OrderlyChild startChild)
    (hm : KeptByChild (fun _ a ↦ MovesOn a) startChild) (workflow : Uid) (input : Json.Object)
    (parent parentStep : Option Uid) (s : Scene) :
    Orderly (setup.startWith startChild workflow input parent parentStep) s := by
  have hgenerate : ∀ definition steps,
      Asks Call.isModest (generate definition steps input parent parentStep) := by
    intro definition steps
    exact .ite (.throw _) <| .bind ⟨trivial, fun _ ↦ trivial⟩ fun uid ↦
      .bind (asks_newUids trivial _) fun uids ↦
      .bind ⟨trivial, fun _ ↦ trivial⟩ fun time ↦ .bind (.store trivial) fun _ ↦ .pure _
  have hsteps : ∀ definition, Asks Call.isModest (Setup.stepsOf definition workflow) := fun _ ↦
    .ite ⟨trivial, fun _ ↦ trivial⟩ (.pure _)
  refine .bind (.of_asks (a := Action.getWorkflow _) ⟨trivial, fun _ ↦ trivial⟩)
    fun definition _ _ ↦ .bind (.of_asks (hsteps definition)) fun steps _ _ ↦
      .bind (.of_asks (hgenerate definition steps)) fun made s₁ h₁ ↦ ?_
  exact orderly_startRun hc hm definition steps (there_of_generate h₁)

theorem orderly_startNested (depth : Nat) (workflow : Uid) (input : Json.Object)
    (parent parentStep : Option Uid) (s : Scene) :
    Orderly (setup.startNested depth workflow input parent parentStep) s := by
  induction depth generalizing workflow input parent parentStep s with
  | zero => exact (Silent.throw _).orderly s
  | succ depth ih =>
    exact orderly_startWith
      (fun w i p ps s ↦ .bind_finds (ih w i (some p) (some ps) s) fun _ _ _ ↦
        ⟨(), finds_pure.2 rfl⟩)
      (fun _ _ _ _ ↦ .bind (habit_movesOn.startNested setup _ _ _ _ _) fun _ ↦ .pure _)
      workflow input parent parentStep s

theorem orderly_launchStep (x : StepInstance) (s : Scene) : Orderly (setup.launchStep x) s :=
  orderly_launch (fun w i p ps s ↦ .bind_finds (orderly_startNested _ w i (some p) (some ps) s)
    fun _ _ _ ↦ ⟨(), finds_pure.2 rfl⟩) x s

end Launching

/-! ## Handling messages -/

theorem orderly_advance (x : StepInstance) (s : Scene) : Orderly (setup.advance x) s := by
  have hleave : Orderly (setup.leave x) s := by
    refine .bind (.of_plain (.attempt (readsSteps_nextStep x).harmless.plain)) fun o s₁ _ ↦ ?_
    split
    · exact orderly_launchStep _ s₁
    · exact (Silent.of_plain (.ite (plain_terminate setup _ _ _ _)
        (plain_fail setup _ _ _ _))).orderly s₁
    · exact (Silent.of_plain (.ite (plain_fail setup _ _ _ _) (.throw _))).orderly s₁
  have hretry : Orderly (setup.retry x) s := by
    refine .bind (.of_plain (.store trivial)) fun left s₁ _ ↦ ?_
    split
    · exact .bind (.of_plain (harmless_readStep _).plain) fun y s₂ _ ↦ orderly_launchStep y s₂
    · exact (Silent.of_plain (plain_fail setup _ _ _ _)).orderly s₁
  have hfail : Orderly (setup.fail x.workflowInstanceUid x.runStatus x.name (failureReason x)) s :=
    (Silent.of_plain (plain_fail setup _ _ _ _)).orderly s
  unfold Setup.advance
  split
  · exact hleave
  · exact hleave
  · exact hretry
  · exact hretry
  · exact hfail
  · exact hfail
  all_goals exact (Silent.throw _).orderly s

theorem orderly_processRepeated (x : StepInstance) (m : StepResult) (s : Scene) :
    Orderly (setup.processRepeated x m) s := by
  have hawaits : Silent (awaitsFollowUp x) := .of_plain (readsSteps_awaitsFollowUp x).harmless.plain
  unfold Setup.processRepeated
  split
  · refine .bind (.of_plain (harmless_readRun _).plain) fun q s₁ _ ↦ ?_
    split
    · refine .bind hawaits fun awaits s₂ _ ↦ ?_
      split
      · exact orderly_advance x s₂
      · exact (Silent.pure _).orderly s₂
    · refine (Silent.bind hawaits fun awaits ↦ .of_asks (.ite ?_ (.pure _))).orderly s₁
      exact .store trivial
    · exact (Silent.pure _).orderly s₁
    · exact (Silent.of_plain (.ite (harmless_reportToParent _ _ _ _).plain (.pure _))).orderly s₁
  · exact (Silent.pure _).orderly s

theorem orderly_processResult (m : StepResult) (s : Scene) :
    Orderly (setup.processResult m) s := by
  have happly : ∀ x, Asks Call.isModest (applyResult x m) := by
    intro x
    unfold applyResult
    split
    · exact .pure _
    · refine .bind ⟨trivial, fun _ ↦ trivial⟩ fun time ↦ .bind (.store trivial) fun applied ↦
        .ite (.bind ?_ fun _ ↦ .bind ?_ fun _ ↦ .pure _) (.pure _)
      · exact (harmless_announce _).plain.mono fun _ ↦ Call.isModest_of_isPlain
      · exact (harmless_readStep _).plain.mono fun _ ↦ Call.isModest_of_isPlain
  refine .bind (.of_plain (harmless_readStep _).plain) fun x s₁ _ ↦
    .bind (.of_asks (happly x)) fun applied s₂ _ ↦ ?_
  split
  · exact orderly_processRepeated x m s₂
  · refine .bind (.of_plain (harmless_readRun _).plain) fun q s₃ _ ↦ ?_
    split
    · exact (Silent.pure _).orderly s₃
    split
    · exact (Silent.of_asks (.store trivial)).orderly s₃
    · exact orderly_advance _ s₃

theorem orderly_processOutcome (o : DeploymentOutcome) (s : Scene) :
    Orderly (setup.processOutcome o) s := by
  unfold Setup.processOutcome
  split
  · refine .bind (.of_plain (plain_writeRunStatus _ _ _)) fun moved s₁ _ ↦
      .bind (.of_plain (harmless_firstStep _).plain) fun first s₂ _ ↦ ?_
    split
    · exact orderly_launchStep first s₂
    · refine .bind (.of_plain (harmless_readRun _).plain) fun q s₃ _ ↦ ?_
      split
      · exact orderly_launchStep first s₃
      · exact (Silent.pure _).orderly s₃
  · refine (Silent.of_plain ?_).orderly s
    exact .bind (harmless_readRun _).plain fun q ↦ .ite (plain_fail setup _ _ _ _) (.pure _)

theorem orderly_consume (channel : Channel) (payload : String) (s : Scene) :
    Orderly (setup.consume channel payload) s := by
  unfold Setup.consume
  split
  · exact .bind (.of_asks (.ofExcept _)) fun m s₁ _ ↦ orderly_processResult m s₁
  · exact .bind (.of_asks (.ofExcept _)) fun o s₁ _ ↦ orderly_processOutcome o s₁
  · exact (Silent.throw _).orderly s
  · exact (Silent.throw _).orderly s

end Engine

end Orchestration
