import Orchestration.Proofs.ExpressionErrors
import Orchestration.Proofs.Orderly
import Orchestration.Proofs.Redelivery

/-!
# Steps that cannot be left or launched

A step is hindered in one of two ways. It cannot be left if what follows it cannot be told, because
its stop condition has no value. It cannot be launched if its input or its decision has no value, if
the decision falls on no case, or if what it is to launch is missing or has no steps (`Hindered`).

That this happens in the course of an operation cannot be told from how the operation ends, so it is
said of its executions. An execution meets with a hindrance if it comes to the leaving or to the
launch of a step that is hindered (`Meets`). What has been done before it comes there is of no
account. But an error that rises from there may be caught on its way: by the launch of the step that
has started the run of the hindered one, and by nobody else.

What hinders a step is an error of an expression, a thing that is missing, or a workflow without
steps. Two of these are taken for no reason to fail the run (`Overlooked`).
-/

namespace Orchestration

namespace Engine

variable {α β : Type} {R : Rule} {setup : Setup} {s s' s₀ s₁ : Scene} {x : StepInstance}
variable {run : Uid} {name : String} {e : EngineError} {r : Except EngineError Unit}

/-! ## What hinders a step -/

/-- How a launch starts sub-workflows where so many may start one another. -/
def Setup.child (setup : Setup) (depth : Nat) : StartChild :=
  fun workflow input parent parentStep ↦ do
    let _ ← setup.startNested depth workflow input (some parent) (some parentStep)

/-- An error that neither a launch nor the leaving of a step takes for a reason to fail the run: a
value has no document, or a workflow has no steps. -/
inductive Overlooked : EngineError → Prop where
  | noDocument : Overlooked .undecodable
  | noSteps (workflow : String) : Overlooked (.noSteps workflow)

/-- The launch of a step has come to what is to be launched, with the input of the step. The case of
a decision has been noted. -/
inductive Targets (x : StepInstance) (s : Scene) : CaseTarget → Json.Object → Scene → Prop where
  | function {f : Uid} {input : Json.Object}
      (hshape : x.shape = .simple f ∨ ∃ text, x.shape = .doWhile f text)
      (hinput : Finds s.tables (normalize x.inputData x.workflowInstanceUid (some x)) (.ok input)) :
      Targets x s (.function f) input s
  | subWorkflow {w : Uid} {input : Json.Object} (hshape : x.shape = .subWorkflow w)
      (hinput : Finds s.tables (normalize x.inputData x.workflowInstanceUid (some x)) (.ok input)) :
      Targets x s (.subWorkflow w) input s
  | case {expression : String} {cases : Dict CaseTarget} {input : Json.Object} {name : String}
      {target : CaseTarget} (hx : s.tables.step? x.uid = some x)
      (hshape : x.shape = .switch expression cases)
      (hd : Finds s.tables (decision x expression cases) (.ok (input, name, target))) :
      Targets x s target input
        { s with tables := s.tables.putStep { x with selectedCaseName := some name } }

/-- A workflow cannot be started because of its definition: it is missing, or has no steps. -/
inductive Unstartable (R : Rule) (w : Uid) : EngineError → Prop where
  | unknown {e : EngineError} (h : R (.getWorkflow w) (.error e)) (hkind : e.kind = .notFound) :
      Unstartable R w e
  | unlisted {definition : WorkflowDefinition} {e : EngineError}
      (h : R (.getWorkflow w) (.ok definition)) (hempty : definition.steps = [])
      (hlist : R (.getStepList w) (.error e)) (hkind : e.kind = .notFound) : Unstartable R w e
  | noSteps {definition : WorkflowDefinition} (h : R (.getWorkflow w) (.ok definition))
      (hempty : definition.steps = []) (hlist : R (.getStepList w) (.ok [])) :
      Unstartable R w (.noSteps definition.name)

/-- A step cannot be launched, where so many sub-workflows may start one another: its input has no
value, its decision has none or falls on no case, or what it is to launch is missing or has no
steps. A workflow that is to be started is looked up when the step is in its attempt. -/
inductive Hindered (R : Rule) (x : StepInstance) (s : Scene) :
    Nat → EngineError → Scene → Prop where
  | input {n : Nat} {e : EngineError}
      (h : Finds s.tables (normalize x.inputData x.workflowInstanceUid (some x)) (.error e)) :
      Hindered R x s n e s
  | decision {n : Nat} {expression : String} {cases : Dict CaseTarget} {e : EngineError}
      (hshape : x.shape = .switch expression cases)
      (h : Finds s.tables (decision x expression cases) (.error e)) : Hindered R x s n e s
  | function {n : Nat} {f : Uid} {input : Json.Object} {e : EngineError} {s₁ : Scene}
      (htarget : Targets x s (.function f) input s₁) (h : R (.getFunction f) (.error e))
      (hkind : e.kind = .notFound) : Hindered R x s n e s₁
  | subWorkflow {n : Nat} {w : Uid} {input : Json.Object} {y : StepInstance} {e : EngineError}
      {s₁ s₂ : Scene} (htarget : Targets x s (.subWorkflow w) input s₁)
      (hattempt : Runs R (launchAttempt x input) s₁ (.ok y) s₂) (h : Unstartable R w e) :
      Hindered R x s (n + 1) e s₂

theorem OfExpression.prevents_or_overlooked (h : OfExpression e) :
    Setup.preventsLaunch e = true ∨ Overlooked e := by
  rcases h with hconfig | rfl
  · left
    unfold Setup.preventsLaunch
    rw [hconfig, Bool.true_or]
  · exact .inr .noDocument

theorem preventsLaunch_of_notFound (h : e.kind = .notFound) : Setup.preventsLaunch e = true := by
  unfold Setup.preventsLaunch
  rw [h]
  exact Bool.or_true _

theorem Overlooked.not_preventsLaunch (h : Overlooked e) : Setup.preventsLaunch e = false := by
  cases h with
  | noDocument | noSteps => rfl

theorem Overlooked.not_isConfiguration (h : Overlooked e) : e.isConfiguration = false := by
  cases h with
  | noDocument | noSteps => rfl

/-- Looking for the case of a decision fails with an error of an expression, or falls on no case. -/
theorem failsWith_decision (n : StepInstance) (expression : String) (cases : Dict CaseTarget) :
    FailsWith (fun e ↦ Setup.preventsLaunch e = true ∨ Overlooked e)
      (decision n expression cases) :=
  .bind (fun _ _ h ↦ (failsWith_normalize _ _ _ h).prevents_or_overlooked) fun _ ↦
    .bind (fun _ _ h ↦ (failsWith_evaluateSwitch _ _ h).prevents_or_overlooked) fun _ ↦
      .bind (.ofExcept fun _ h ↦ .inl (preventsLaunch_of_chooseCase h)) fun _ ↦ .pure _

theorem Hindered.prevents_or_overlooked {n : Nat} (h : Hindered R x s n e s₁) :
    Setup.preventsLaunch e = true ∨ Overlooked e := by
  cases h with
  | input h => exact (failsWith_normalize _ _ _ h).prevents_or_overlooked
  | decision _ h => exact failsWith_decision _ _ _ h
  | function _ _ hkind => exact .inl (preventsLaunch_of_notFound hkind)
  | subWorkflow _ _ h =>
    cases h with
    | unknown _ hkind => exact .inl (preventsLaunch_of_notFound hkind)
    | unlisted _ _ _ hkind => exact .inl (preventsLaunch_of_notFound hkind)
    | noSteps => exact .inr (.noSteps _)

/-- What hinders the leaving of a step lies in its configuration, unless it is overlooked. -/
theorem isConfiguration_of_nextStep {t : Store.Tables} (h : Finds t (nextStep x) (.error e))
    (he : ¬Overlooked e) : e.isConfiguration = true :=
  (failsWith_nextStep x h).resolve_right fun hno ↦ he (hno ▸ .noDocument)

/-! ## What a hindered launch leaves -/

/-- Nothing has come of what was done: every run is as it was, none has been made, and no work has
been handed over. -/
structure Fruitless (s s' : Scene) : Prop where
  runs : s'.tables.runs = s.tables.runs
  made : s'.made = s.made
  handOvers : s'.handOvers = s.handOvers

theorem Fruitless.refl (s : Scene) : Fruitless s s := ⟨rfl, rfl, rfl⟩

theorem Fruitless.trans {s₂ : Scene} (h : Fruitless s s₁) (h' : Fruitless s₁ s₂) : Fruitless s s₂ :=
  ⟨h'.runs.trans h.runs, h'.made.trans h.made, h'.handOvers.trans h.handOvers⟩

theorem Targets.fruitless {target : CaseTarget} {input : Json.Object}
    (h : Targets x s target input s₁) : Fruitless s s₁ := by
  cases h with
  | function | subWorkflow => exact .refl s
  | case => exact ⟨rfl, rfl, rfl⟩

theorem fruitless_launchAttempt {input : Json.Object} {o : Except EngineError StepInstance}
    (h : Runs R (launchAttempt x input) s o s') : Fruitless s s' := by
  obtain ⟨time, h⟩ := Runs.of_now h
  have hstore : Fruitless s (s.afterStore (.launchStep x.uid input time)) :=
    ⟨runs_onStep x.uid _, List.append_nil _, rfl⟩
  rcases runs_bind.1 h with ⟨_, h₁, -⟩ | ⟨_, s₁, h₁, h₂⟩
  · obtain ⟨-, -, rfl⟩ := runs_store.1 h₁
    exact hstore
  obtain ⟨-, -, rfl⟩ := runs_store.1 h₁
  rcases runs_bind.1 h₂ with ⟨_, h₃, -⟩ | ⟨_, _, h₃, h₄⟩
  · rw [still_announceStep _ _ h₃]
    exact hstore
  · rw [still_readStep _ h₄, still_announceStep _ _ h₃]
    exact hstore

theorem Hindered.fruitless {n : Nat} (h : Hindered R x s n e s₁) : Fruitless s s₁ := by
  cases h with
  | input | decision => exact .refl s
  | function htarget => exact htarget.fruitless
  | subWorkflow htarget hattempt => exact htarget.fruitless.trans (fruitless_launchAttempt hattempt)

theorem Targets.runs_tryLaunch (hR : Lenient R) {child : StartChild} {target : CaseTarget}
    {input : Json.Object} (h : Targets x s target input s₁)
    (hlaunch : Runs R (launchCase setup child x input target) s₁ r s') :
    Runs R (setup.tryLaunch child x) s r s' := by
  cases h with
  | function hshape hinput =>
    rw [tryLaunch_of_function _ _ hshape]
    exact hR.found hinput hlaunch
  | subWorkflow hshape hinput =>
    rw [tryLaunch_of_subWorkflow _ _ hshape]
    exact hR.found hinput hlaunch
  | case hx hshape hd =>
    rw [tryLaunch_of_switch _ _ hshape]
    exact hR.found hd ((hR.written (writes_setSelectedCase hx _)).andThen hlaunch)

theorem Unstartable.runs_child {w run step : Uid} {input : Json.Object} (h : Unstartable R w e)
    (n : Nat) : Runs R (setup.child (n + 1) w input run step) s (.error e) s := by
  have hlisted : ∀ {definition : WorkflowDefinition} {o}, definition.steps = [] →
      R (.getStepList w) o → Runs R (Setup.stepsOf definition w) s o s := by
    intro definition o hempty hlist
    unfold Setup.stepsOf
    rw [hempty]
    exact runs_getStepList.2 ⟨hlist, rfl⟩
  have hstart : Runs R (setup.startWith (setup.child n) w input (some run) (some step)) s
      (.error e) s := by
    cases h with
    | unknown h => exact runs_bind.2 (.inl ⟨e, runs_getWorkflow.2 ⟨h, rfl⟩, rfl⟩)
    | unlisted h hempty hlist =>
      refine (runs_getWorkflow.2 ⟨h, rfl⟩).andThen ?_
      exact runs_bind.2 (.inl ⟨e, hlisted hempty hlist, rfl⟩)
    | noSteps h hempty hlist =>
      refine (runs_getWorkflow.2 ⟨h, rfl⟩).andThen ((hlisted hempty hlist).andThen ?_)
      exact runs_bind.2 (.inl ⟨_, runs_bind.2 (.inl ⟨_, runs_throw.2 ⟨rfl, rfl⟩, rfl⟩), rfl⟩)
  exact runs_bind.2 (.inl ⟨e, hstart, rfl⟩)

theorem Hindered.runs_tryLaunch (hR : Lenient R) {n : Nat} (h : Hindered R x s n e s₁) :
    Runs R (setup.tryLaunch (setup.child n) x) s (.error e) s₁ := by
  cases h with
  | input h => exact runs_bind.2 (.inl ⟨e, h.runs hR.store, rfl⟩)
  | decision hshape h =>
    rw [tryLaunch_of_switch _ _ hshape]
    exact runs_bind.2 (.inl ⟨e, h.runs hR.store, rfl⟩)
  | function htarget h =>
    exact htarget.runs_tryLaunch hR (runs_bind.2 (.inl ⟨e, runs_getFunction.2 ⟨h, rfl⟩, rfl⟩))
  | subWorkflow htarget hattempt h =>
    exact htarget.runs_tryLaunch hR (hattempt.andThen (h.runs_child _))

/-! ## Meeting with a hindered step -/

theorem settle_of_overlooked (h : Overlooked e) : setup.settle x (.error e) = throw e :=
  settle_of_not_preventsLaunch h.not_preventsLaunch

theorem goOn_of_isConfiguration (h : e.isConfiguration = true) :
    goOn setup x (.error e) = setup.fail x.workflowInstanceUid .failed x.name e.message := if_pos h

theorem goOn_of_overlooked (h : Overlooked e) : goOn setup x (.error e) = throw e :=
  if_neg (by simp [h.not_isConfiguration])

/-- The launch or the leaving of a step that is hindered: the run of the step, its name, the error,
and how it ends. -/
inductive Halts (R : Rule) (setup : Setup) (s : Scene) :
    Uid → String → EngineError → Action Unit → Except EngineError Unit → Scene → Prop where
  | launch {x : StepInstance} {n : Nat} {e : EngineError} {s₁ s' : Scene}
      {r : Except EngineError Unit} (h : Hindered R x s n e s₁)
      (hsettle : Runs R (setup.settle x (.error e)) s₁ r s') :
      Halts R setup s x.workflowInstanceUid x.name e (setup.launch (setup.child n) x) r s'
  | leave {x : StepInstance} {e : EngineError} {s' : Scene} {r : Except EngineError Unit}
      (h : Finds s.tables (nextStep x) (.error e))
      (hsettle : Runs R (goOn setup x (.error e)) s r s') :
      Halts R setup s x.workflowInstanceUid x.name e (setup.leave x) r s'

/-- An execution meets with a step of a run that is hindered, in a scene that it comes to on its
way. It does so in the first part of what it carries out, which may fail or be gone on from, in what
comes later, or below a step that it launches. -/
inductive Meets (R : Rule) (setup : Setup) (s₀ : Scene) (run : Uid) (name : String)
    (e : EngineError) : {α : Type} → Action α → Scene → Except EngineError α → Scene → Prop where
  | here {a : Action Unit} {r : Except EngineError Unit} {s' : Scene}
      (h : Halts R setup s₀ run name e a r s') : Meets R setup s₀ run name e a s₀ r s'
  | fails {α β : Type} {a : Action α} {f : α → Action β} {d : EngineError} {s s' : Scene}
      (h : Meets R setup s₀ run name e a s (.error d) s') :
      Meets R setup s₀ run name e (a >>= f) s (.error d) s'
  | first {α β : Type} {a : Action α} {f : α → Action β} {x : α} {r : Except EngineError β}
      {s s₁ s' : Scene} (h : Meets R setup s₀ run name e a s (.ok x) s₁)
      (hrest : Runs R (f x) s₁ r s') : Meets R setup s₀ run name e (a >>= f) s r s'
  | later {α β : Type} {a : Action α} {f : α → Action β} {x : α} {r : Except EngineError β}
      {s s₁ s' : Scene} (hfirst : Runs R a s (.ok x) s₁)
      (h : Meets R setup s₀ run name e (f x) s₁ r s') : Meets R setup s₀ run name e (a >>= f) s r s'
  | nested {x : StepInstance} {n : Nat} {o r : Except EngineError Unit} {s s₁ s' : Scene}
      (h : Meets R setup s₀ run name e (setup.tryLaunch (setup.child n) x) s o s₁)
      (hsettle : Runs R (setup.settle x o) s₁ r s') :
      Meets R setup s₀ run name e (setup.launch (setup.child n) x) s r s'

theorem Halts.runs (hR : Lenient R) {a : Action Unit} (h : Halts R setup s run name e a r s') :
    Runs R a s r s' := by
  cases h with
  | launch h hsettle => exact runs_launch_iff.2 ⟨_, _, h.runs_tryLaunch hR, hsettle⟩
  | leave h hsettle =>
    rw [leave_eq]
    exact runs_attempt_bind.2 ⟨_, _, h.runs hR.store, hsettle⟩

theorem Meets.runs (hR : Lenient R) {a : Action α} {r : Except EngineError α}
    (h : Meets R setup s₀ run name e a s r s') : Runs R a s r s' := by
  induction h with
  | here h => exact h.runs hR
  | fails _ ih => exact runs_bind.2 (.inl ⟨_, ih, rfl⟩)
  | first _ hrest ih => exact ih.andThen hrest
  | later hfirst _ ih => exact hfirst.andThen ih
  | nested _ hsettle ih => exact runs_launch_iff.2 ⟨_, _, ih, hsettle⟩

end Engine

end Orchestration
