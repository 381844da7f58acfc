import Orchestration.Proofs.Preparing

/-!
# Starts within starts

The first step of a run may start another workflow, whose first step may start another one again.
Whoever starts a workflow looks it up, and nobody else does, so the lookups of a log tell which
workflows are started, each within the start of the one before it (`startedIn`).

However starts are carried out, an execution of a launch starts at most one workflow (`Nests`). It
either is an execution whichever way workflows are started, or it has one start in the middle: what
is before and after that start does not depend on how it is carried out, as long as it comes to the
same. And where the start fails with an error that does not prevent a launch, everything ends with
this error.

The workflow that is started is one that the first step of the definition names
(`WorkflowCatalog.beginnings`), because a new run is launched at its first step and nothing has
happened to it before (`nests_startWith`).
-/

namespace Orchestration

/-- The workflows that a step may start, those of the cases of a decision in the order of their
names. -/
def StepStructure.workflowRefs : StepStructure → List Uid
  | .subWorkflow w => [w]
  | .switch _ cases =>
    cases.filterMap fun (_, target) ↦ match target with
      | .subWorkflow w => some w
      | .function _ => none
  | .simple _ | .doWhile .. => []

/-- The workflows that a run with these steps may begin with. -/
def beginningsOf (steps : List StepDefinition) : List Uid :=
  match sortDefinitions steps with
  | [] => []
  | first :: _ => first.shape.workflowRefs

namespace WorkflowCatalog

/-- The steps that a run of a workflow is made with. -/
def stepsOf? (k : WorkflowCatalog) (workflow : Uid) : Option (List StepDefinition) := do
  let definition ← k.find? workflow
  if definition.steps.isEmpty then (k.steps workflow).toOption else some definition.steps

/-- The workflows that a run of a workflow may begin with. -/
def beginnings (k : WorkflowCatalog) (workflow : Uid) : List Uid :=
  (k.stepsOf? workflow).elim [] beginningsOf

/-- Whether a catalog has an entry for a workflow. -/
def knows (k : WorkflowCatalog) (workflow : Uid) : Bool := (k.find? workflow).isSome

variable {k : WorkflowCatalog} {v w : Uid}

theorem find?_of_get {definition : WorkflowDefinition} (h : k.get v = .ok definition) :
    k.find? v = some definition := by
  unfold get at h
  split at h
  · next hfind => exact hfind.trans (congrArg some (Except.ok.inj h))
  · cases h

theorem stepsOf?_of_find? {definition : WorkflowDefinition} (h : k.find? v = some definition) :
    k.stepsOf? v = if definition.steps.isEmpty then (k.steps v).toOption else
      some definition.steps := by
  rw [stepsOf?, h]
  rfl

theorem knows_of_mem_beginnings (h : w ∈ k.beginnings v) : k.knows v = true := by
  unfold knows
  cases hfind : k.find? v with
  | some definition => rfl
  | none =>
    have hnone : k.stepsOf? v = none := by rw [stepsOf?, hfind]; rfl
    rw [beginnings, hnone] at h
    cases h

end WorkflowCatalog

namespace Engine

variable {α β : Type} {R : Rule} {setup : Setup} {startChild : StartChild} {s s' t : Scene}
  {l l₁ l₂ : List Moment} {us vs ws : List Uid} {n m : Nat} {step : StepInstance}

/-! ## What is started -/

/-- The workflow whose start a call begins. -/
def Call.starts? : Call → Option Uid
  | .getWorkflow w => some w
  | _ => none

/-- The workflows that are started in a log, each within the start of the one before it. -/
def startedIn (l : List Moment) : List Uid := l.filterMap (·.call.starts?)

@[simp] theorem startedIn_append (l₁ l₂ : List Moment) :
    startedIn (l₁ ++ l₂) = startedIn l₁ ++ startedIn l₂ := List.filterMap_append

/-- From one scene to another these workflows are started, and no more than so many runs are
made. -/
structure Passes (us : List Uid) (n : Nat) (s : Scene) (l : List Moment) (s' : Scene) : Prop where
  started : startedIn l = us
  made : s'.made.length ≤ s.made.length + n

theorem Passes.trans (h₁ : Passes us n s l₁ t) (h₂ : Passes vs m t l₂ s') :
    Passes (us ++ vs) (m + n) s (l₁ ++ l₂) s' where
  started := by rw [startedIn_append, h₁.started, h₂.started]
  made := by
    have hfirst := h₁.made
    have hrest := h₂.made
    omega

/-- Whether a call neither begins a start nor makes a run. -/
def Call.isLocal : Call → Prop
  | .getWorkflow _ | .store (.insertRun ..) => False
  | _ => True

/-- An action begins no start and makes no run. -/
abbrev Local (a : Action α) : Prop := Asks Call.isLocal a

theorem Plain.isLocal {a : Action α} (h : Plain a) : Local a := by
  refine h.mono fun c hc ↦ ?_
  cases c with
  | store c =>
    cases c with
    | insertRun => exact hc.elim
    | _ => trivial
  | getWorkflow => exact hc.elim
  | _ => trivial

theorem Harmless.isLocal {a : Action α} (h : Harmless a) : Local a := h.plain.isLocal

theorem Scene.made_after_of_isLocal {c : Call} (hc : c.isLocal) (answer : c.Answer) :
    (s.after c answer).made = s.made := by
  cases c with
  | store c =>
    cases c with
    | insertRun => exact hc.elim
    | _ => exact List.append_nil _
  | publish channel payload =>
    show (s.publish channel payload _).made = s.made
    unfold Scene.publish
    split
    · rfl
    · rfl
  | _ => rfl

theorem Local.passes {a : Action α} (ha : Local a) {r : Except EngineError α}
    (h : Logs R a s l r s') : Passes [] 0 s l s' where
  started := List.filterMap_eq_nil_iff.2 fun moment hm ↦ by
    have hlocal := ha.makes h moment hm
    unfold Call.starts?
    split
    · next hcall =>
      rw [hcall] at hlocal
      exact hlocal.elim
    · rfl
  made := (ha.keeps (R := R) (I := fun t ↦ t.made.length ≤ s.made.length + 0)
    (fun c t hc answer ht ↦ by rwa [t.made_after_of_isLocal hc answer]) (Nat.le_refl _) h.runs)

theorem local_dispatchFunction (setup : Setup) (step : StepInstance)
    (input : Json.Object) (f : Uid) : Local (setup.dispatchFunction step input f) := by
  have hhand : ∀ running info, Local (setup.handOver running input info) := by
    intro running info
    unfold Setup.handOver
    split
    · exact ⟨trivial, fun _ ↦ trivial⟩
    · unfold Setup.push
      split
      · exact .throw _
      · exact .bind ⟨trivial, fun _ ↦ trivial⟩ fun _ ↦ .ite (.pure _) (.throw _)
  refine .bind ⟨trivial, fun _ ↦ trivial⟩ fun info ↦ .bind (plain_launchAttempt _ _).isLocal
    fun running ↦ .bind (.attempt (hhand running info)) fun o ↦ ?_
  split
  · exact .pure _
  · exact (harmless_publishResult _).isLocal

theorem local_lookUpFunctions (refs : List (Uid × String)) :
    Local (Setup.lookUpFunctions refs) := by
  induction refs with
  | nil => exact .pure _
  | cons ref rest ih =>
    refine .bind (.attempt ⟨trivial, fun _ ↦ trivial⟩) fun found ↦ ?_
    split
    · exact .bind ih fun _ ↦ .pure _
    · exact .ite (.pure _) (.throw _)

theorem local_requestDeployments (functions : List FunctionInfo) :
    Local (Setup.requestDeployments functions) := by
  induction functions with
  | nil => exact .pure _
  | cons f rest ih => exact .ite ih (.bind ⟨trivial, fun _ ↦ trivial⟩ fun _ ↦ ih)

theorem local_settle (setup : Setup) (step : StepInstance) (o : Except EngineError Unit) :
    Local (setup.settle step o) := by
  cases o with
  | ok _ => exact .pure _
  | error e => exact .ite (plain_fail setup _ _ _ _).isLocal (.throw _)

/-! ## At most one start -/

/-- How an execution goes of an action that may start one of the workflows `ws` within it. Up to
there the workflows `us` are started and no more than `n` runs are made, and nothing is started or
made afterwards. -/
inductive Nests (R : Rule) (us : List Uid) (n : Nat) (ws : List Uid) (a : StartChild → Action α)
    (startChild : StartChild) (s : Scene) (l : List Moment)
    (r : Except EngineError α) (s' : Scene) :
    Prop where
  | alone (passes : Passes us n s l s') (same : ∀ start, Logs R (a start) s l r s')
  | around {w p ps : Uid} {i : Json.Object} {before inner after : List Moment} {t t' : Scene}
      {o : Except EngineError Unit} (starts : w ∈ ws) (log : l = before ++ (inner ++ after))
      (first : Passes us n s before t) (last : Passes [] 0 t' after s')
      (child : Logs R (startChild w i p ps) t inner o t')
      (same : ∀ start, Logs R (start w i p ps) t inner o t' → Logs R (a start) s l r s')
      (stop : ∀ start e, Setup.preventsLaunch e = false →
        Logs R (start w i p ps) t [] (.error e) t → Logs R (a start) s before (.error e) t)

theorem Nests.after {b : Action β} {a : β → StartChild → Action α} {x : β}
    {r : Except EngineError α} (hb : Logs R b s l₁ (.ok x) t) (hpasses : Passes us n s l₁ t)
    (h : Nests R vs m ws (a x) startChild t l₂ r s') :
    Nests R (us ++ vs) (m + n) ws (fun start ↦ b >>= fun x ↦ a x start) startChild s (l₁ ++ l₂)
      r s' := by
  cases h with
  | alone passes same =>
    exact .alone (hpasses.trans passes) fun start ↦
      logs_bind.2 (.inr ⟨_, _, x, t, rfl, hb, same start⟩)
  | around starts log first last child same stop =>
    subst log
    refine .around starts (List.append_assoc _ _ _).symm (hpasses.trans first) last child
      (fun start h ↦ ?_) fun start e he h ↦ ?_
    · exact logs_bind.2 (.inr ⟨_, _, x, t, rfl, hb, same start h⟩)
    · exact logs_bind.2 (.inr ⟨_, _, x, t, rfl, hb, stop start e he h⟩)

/-- What comes before the part of an action that may start a workflow may fail. -/
theorem Nests.of_error {b : Action β} {a : β → StartChild → Action α} {e : EngineError}
    (hb : Logs R b s l (.error e) s') (hpasses : Passes us n s l s') :
    Nests R us n ws (fun start ↦ b >>= fun x ↦ a x start) startChild s l (.error e) s' :=
  .alone hpasses fun _ ↦ logs_bind.2 (.inl ⟨e, hb, rfl⟩)

theorem logs_settled {a : Action Unit} {r : Except EngineError Unit} :
    Logs R (Action.attempt a >>= setup.settle step) s l r s' ↔
      ∃ l₁ l₂ o t, l = l₁ ++ l₂ ∧ Logs R a s l₁ o t ∧ Logs R (setup.settle step o) t l₂ r s' := by
  constructor
  · intro h
    rcases logs_bind.1 h with ⟨e, h₁, -⟩ | ⟨l₁, l₂, o, t, rfl, h₁, h₂⟩
    · obtain ⟨_, -, ho⟩ := logs_attempt.1 h₁
      cases ho
    · obtain ⟨o', h₁, ho⟩ := logs_attempt.1 h₁
      obtain rfl := Except.ok.inj ho
      exact ⟨l₁, l₂, o, t, rfl, h₁, h₂⟩
  · rintro ⟨l₁, l₂, o, t, rfl, h₁, h₂⟩
    exact logs_bind.2 (.inr ⟨l₁, l₂, o, t, rfl, logs_attempt.2 ⟨o, h₁, rfl⟩, h₂⟩)

/-- An action starts at most one workflow, one of those that are given. -/
def StartsOnce (ws : List Uid) (a : StartChild → Action α) : Prop :=
  ∀ ⦃R startChild s l r s'⦄, Logs R (a startChild) s l r s' → Nests R [] 0 ws a startChild s l r s'

namespace StartsOnce

theorem ofLocal {a : Action α} (ha : Local a) : StartsOnce ws fun _ ↦ a :=
  fun _ _ _ _ _ _ h ↦ .alone (ha.passes h) fun _ ↦ h

theorem child {w : Uid} (hw : w ∈ ws) (i : Json.Object) (p ps : Uid) :
    StartsOnce ws fun start ↦ start w i p ps := by
  intro R startChild s l r s' h
  exact .around hw (List.append_nil l).symm ⟨rfl, Nat.le_refl _⟩ ⟨rfl, Nat.le_refl _⟩ h
    (fun _ h ↦ h) fun _ _ _ h ↦ h

theorem bind {b : Action β} {a : β → StartChild → Action α} (hb : Local b)
    (ha : ∀ x, StartsOnce ws (a x)) : StartsOnce ws fun start ↦ b >>= fun x ↦ a x start := by
  intro R startChild s l r s' h
  rcases logs_bind.1 h with ⟨e, h₁, rfl⟩ | ⟨l₁, l₂, x, t, rfl, h₁, h₂⟩
  · exact .of_error h₁ (hb.passes h₁)
  · exact .after h₁ (hb.passes h₁) (ha x h₂)

theorem andThen {a : StartChild → Action β} {f : β → Action α} (ha : StartsOnce ws a)
    (hf : ∀ x, Local (f x)) : StartsOnce ws fun start ↦ a start >>= f := by
  intro R startChild s l r s' h
  rcases logs_bind.1 h with ⟨e, h₁, rfl⟩ | ⟨l₁, l₂, x, t, rfl, h₁, h₂⟩
  · cases ha h₁ with
    | alone passes same => exact .alone passes fun start ↦ logs_bind.2 (.inl ⟨e, same start, rfl⟩)
    | around starts log first last child same stop =>
      exact .around starts log first last child
        (fun start h ↦ logs_bind.2 (.inl ⟨e, same start h, rfl⟩))
        fun start e he h ↦ logs_bind.2 (.inl ⟨e, stop start e he h, rfl⟩)
  · have hrest := (hf x).passes h₂
    cases ha h₁ with
    | alone passes same =>
      exact .alone (passes.trans hrest) fun start ↦
        logs_bind.2 (.inr ⟨_, _, x, t, rfl, same start, h₂⟩)
    | around starts log first last child same stop =>
      subst log
      refine .around starts (by simp only [List.append_assoc]) first (last.trans hrest) child
        (fun start h ↦ ?_) fun start e he h ↦ logs_bind.2 (.inl ⟨e, stop start e he h, rfl⟩)
      exact logs_bind.2 (.inr ⟨_, _, x, t, rfl, same start h, h₂⟩)

/-- Whatever comes of a start, the launch around it starts nothing else. -/
theorem settled {a : StartChild → Action Unit} (ha : StartsOnce ws a) (setup : Setup)
    (step : StepInstance) :
    StartsOnce ws fun start ↦ Action.attempt (a start) >>= setup.settle step := by
  intro R startChild s l r s' h
  obtain ⟨l₁, l₂, o, t, rfl, h₁, h₂⟩ := logs_settled.1 h
  have hrest := (local_settle setup step o).passes h₂
  cases ha h₁ with
  | alone passes same =>
    exact .alone (passes.trans hrest) fun start ↦ logs_settled.2 ⟨_, _, o, t, rfl, same start, h₂⟩
  | around starts log first last child same stop =>
    subst log
    refine .around starts (by simp only [List.append_assoc]) first (last.trans hrest) child
      (fun start h ↦ logs_settled.2 ⟨_, _, o, t, rfl, same start h, h₂⟩) fun start e he h ↦ ?_
    refine logs_settled.2 ⟨_, [], _, _, (List.append_nil _).symm, stop start e he h, ?_⟩
    rw [settle_of_not_preventsLaunch he]
    exact ⟨rfl, rfl, rfl⟩

end StartsOnce

/-! ## Launching -/

theorem startsOnce_startSubWorkflow {w : Uid} (hw : w ∈ ws) (step : StepInstance)
    (input : Json.Object) : StartsOnce ws fun start ↦ Setup.startSubWorkflow start step input w :=
  .bind (plain_launchAttempt _ _).isLocal fun running ↦
    .child hw input running.workflowInstanceUid running.uid

theorem startsOnce_tryLaunch (setup : Setup) (step : StepInstance) :
    StartsOnce step.shape.workflowRefs fun start ↦ setup.tryLaunch start step := by
  refine .bind (harmless_normalize _ _ _).isLocal fun input ↦ ?_
  cases hshape : step.shape with
  | simple f => exact .ofLocal (local_dispatchFunction setup step input f)
  | doWhile f text => exact .ofLocal (local_dispatchFunction setup step input f)
  | subWorkflow w => exact startsOnce_startSubWorkflow (List.mem_singleton_self w) step input
  | switch expression cases =>
    refine .bind (harmless_evaluateSwitch _ _).isLocal fun value ↦ ?_
    cases hchoice : chooseCase cases value with
    | error e => exact .ofLocal (.throw e)
    | ok choice =>
      obtain ⟨name, target⟩ := choice
      refine .bind (b := Action.store (.setSelectedCase step.uid name)) (.store trivial) fun _ ↦ ?_
      cases target with
      | function f => exact .ofLocal (local_dispatchFunction setup step input f)
      | subWorkflow w =>
        have hw : w ∈ (StepStructure.switch expression cases).workflowRefs :=
          List.mem_filterMap.2 ⟨_, mem_of_chooseCase hchoice, rfl⟩
        exact startsOnce_startSubWorkflow hw step input

/-- **A launch starts at most one workflow**, and only one that its step names. -/
theorem startsOnce_launch (setup : Setup) (step : StepInstance) :
    StartsOnce step.shape.workflowRefs fun start ↦ setup.launch start step := by
  simp only [launch_eq]
  exact (startsOnce_tryLaunch setup step).settled setup step

theorem startsOnce_prepareFunctions (setup : Setup) (run : Uid) (steps : List StepDefinition)
    (first : StepInstance) :
    StartsOnce first.shape.workflowRefs fun start ↦ setup.prepareFunctions start run steps
      first := by
  refine .bind (local_lookUpFunctions _) fun found ↦ ?_
  cases found with
  | error failure =>
    exact .ofLocal (a := setup.terminate run .failedWithTerminalError (some failure) none)
      (plain_terminate setup _ _ _ _).isLocal
  | ok undeployed =>
    dsimp only
    split
    · exact .ofLocal (plain_fail setup _ _ _ _).isLocal
    split
    · exact .bind (plain_updateRunStatus _ _).isLocal fun _ ↦ startsOnce_launch setup first
    · exact .ofLocal (.bind (local_requestDeployments _) fun _ ↦
        .bind (plain_updateRunStatus _ _).isLocal fun _ ↦ ⟨trivial, fun _ ↦ trivial⟩)

/-! ## Starting -/

variable {k : WorkflowCatalog} {definition : WorkflowDefinition} {steps : List StepDefinition}
  {run workflow : Uid} {input : Json.Object} {parent parentStep : Option Uid}
  {r : Except EngineError RunSnapshot}

theorem nests_startRun {first : StepInstance} {rest : List StepInstance} (hk : s.tables.Keyed)
    (hnew : IsNew s run) (hchain : s.tables.chainOf run = first :: rest)
    (hheaded : Chain.Headed (first :: rest))
    (h : Logs R (setup.startRun startChild run definition steps) s l r s') :
    Nests R [] 0 first.shape.workflowRefs (fun start ↦ setup.startRun start run definition steps)
      startChild s l r s' := by
  have hstart := (harmless_setRunStartTime run).isLocal
  have hfirst : Local (Action.attempt (firstStep run)) := (harmless_firstStep run).isLocal.attempt
  have hstate := (harmless_state run).isLocal
  rcases logs_bind.1 h with ⟨e, h₁, rfl⟩ | ⟨l₁, l₂, _, s₁, rfl, h₁, h₂⟩
  · exact .of_error h₁ (hstart.passes h₁)
  refine .after h₁ (hstart.passes h₁) ?_
  -- That the start is noted changes no step.
  have hfinds : Finds s₁.tables (Action.attempt (firstStep run)) (.ok (.ok first)) := by
    refine finds_attempt.2 ⟨_, finds_firstStep ?_ hheaded, rfl⟩
    obtain ⟨time, l₀, -, h₀⟩ := Logs.of_now h₁
    obtain ⟨t, hwrites, -, hsteps, -⟩ := writes_setRunStartTime_of_isNew hk hnew time
    obtain ⟨-, rfl⟩ := hwrites rfl h₀.runs
    rw [Store.Tables.chainOf, hsteps]
    exact hchain
  rcases logs_bind.1 h₂ with ⟨e, h₃, -⟩ | ⟨l₃, l₄, found, s₂, rfl, h₃, h₄⟩
  · cases (hfinds.of_runs h₃.runs).1
  obtain rfl := Except.ok.inj (hfinds.of_runs h₃.runs).1
  refine .after h₃ (hfirst.passes h₃) ?_
  have hbegin : StartsOnce first.shape.workflowRefs fun start ↦
      if first.shape.control = .subWorkflow then
        updateRunStatus run .running >>= fun _ ↦ setup.launch start first >>= fun _ ↦ state run
      else setup.prepareFunctions start run steps first >>= fun _ ↦ state run := by
    split
    · exact .bind (plain_updateRunStatus _ _).isLocal fun _ ↦
        (startsOnce_launch setup first).andThen fun _ ↦ hstate
    · exact (startsOnce_prepareFunctions setup run steps first).andThen fun _ ↦ hstate
  exact hbegin h₄

/-- The catalog of workflows answers what it has, or it fails. -/
structure Supplies (R : Rule) (k : WorkflowCatalog) : Prop where
  workflow : ∀ w definition, R (.getWorkflow w) (.ok definition) → k.get w = .ok definition
  steps : ∀ w steps, R (.getStepList w) (.ok steps) → k.steps w = .ok steps

theorem Supplies.stepsOf?_eq (hk : Supplies R k) (hfind : k.find? workflow = some definition)
    {o : Except EngineError (List StepDefinition)}
    (h : Logs R (Setup.stepsOf definition workflow) s l o s') :
    s' = s ∧ (o = .ok steps → k.stepsOf? workflow = some steps) := by
  rw [WorkflowCatalog.stepsOf?_of_find? hfind]
  unfold Setup.stepsOf at h
  by_cases hempty : definition.steps.isEmpty = true
  · rw [if_pos hempty] at h ⊢
    obtain ⟨-, hR, rfl⟩ := logs_getStepList.1 h
    refine ⟨rfl, ?_⟩
    rintro rfl
    rw [hk.steps _ _ hR]
    rfl
  · rw [if_neg hempty] at h ⊢
    obtain ⟨-, rfl, rfl⟩ := logs_pure.1 h
    exact ⟨rfl, fun ho ↦ congrArg some (Except.ok.inj ho)⟩

/-- A run is made with its steps, and begins with the first of them. -/
theorem nests_made (hs : Grounded s)
    (h : Logs R (generate definition steps input parent parentStep >>= fun made ↦
      setup.startRun startChild made.1.uid definition steps) s l r s') :
    Nests R [] 1 (beginningsOf steps) (fun start ↦ generate definition steps input
      parent parentStep >>= fun made ↦ setup.startRun start made.1.uid definition steps) startChild
      s l r s' := by
  have hstarted : ∀ {l o s'}, Logs R (generate definition steps input parent parentStep) s l o s' →
      startedIn l = [] := fun h ↦ List.filterMap_eq_nil_iff.2 <|
    (asks_generate (φ := fun c ↦ c.starts? = none) rfl rfl (fun _ _ ↦ rfl) _ _ _ _ _).makes h
  rcases logs_bind.1 h with ⟨e, h₁, rfl⟩ | ⟨l₁, l₂, made, s₁, rfl, h₁, h₂⟩
  · rcases generated_of_generate hs h₁.runs with ⟨-, rfl⟩ | ⟨_, he, -⟩
    · exact .of_error h₁ ⟨hstarted h₁, Nat.le_succ _⟩
    · cases he
  have hne : steps ≠ [] := by
    rcases runs_generate_cases h₁.runs with ⟨-, he, -⟩ | ⟨_, _, _, _, _, hne, -⟩
    · cases he
    · exact hne
  obtain ⟨_, uids, hmade, hgen, hlen, hbuilt⟩ := built_of_generate hs hne h₁.runs
  obtain rfl := Except.ok.inj hmade
  have hmaking : Passes [] 1 s l₁ s₁ := by
    refine ⟨hstarted h₁, ?_⟩
    rw [hgen.made, List.length_append]
    exact Nat.le_refl _
  refine .after h₁ hmaking ?_
  have hheaded := Chain.headed_buildStepInstances made.1.uid input hlen hne
  unfold beginningsOf
  cases hsorted : sortDefinitions steps with
  | nil =>
    have hlength := @Chain.length_sortDefinitions steps
    rw [hsorted] at hlength
    exact absurd (List.eq_nil_of_length_eq_zero hlength.symm) hne
  | cons d following =>
    obtain ⟨first, others, hcons, -, hshape⟩ :=
      buildStepInstances_eq_cons made.1.uid input hlen hsorted
    rw [hcons] at hheaded
    dsimp only
    rw [← hshape]
    exact nests_startRun hgen.keyed hgen.isNew (hgen.chain.trans (hbuilt.trans hcons)) hheaded h₂

/-- **A start makes at most one run, and starts at most one workflow within it**, which is one that
the run may begin with. A run is made only of a workflow that the catalog knows. -/
theorem nests_startWith (hs : Grounded s) (hk : Supplies R k)
    (h : Logs R (setup.startWith startChild workflow input parent parentStep) s l r s') :
    Nests R [workflow] ([workflow].countP k.knows) (k.beginnings workflow)
      (fun start ↦ setup.startWith start workflow input parent parentStep) startChild s l r s' := by
  rcases logs_bind.1 h with ⟨e, h₁, rfl⟩ | ⟨l₁, l', definition, s₁, rfl, h₁, h'⟩
  · refine .of_error h₁ ?_
    obtain ⟨rfl, -, rfl⟩ := logs_getWorkflow.1 h₁
    exact ⟨rfl, Nat.le_add_right _ _⟩
  have hlookup := h₁
  obtain ⟨rfl, hR, rfl⟩ := logs_getWorkflow.1 h₁
  have hfind := WorkflowCatalog.find?_of_get (hk.workflow _ _ hR)
  have hknows : [workflow].countP k.knows = 1 := by
    rw [List.countP_singleton, WorkflowCatalog.knows, hfind]
    rfl
  rw [hknows]
  have hlooking : Passes [workflow] 0 s₁ [⟨s₁, .getWorkflow workflow, .ok definition⟩] s₁ :=
    ⟨rfl, Nat.le_refl _⟩
  refine .after hlookup hlooking ?_
  have hlocal : Local (Setup.stepsOf definition workflow) :=
    .ite ⟨trivial, fun _ ↦ trivial⟩ (.pure _)
  rcases logs_bind.1 h' with ⟨e, h₂, rfl⟩ | ⟨l₂, l₃, steps, s₂, rfl, h₂, h₃⟩
  · obtain ⟨hstarted, hmade⟩ := hlocal.passes h₂
    exact .of_error h₂ ⟨hstarted, Nat.le_succ_of_le hmade⟩
  obtain ⟨rfl, hsteps⟩ := hk.stepsOf?_eq hfind h₂
  rw [WorkflowCatalog.beginnings, hsteps rfl]
  exact .after h₂ (hlocal.passes h₂) (nests_made hs h₃)

end Engine

end Orchestration
