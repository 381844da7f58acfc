import Mathlib.Data.List.Chain
import Mathlib.Data.List.Perm.Subperm
import Mathlib.Logic.Relation
import Orchestration.Proofs.Nesting

/-!
# Starts that go round in circles

Nobody checks the catalog for workflows that begin with one another, so a start need not come to an
end. That it does is said with the limit on how many workflows may start one another: a start
returns if it goes the same way at every limit beyond a bound (`Setup.Returns`), so that no limit
has cut it off.

The workflows that are started one within another are a walk along the first steps of the catalog,
and either the start returns or the walk is as long as the limit (`descent_of_startNested`, by
induction on the limit). A walk in a catalog of `n` workflows that is longer than `n` comes back to
where it has been. So a start returns unless it starts a workflow for the second time, and it always
does if no circle can be reached (`start_returns`).

A circle of steps without input is one that is gone round for ever (`runs_startNested_of_circle`).
-/

namespace Orchestration

namespace WorkflowCatalog

variable {k : WorkflowCatalog} {u v w : Uid} {us : List Uid}

/-- A run of a workflow may begin with another workflow. -/
def BeginsWith (k : WorkflowCatalog) (v w : Uid) : Prop := w ∈ k.beginnings v

/-- A run of a workflow begins with another workflow, and has no input for it. -/
def HandsOn (k : WorkflowCatalog) (v w : Uid) : Prop :=
  ∃ steps first rest, k.stepsOf? v = some steps ∧ sortDefinitions steps = first :: rest ∧
    first.shape = .subWorkflow w ∧ first.inputData = []

theorem mem_of_knows (h : k.knows v = true) : v ∈ k.workflows.map (·.uid) := by
  obtain ⟨definition, hfind⟩ := Option.isSome_iff_exists.1 h
  have huid : definition.uid = v := by simpa using List.find?_some hfind
  exact huid ▸ List.mem_map_of_mem (List.mem_of_find?_eq_some hfind)

theorem length_le_of_nodup (hnd : us.Nodup) (hus : ∀ v ∈ us, k.knows v = true) :
    us.length ≤ k.workflows.length := by
  simpa using (hnd.subperm fun v hv ↦ mem_of_knows (hus v hv)).length_le

theorem countP_le_of_nodup (hnd : us.Nodup) : us.countP k.knows ≤ k.workflows.length := by
  rw [List.countP_eq_length_filter]
  exact length_le_of_nodup (hnd.filter _) fun v hv ↦ (List.mem_filter.1 hv).2

theorem nodup_of_isChain (hchain : us.IsChain k.BeginsWith) (hhead : ∀ v ∈ us.head?, v = u)
    (hcircle : ∀ v, Relation.ReflTransGen k.BeginsWith u v → ¬Relation.TransGen k.BeginsWith v v) :
    us.Nodup := by
  have hreach : ∀ v ∈ us, Relation.ReflTransGen k.BeginsWith u v := by
    refine hchain.induction _ _ (fun _ _ hstep hreach ↦ hreach.tail hstep) fun hne ↦ ?_
    rw [hhead _ (List.head?_eq_some_head hne)]
  have hordered : us.Pairwise (Relation.TransGen k.BeginsWith) :=
    List.isChain_iff_pairwise.1 (hchain.imp fun _ _ ↦ .single)
  refine hordered.imp_of_mem fun {v w} hv _ hvw heq ↦ ?_
  subst heq
  exact hcircle v (hreach v hv) hvw

theorem not_transGen_of_rank (rank : Uid → Nat)
    (h : ∀ v w, k.BeginsWith v w → rank v < rank w) (v : Uid) :
    ¬Relation.TransGen k.BeginsWith v v := by
  intro hcircle
  have hlt : Relation.TransGen (· < ·) (rank v) (rank v) := hcircle.lift rank h
  rw [Relation.transGen_eq_self] at hlt
  exact Nat.lt_irrefl _ hlt

end WorkflowCatalog

namespace Engine

open Relation (ReflTransGen TransGen)

variable {α : Type} {R : Rule} {setup : Setup} {k : WorkflowCatalog} {s s' : Scene}
  {l : List Moment} {depth : Nat} {workflow : Uid} {input : Json.Object}
  {parent parentStep : Option Uid}
  {r : Except EngineError RunSnapshot}

/-! ## The walk of a start -/

theorem logs_discard {a : Action α} {o : Except EngineError Unit} :
    Logs R (a >>= fun _ ↦ pure ()) s l o s' ↔ ∃ o', Logs R a s l o' s' ∧ o = o'.map fun _ ↦ () := by
  constructor
  · intro h
    rcases logs_bind.1 h with ⟨e, h₁, rfl⟩ | ⟨l₁, l₂, x, t, rfl, h₁, h₂⟩
    · exact ⟨_, h₁, rfl⟩
    · obtain ⟨rfl, rfl, rfl⟩ := logs_pure.1 h₂
      exact ⟨_, (List.append_nil l₁).symm ▸ h₁, rfl⟩
  · rintro ⟨o', h, rfl⟩
    cases o' with
    | error e => exact logs_bind.2 (.inl ⟨e, h, rfl⟩)
    | ok x => exact logs_bind.2 (.inr ⟨l, [], x, s', (List.append_nil l).symm, h, rfl, rfl, rfl⟩)

/-- The workflows that a start starts are a walk through the catalog, with at most one run for each
of them that is known. The start goes the same way at every limit that leaves room for the walk, or
the walk is as long as the limit. -/
structure Descent (setup : Setup) (R : Rule) (k : WorkflowCatalog) (depth : Nat) (workflow : Uid)
    (input : Json.Object) (parent parentStep : Option Uid) (s : Scene) (l : List Moment)
    (r : Except EngineError RunSnapshot) (s' : Scene) : Prop where
  chain : (startedIn l).IsChain k.BeginsWith
  head : ∀ v ∈ (startedIn l).head?, v = workflow
  made : s'.made.length ≤ s.made.length + (startedIn l).countP k.knows
  known : (startedIn l).length ≤ (startedIn l).countP k.knows + 1
  ends : (startedIn l ≠ [] ∧ ∀ limit, (startedIn l).length ≤ limit →
      Logs R (setup.startNested limit workflow input parent parentStep) s l r s') ∨
    (startedIn l).length = depth ∧ ∀ v ∈ startedIn l, k.knows v = true

theorem Descent.single (passes : Passes [workflow] ([workflow].countP k.knows) s l s')
    (same : ∀ start, Logs R (setup.startWith start workflow input parent parentStep) s l r s') :
    Descent setup R k depth workflow input parent parentStep s l r s' := by
  have hstarted := passes.started
  refine ⟨hstarted ▸ .singleton _, ?_, ?_, ?_, .inl ⟨?_, fun limit hlimit ↦ ?_⟩⟩
  · rw [hstarted]
    rintro _ ⟨⟩
    rfl
  · rw [hstarted]
    exact passes.made
  · rw [hstarted]
    exact Nat.le_add_left _ _
  · rw [hstarted]
    exact List.cons_ne_nil _ _
  · rw [hstarted] at hlimit
    obtain ⟨limit, rfl⟩ := Nat.exists_eq_add_of_le' hlimit
    exact same _

theorem Descent.cons {w p ps : Uid} {i : Json.Object}
    {before inner after : List Moment} {t t' : Scene} {o : Except EngineError RunSnapshot}
    (h : Descent setup R k depth w i (some p) (some ps) t inner o t')
    (hw : w ∈ k.beginnings workflow)
    (first : Passes [workflow] ([workflow].countP k.knows) s before t)
    (last : Passes [] 0 t' after s')
    (same : ∀ limit, Logs R (setup.startNested limit w i (some p) (some ps)) t inner o t' →
      Logs R (setup.startNested (limit + 1) workflow input parent parentStep)
        s (before ++ (inner ++ after)) r s') :
    Descent setup R k (depth + 1) workflow input parent parentStep s (before ++ (inner ++ after))
      r s' := by
  have hknows := WorkflowCatalog.knows_of_mem_beginnings hw
  have hstarted : startedIn (before ++ (inner ++ after)) = workflow :: startedIn inner := by
    rw [startedIn_append, startedIn_append, first.started, last.started, List.append_nil]
    rfl
  constructor
  all_goals rw [hstarted]
  · exact List.isChain_cons.2 ⟨fun v hv ↦ h.head v hv ▸ hw, h.chain⟩
  · rintro _ ⟨⟩
    rfl
  · have hfirst := first.made
    have hinner := h.made
    have hlast := last.made
    rw [List.countP_cons_of_pos hknows] at hfirst ⊢
    rw [List.countP_nil] at hfirst
    omega
  · have hinner := h.known
    rw [List.countP_cons_of_pos hknows, List.length_cons]
    omega
  · rw [List.length_cons]
    rcases h.ends with ⟨-, hends⟩ | ⟨hlength, hall⟩
    · refine .inl ⟨List.cons_ne_nil _ _, fun limit hlimit ↦ ?_⟩
      obtain ⟨limit, rfl⟩ := Nat.exists_eq_add_of_le' (Nat.le_of_add_left_le hlimit)
      exact same limit (hends limit (Nat.le_of_succ_le_succ hlimit))
    · exact .inr ⟨congrArg Nat.succ hlength, List.forall_mem_cons.2 ⟨hknows, hall⟩⟩

/-- **A start walks along the first steps of the catalog**, until it ends or the limit is
reached. -/
theorem descent_of_startNested (hk : Supplies R k) (hs : Standing setup (fun _ ↦ False) s)
    (h : Logs R (setup.startNested depth workflow input parent parentStep) s l r s') :
    Descent setup R k depth workflow input parent parentStep s l r s' := by
  induction depth generalizing workflow input parent parentStep s l r s' with
  | zero =>
    obtain ⟨rfl, -, rfl⟩ := logs_throw.1 h
    exact ⟨.nil, nofun, Nat.le_refl _, Nat.zero_le _, .inr ⟨rfl, nofun⟩⟩
  | succ depth ih =>
    cases nests_startWith hs.grounded hk h with
    | alone passes same => exact .single passes same
    | @around w p ps i before inner after t t' o starts log first last child same stop =>
      subst log
      obtain ⟨o', hinner, rfl⟩ := logs_discard.1 child
      -- The inner start begins where one that fails at once would end.
      have hstop := stop (fun _ _ _ _ ↦ throw (.nestedTooDeep w)) (.nestedTooDeep w)
        rfl ⟨rfl, rfl, rfl⟩
      have ht : Standing setup (fun _ ↦ False) t :=
        keeps_startWith (guiding_nobody R) (fun _ _ _ _ ↦ (Still.throw _).keeps)
          workflow input parent parentStep hs hstop.runs
      exact (ih ht hinner).cons starts first last fun limit hlimit ↦
        same _ (logs_discard.2 ⟨o', hlimit, rfl⟩)

/-! ## Coming to an end -/

/-- A start returns: beyond some limit on how many workflows may start one another, it goes the same
way whatever the limit is. -/
def Setup.Returns (setup : Setup) (R : Rule) (bound : Nat) (workflow : Uid) (input : Json.Object)
    (parent parentStep : Option Uid) (s : Scene) (l : List Moment)
    (r : Except EngineError RunSnapshot) (s' : Scene) : Prop :=
  ∀ limit, bound < limit →
    Logs R (setup.startNested limit workflow input parent parentStep) s l r s'

/-- A start that starts no workflow for the second time returns, and makes no more runs than there
are workflows. -/
theorem Descent.returns (h : Descent setup R k depth workflow input parent parentStep s l r s')
    (hdepth : k.workflows.length < depth) (hnd : (startedIn l).Nodup) :
    setup.Returns R k.workflows.length workflow input parent parentStep s l r s' ∧
      s'.made.length ≤ s.made.length + k.workflows.length := by
  have hcount := WorkflowCatalog.countP_le_of_nodup (k := k) hnd
  refine ⟨fun limit hlimit ↦ ?_, h.made.trans (Nat.add_le_add_left hcount _)⟩
  rcases h.ends with ⟨-, hends⟩ | ⟨hlength, hall⟩
  · exact hends limit ((h.known.trans (Nat.succ_le_succ hcount)).trans hlimit)
  · have hfew := WorkflowCatalog.length_le_of_nodup hnd hall
    omega

/-- **A start returns unless it goes round a circle**, whatever the collaborators answer, whichever
calls fail and whatever the engine has done before. In a catalog of `n` workflows a start makes at
most `n` runs and returns, unless it starts some workflow within a start of the same workflow. It
always returns if no workflow that can be reached along first steps can be reached from itself. -/
theorem start_returns (hs : Reachable setup anyAnswer s) (hk : Supplies R k) (workflow : Uid)
    (input : Json.Object) (parent parentStep : Option Uid) :
    (∀ depth l r s', k.workflows.length < depth →
      Logs R (setup.startNested depth workflow input parent parentStep) s l r s' →
        (startedIn l).Nodup → setup.Returns R k.workflows.length workflow input parent
          parentStep s l r s' ∧ s'.made.length ≤ s.made.length + k.workflows.length) ∧
    ((∀ v, ReflTransGen k.BeginsWith workflow v → ¬TransGen k.BeginsWith v v) →
      ∀ depth l r s', k.workflows.length < depth →
        Logs R (setup.startNested depth workflow input parent parentStep) s l r s' →
          setup.Returns R k.workflows.length workflow input parent parentStep s l r s' ∧
            s'.made.length ≤ s.made.length + k.workflows.length) := by
  have hstands := standing_of_reachable (guiding_nobody anyAnswer) hs
  refine ⟨fun depth l r s' hdepth h hnd ↦ ?_, fun hcircle depth l r s' hdepth h ↦ ?_⟩
  · exact (descent_of_startNested hk hstands h).returns hdepth hnd
  · have hdescent := descent_of_startNested hk hstands h
    exact hdescent.returns hdepth (WorkflowCatalog.nodup_of_isChain hdescent.chain
      hdescent.head hcircle)

/-! ### Catalogs -/

/-- The catalog of workflows answers what it has, and never fails. -/
structure Exhibits (R : Rule) (k : WorkflowCatalog) : Prop where
  workflow : ∀ w a, R (.getWorkflow w) a → a = k.get w
  steps : ∀ w a, R (.getStepList w) a → a = k.steps w

theorem Exhibits.supplies (hk : Exhibits R k) : Supplies R k :=
  ⟨fun w _ h ↦ (hk.workflow w _ h).symm, fun w _ h ↦ (hk.steps w _ h).symm⟩

/-- Catalogs that know some functions, and the workflows of a catalog. -/
def Collaborators.catalogued (functions : List FunctionInfo) (k : WorkflowCatalog) :
    Collaborators :=
  { function := fun f ↦ (functions.find? (·.uid = f)).elim (.error (.functionNotFound f)) .ok
    deploy := fun _ ↦ .ok ()
    workflow := k.get
    stepList := k.steps }

theorem exhibits_catalogued (functions : List FunctionInfo) (k : WorkflowCatalog) :
    Exhibits (Collaborators.catalogued functions k).rule k := ⟨fun _ _ h ↦ h, fun _ _ h ↦ h⟩

/-- A workflow that decides to start another one, one that starts a third, and one that calls a
function. -/
def threeLevels : WorkflowCatalog where
  workflows :=
    [{ uid := .ofNat 1
       name := "decide"
       steps :=
        [{ uid := .ofNat 2
           name := "choose"
           executionOrder := 1
           shape := .switch "'deep'"
             [("deep", .subWorkflow (.ofNat 3)), ("flat", .function (.ofNat 9))] }] },
      { uid := .ofNat 3
        name := "delegate"
        steps :=
          [{ uid := .ofNat 4
             name := "pass on"
             executionOrder := 1
             shape := .subWorkflow (.ofNat 5) }] },
      { uid := .ofNat 5
        name := "work"
        steps :=
          [{ uid := .ofNat 6, name := "call", executionOrder := 1, shape := .simple (.ofNat 9) }] }]

/-- The workflow that decides is started, where four workflows may start one another. -/
def deepStart : Except EngineError RunSnapshot × List Moment × Scene :=
  ((Collaborators.catalogued [deployedFunction] threeLevels).record 0
    (queueSetup.startNested 4 (.ofNat 1) [] none none).run {}).get (by decide +kernel)

/-- No workflow of `threeLevels` comes back to itself. -/
theorem not_transGen_threeLevels (v : Uid) : ¬TransGen threeLevels.BeginsWith v v := by
  have hall : ∀ v ∈ threeLevels.workflows.map (·.uid), ∀ w ∈ threeLevels.beginnings v,
      v.bits.toNat < w.bits.toNat := by decide +kernel
  exact WorkflowCatalog.not_transGen_of_rank (·.bits.toNat)
    (fun v w h ↦ hall v
      (WorkflowCatalog.mem_of_knows (WorkflowCatalog.knows_of_mem_beginnings h)) w h) v

/-- Three workflows that start one another are three runs, at every limit that leaves room for
them. -/
theorem start_returns_of_threeLevels :
    Logs (Collaborators.catalogued [deployedFunction] threeLevels).rule
      (queueSetup.startNested 4 (.ofNat 1) [] none none) {} deepStart.2.1
        deepStart.1 deepStart.2.2 ∧
    startedIn deepStart.2.1 = [.ofNat 1, .ofNat 3, .ofNat 5] ∧
    (∀ v, ReflTransGen threeLevels.BeginsWith (.ofNat 1) v → ¬TransGen threeLevels.BeginsWith v v) ∧
    queueSetup.Returns (Collaborators.catalogued [deployedFunction] threeLevels).rule 3
      (.ofNat 1) [] none none {} deepStart.2.1 deepStart.1 deepStart.2.2 ∧
    deepStart.2.2.made.length ≤ 3 := by
  have hlogs : Logs (Collaborators.catalogued [deployedFunction] threeLevels).rule
      (queueSetup.startNested 4 (.ofNat 1) [] none none) {} deepStart.2.1
        deepStart.1 deepStart.2.2 :=
    Collaborators.logged_get _ _
  have hstarted : startedIn deepStart.2.1 = [.ofNat 1, .ofNat 3, .ofNat 5] := by decide +kernel
  have hcircle : ∀ v, ReflTransGen threeLevels.BeginsWith (.ofNat 1) v →
      ¬TransGen threeLevels.BeginsWith v v := fun v _ ↦ not_transGen_threeLevels v
  obtain ⟨hnodup, hacyclic⟩ :=
    start_returns (.empty : Reachable queueSetup anyAnswer {})
      (exhibits_catalogued [deployedFunction] threeLevels).supplies (.ofNat 1) [] none none
  refine ⟨hlogs, hstarted, hcircle, (hnodup 4 _ _ _ (by decide) hlogs ?_).1, ?_⟩
  · rw [hstarted]
    decide
  · exact (hacyclic hcircle 4 _ _ _ (by decide) hlogs).2

/-! ## Going round for ever -/

/-- A workflow has been started without input after so many runs have been made. If its start fails
with an error that does not prevent a launch, everything has ended with this error. -/
def Entrusts (setup : Setup) (R : Rule) (startChild : StartChild) (w : Uid) (n : Nat) (s : Scene)
    (r : Except EngineError α) (s' : Scene) : Prop :=
  ∃ t p ps o t', Standing setup (fun _ ↦ False) t ∧ t.made.length = s.made.length + n ∧
    Runs R (startChild w [] p ps) t o t' ∧
      ∀ e, o = .error e → Setup.preventsLaunch e = false → r = .error e ∧ s' = t'

variable {startChild : StartChild} {w run : Uid} {first : StepInstance} {rest : List StepInstance}
  {definition : WorkflowDefinition} {steps : List StepDefinition}

theorem Entrusts.andThen {β : Type} {n : Nat} {a : Action α} {f : α → Action β}
    {r : Except EngineError β}
    (ha : ∀ {o t}, Runs R a s o t → Entrusts setup R startChild w n s o t)
    (h : Runs R (a >>= f) s r s') :
    Entrusts setup R startChild w n s r s' := by
  rcases runs_bind.1 h with ⟨e, h₁, rfl⟩ | ⟨x, t₁, h₁, h₂⟩
  · obtain ⟨t, p, ps, o, t', hs, hmade, hchild, hfails⟩ := ha h₁
    refine ⟨t, p, ps, o, t', hs, hmade, hchild, fun e' he hp ↦ ?_⟩
    obtain ⟨herror, rfl⟩ := hfails e' he hp
    exact ⟨congrArg Except.error (Except.error.inj herror), rfl⟩
  · obtain ⟨t, p, ps, o, t', hs, hmade, hchild, hfails⟩ := ha h₁
    refine ⟨t, p, ps, o, t', hs, hmade, hchild, fun e' he hp ↦ ?_⟩
    cases (hfails e' he hp).1

theorem Entrusts.after {m n : Nat} {s₁ : Scene} {r : Except EngineError α}
    (hmade : s₁.made.length = s.made.length + m) (h : Entrusts setup R startChild w n s₁ r s') :
    Entrusts setup R startChild w (m + n) s r s' := by
  obtain ⟨t, p, ps, o, t', hs, hchildren, hchild, hfails⟩ := h
  exact ⟨t, p, ps, o, t', hs, by omega, hchild, hfails⟩

theorem entrusts_launch {o : Except EngineError Unit} (hs : Standing setup (fun _ ↦ False) s)
    (hl : Launchable (fun _ ↦ False) s.tables first.uid)
    (hx : s.tables.step? first.uid = some first)
    (hshape : first.shape = .subWorkflow w) (hinput : first.inputData = [])
    (h : Runs R (setup.launch startChild first) s o s') :
    Entrusts setup R startChild w 0 s o s' := by
  obtain ⟨o₁, s₁, htry, hsettle⟩ := runs_launch_iff.1 h
  have hnormalize : Finds s.tables
      (normalize first.inputData first.workflowInstanceUid (some first)) (.ok []) := by
    rw [hinput]
    rfl
  have hrest := hnormalize.next htry
  rw [hshape] at hrest
  rcases runs_bind.1 hrest with ⟨e, h₁, -⟩ | ⟨x, s₂, h₁, hchild⟩
  · obtain ⟨_, he, -⟩ := runs_launchAttempt_eq hs.grounded.keyed hx h₁
    cases he
  have hs₂ := (runs_launchAttempt hs hl h₁).1
  obtain ⟨time, -, rfl⟩ := runs_launchAttempt_eq hs.grounded.keyed hx h₁
  refine ⟨_, _, _, o₁, s₁, hs₂, rfl, hchild, fun e he hp ↦ ?_⟩
  subst he
  rw [settle_of_not_preventsLaunch hp] at hsettle
  exact runs_throw.1 hsettle

theorem entrusts_startRun {r : Except EngineError RunSnapshot}
    (hs : Standing setup (fun _ ↦ False) s) (hnew : IsNew s run)
    (hchain : s.tables.chainOf run = first :: rest)
    (hheaded : Chain.Headed (first :: rest)) (hshape : first.shape = .subWorkflow w)
    (hinput : first.inputData = [])
    (h : Runs R (setup.startRun startChild run definition steps) s r s') :
    Entrusts setup R startChild w 0 s r s' := by
  have hkeyed := hs.grounded.keyed
  have hset : ∀ {o s₁}, Runs R (setRunStartTime run) s o s₁ → ∃ t, o = .ok () ∧
      s₁ = { s with tables := t } ∧ t.steps = s.tables.steps ∧
        IsNew { s with tables := t } run := by
    intro o s₁ h₁
    obtain ⟨time, h₁⟩ := Runs.of_now h₁
    obtain ⟨t, hwrites, -, hsteps, hnew⟩ := writes_setRunStartTime_of_isNew hkeyed hnew time
    obtain ⟨rfl, rfl⟩ := hwrites rfl h₁
    exact ⟨t, rfl, rfl, hsteps, hnew⟩
  rcases runs_bind.1 h with ⟨e, h₁, -⟩ | ⟨_, s₁, h₁, hrest⟩
  · obtain ⟨_, he, -⟩ := hset h₁
    cases he
  have hs₁ : Standing setup (fun _ ↦ False) s₁ := keeps_setRunStartTime hs h₁
  obtain ⟨t, -, rfl, hsteps, hnew₁⟩ := hset h₁
  have hchain₁ : t.chainOf run = first :: rest := by
    rw [Store.Tables.chainOf, hsteps]
    exact hchain
  have hrest := Finds.next (s := { s with tables := t })
    (finds_attempt.2 ⟨_, finds_firstStep hchain₁ hheaded, rfl⟩) hrest
  dsimp only at hrest
  rw [if_pos (by rw [hshape]; rfl)] at hrest
  have hmem : first ∈ t.chainOf run := hchain₁ ▸ List.mem_cons_self
  rcases runs_bind.1 hrest with ⟨e, h₂, -⟩ | ⟨_, s₂, h₂, hlaunch⟩
  · cases (runs_writeRunStatus h₂).2.trans (answer_of_isNew hnew₁ _)
  obtain ⟨rfl, -⟩ := runs_writeRunStatus h₂
  obtain ⟨hs₂, hl⟩ := hs₁.begin none (fun q hq hu ↦ by
    obtain ⟨q', hq', hstatus⟩ := hnew₁
    obtain rfl : q = q' := Option.some.inj ((hs₁.grounded.keyed.run?_iff.2 ⟨hq, hu⟩).symm.trans hq')
    exact ⟨.inl hstatus, by simp⟩) hmem hheaded.1
  have hx := hs₂.grounded.keyed.step?_iff.2
    ⟨(Store.Tables.steps_onRun run _).symm ▸ (Store.Tables.mem_chainOf.1 hmem).1, rfl⟩
  have hentrusts := Entrusts.andThen (fun h ↦ entrusts_launch hs₂ hl hx hshape hinput h) hlaunch
  exact hentrusts.after (m := 0) (congrArg List.length (List.append_nil s.made))

theorem Exhibits.toOption_stepsOf (hk : Exhibits R k) (hfind : k.find? workflow = some definition)
    {o : Except EngineError (List StepDefinition)}
    (h : Runs R (Setup.stepsOf definition workflow) s o s') :
    o.toOption = k.stepsOf? workflow ∧ s' = s := by
  rw [WorkflowCatalog.stepsOf?_of_find? hfind]
  unfold Setup.stepsOf at h
  by_cases hempty : definition.steps.isEmpty = true
  · rw [if_pos hempty] at h ⊢
    obtain ⟨hR, hs'⟩ := runs_getStepList.1 h
    exact ⟨by rw [hk.steps _ _ hR], hs'⟩
  · rw [if_neg hempty] at h ⊢
    obtain ⟨rfl, hs'⟩ := runs_pure.1 h
    exact ⟨rfl, hs'⟩

theorem inputData_of_buildStepInstances (run : Uid) (input : Json.Object) {d : StepDefinition}
    {following : List StepDefinition} {uids : List Uid} {others : List StepInstance}
    (hlen : uids.length = steps.length) (hsorted : sortDefinitions steps = d :: following)
    (hcons : buildStepInstances run steps input uids = first :: others) :
    first.inputData = Dict.overlay input d.inputData := by
  have hd : 0 < (sortDefinitions steps).length := by simp [hsorted]
  have hu : 0 < uids.length := by rwa [hlen, ← Chain.length_sortDefinitions]
  have hi : 0 < (buildStepInstances run steps input uids).length := by simp [hcons]
  have hfirst := Chain.getElem_buildStepInstances run input hlen hi hu hd
  simp only [hcons, hsorted, List.getElem_cons_zero] at hfirst
  rw [hfirst]
  rfl

/-- **A run that begins with another workflow starts it** as soon as it has been made. -/
theorem entrusts_startWith {r : Except EngineError RunSnapshot} (hk : Exhibits R k)
    (hs : Standing setup (fun _ ↦ False) s) (hands : k.HandsOn workflow w)
    (h : Runs R (setup.startWith startChild workflow [] parent parentStep) s r s') :
    Entrusts setup R startChild w 1 s r s' := by
  obtain ⟨steps, d, following, hsteps, hsorted, hshape, hinput⟩ := hands
  obtain ⟨definition, hfind, -⟩ := Option.bind_eq_some_iff.1 hsteps
  have hget : k.get workflow = .ok definition := by rw [WorkflowCatalog.get, hfind]
  have hne : steps ≠ [] := by
    rintro rfl
    cases hsorted
  rcases runs_bind.1 h with ⟨e, h₁, -⟩ | ⟨found, s₁, h₁, h'⟩
  · cases (hk.workflow _ _ (runs_getWorkflow.1 h₁).1).trans hget
  obtain ⟨hR, rfl⟩ := runs_getWorkflow.1 h₁
  obtain rfl := Except.ok.inj ((hk.workflow _ _ hR).trans hget)
  rcases runs_bind.1 h' with ⟨e, h₂, -⟩ | ⟨listed, s₂, h₂, h''⟩
  · cases (hk.toOption_stepsOf hfind h₂).1.trans hsteps
  obtain ⟨hlisted, rfl⟩ := hk.toOption_stepsOf hfind h₂
  obtain rfl := Option.some.inj (hlisted.trans hsteps)
  rcases runs_bind.1 h'' with ⟨e, h₃, -⟩ | ⟨made, s₃, h₃, hstart⟩
  · obtain ⟨_, _, he, -⟩ := built_of_generate hs.grounded hne h₃
    cases he
  obtain ⟨_, uids, hmade, hgen, hlen, hbuilt⟩ := built_of_generate hs.grounded hne h₃
  obtain rfl := Except.ok.inj hmade
  obtain ⟨first, others, hcons, -, hfirst⟩ := buildStepInstances_eq_cons made.1.uid [] hlen hsorted
  have hheaded := Chain.headed_buildStepInstances made.1.uid [] hlen hne
  rw [hcons] at hheaded
  have hempty : first.inputData = [] := by
    rw [inputData_of_buildStepInstances made.1.uid [] hlen hsorted hcons, hinput]
    rfl
  have hentrusts := entrusts_startRun (runs_generate (guiding_nobody R) hs h₃).1 hgen.isNew
    (hgen.chain.trans (hbuilt.trans hcons)) hheaded (hfirst.trans hshape) hempty hstart
  exact hentrusts.after (by rw [hgen.made, List.length_append]; rfl)

/-- **A circle is gone round for ever**: where workflows without input begin with one another, a
start makes as many runs as it is allowed to, and then it is cut off. -/
theorem runs_startNested_of_circle (hk : Exhibits R k) {C : Uid → Prop}
    (hC : ∀ v, C v → ∃ w, C w ∧ k.HandsOn v w) (hs : Standing setup (fun _ ↦ False) s)
    (hv : C workflow)
    (h : Runs R (setup.startNested depth workflow [] parent parentStep) s r s') :
    s'.made.length = s.made.length + depth ∧ ∃ w, C w ∧ r = .error (.nestedTooDeep w) := by
  induction depth generalizing workflow parent parentStep s r s' with
  | zero =>
    obtain ⟨rfl, rfl⟩ := runs_throw.1 h
    exact ⟨rfl, workflow, hv, rfl⟩
  | succ depth ih =>
    obtain ⟨w, hw, hands⟩ := hC workflow hv
    obtain ⟨t, p, ps, o, t', ht, hmade, hchild, hfails⟩ := entrusts_startWith hk hs hands h
    rcases runs_bind.1 hchild with ⟨e, h₁, rfl⟩ | ⟨_, t₁, h₁, -⟩
    · obtain ⟨hcount, u, hu, he⟩ := ih ht hw h₁
      obtain rfl := Except.error.inj he
      obtain ⟨rfl, rfl⟩ := hfails _ rfl rfl
      exact ⟨by omega, u, hu, rfl⟩
    · obtain ⟨_, _, _, he⟩ := ih ht hw h₁
      cases he

/-- **Whoever starts on a circle never returns.** -/
theorem not_returns_of_circle (hk : Exhibits R k) {C : Uid → Prop}
    (hC : ∀ v, C v → ∃ w, C w ∧ k.HandsOn v w) (hs : Standing setup (fun _ ↦ False) s)
    (hv : C workflow)
    (bound : Nat) : ¬setup.Returns R bound workflow [] parent parentStep s l r s' := by
  intro h
  have hfirst := (runs_startNested_of_circle hk hC hs hv (h (bound + 1) (by omega)).runs).1
  have hsecond := (runs_startNested_of_circle hk hC hs hv (h (bound + 2) (by omega)).runs).1
  omega

/-- A workflow that begins with itself. -/
def selfStarting : WorkflowCatalog where
  workflows :=
    [{ uid := .ofNat 1
       name := "again"
       steps :=
        [{ uid := .ofNat 2
           name := "again"
           executionOrder := 1
           shape := .subWorkflow (.ofNat 1) }] }]

theorem handsOn_selfStarting (v : Uid) (hv : v = .ofNat 1) :
    ∃ w, w = .ofNat 1 ∧ selfStarting.HandsOn v w := by
  subst hv
  exact ⟨_, rfl, _, _, [], rfl, rfl, rfl, rfl⟩

/-- **A workflow that begins with itself never returns**: whatever the limit is, a start makes as
many runs as it is allowed to and is cut off. -/
theorem start_of_selfStarting_never_returns :
    (∀ bound l r s', ¬queueSetup.Returns (Collaborators.catalogued [] selfStarting).rule
      bound (.ofNat 1) [] none none {} l r s') ∧
    (∀ depth r s', Runs (Collaborators.catalogued [] selfStarting).rule
      (queueSetup.startNested depth (.ofNat 1) [] none none) {} r s' →
        s'.made.length = depth ∧ r = .error (.nestedTooDeep (.ofNat 1))) ∧
    ∃ r s', Runs (Collaborators.catalogued [] selfStarting).rule
      (queueSetup.startNested 3 (.ofNat 1) [] none none) {} r s' := by
  have hk := exhibits_catalogued [] selfStarting
  have hs := standing_empty queueSetup fun _ ↦ False
  refine ⟨fun bound l r s' ↦ not_returns_of_circle hk handsOn_selfStarting hs rfl bound,
    fun depth r s' h ↦ ?_, ?_⟩
  · obtain ⟨hmade, w, rfl, hr⟩ := runs_startNested_of_circle hk handsOn_selfStarting hs rfl h
    exact ⟨hmade.trans (Nat.zero_add depth), hr⟩
  · exact ⟨_, _, Collaborators.leads_get (Collaborators.catalogued [] selfStarting)
      (by decide +kernel)⟩

end Engine

end Orchestration
