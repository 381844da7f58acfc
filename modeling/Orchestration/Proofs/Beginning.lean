import Orchestration.Proofs.Mirroring
import Orchestration.Proofs.References

/-!
# The start of a run

Starting a workflow whose functions can be called makes one run, with a chain that shows the course
of the workflow at its first step, and asks for the first part. Nothing waits for a deployment,
because every function is deployed already.
-/

namespace Orchestration

namespace Engine

open Chain

variable {k : Collaborators} {setup : Setup} {R : Rule} {s s' : Scene} {t : Store.Tables}
variable {run : Uid} {c : Course}

/-! ## The chain of a new run -/

/-- The steps of a run are those of its workflow in the stable order of their execution. -/
theorem sortDefinitions_eq_mergeSort (steps : List StepDefinition) :
    sortDefinitions steps = steps.mergeSort fun a b => a.executionOrder ≤ b.executionOrder := by
  refine ordered_eq_mergeSort (fun a b ↦ ?_) (fun a b c hab hbc ↦ ?_) steps
  · rw [decide_eq_true_iff, decide_eq_true_iff]
    exact Int.le_total _ _
  · rw [decide_eq_true_iff] at hab hbc ⊢
    exact Int.le_trans hab hbc

private theorem shows_newStepInstance {uid : Uid} {label : OrderLabel} {links : StepLinks}
    {input : Json.Object} {d : StepDefinition} {p : Part}
    (h : Part.of?
      (if label = .first then Dict.overlay input d.inputData else d.inputData) d = some p) :
    Shows (newStepInstance run uid label links input d) p := by
  obtain ⟨activity, hactivity, rfl⟩ := Option.map_eq_some_iff.1 h
  exact ⟨rfl, hactivity, rfl, rfl, rfl, rfl⟩

private theorem forall₂_shows {definitions : List StepDefinition} {uids : List Uid} {ps : List Part}
    (hlen : uids.length = definitions.length) {label : Nat → OrderLabel}
    (hlabel : ∀ i, label i ≠ .first) (links : Uid → StepLinks) (input : Json.Object)
    (h : definitions.mapM (fun d ↦ Part.of? d.inputData d) = some ps) :
    List.Forall₂ Shows ((definitions.zip uids).mapIdx fun i (d, u) ↦
      newStepInstance run u (label i) (links u) input d) ps := by
  induction definitions generalizing uids ps label with
  | nil =>
    obtain rfl : [] = ps := Option.some.inj h
    exact .nil
  | cons d rest ih =>
    cases uids with
    | nil => cases hlen
    | cons u uids =>
      rw [List.mapM_cons] at h
      obtain ⟨p, hp, h⟩ := Option.bind_eq_some_iff.1 h
      obtain ⟨others, hothers, h⟩ := Option.bind_eq_some_iff.1 h
      obtain rfl : p :: others = ps := Option.some.inj h
      rw [List.zip_cons_cons, List.mapIdx_cons]
      refine .cons (shows_newStepInstance ?_) ?_
      · rw [if_neg (hlabel 0)]
        exact hp
      · exact ih (Nat.succ.inj hlen) (fun i ↦ hlabel (i + 1)) hothers

theorem ne_nil_of_course {steps : List StepDefinition} {input : Json.Object}
    (h : Course.of? input steps = some c) : steps ≠ [] := by
  rintro rfl
  rw [Course.of?, List.mergeSort_nil] at h
  cases h

theorem shows_buildStepInstances (run : Uid) {steps : List StepDefinition} {input : Json.Object}
    {uids : List Uid} (hlen : uids.length = steps.length) (hc : Course.of? input steps = some c) :
    ∃ x rest, buildStepInstances run steps input uids = x :: rest ∧ Shows x c.current ∧
      List.Forall₂ Shows rest c.todo ∧ c.done = [] := by
  have hsorted : uids.length = (sortDefinitions steps).length := by
    rw [length_sortDefinitions, hlen]
  unfold Course.of? at hc
  rw [← sortDefinitions_eq_mergeSort] at hc
  unfold buildStepInstances
  cases hds : sortDefinitions steps with
  | nil =>
    rw [hds] at hc
    cases hc
  | cons d rest =>
    rw [hds] at hc hsorted
    obtain ⟨p, hp, hc⟩ := Option.bind_eq_some_iff.1 hc
    obtain ⟨todo, htodo, hc⟩ := Option.bind_eq_some_iff.1 hc
    obtain rfl : (⟨[], p, todo⟩ : Course) = c := Option.some.inj hc
    cases uids with
    | nil => cases hsorted
    | cons u us =>
      have hlabel : ∀ i, OrderLabel.forPosition (i + 1) (d :: rest).length ≠ .first := by
        intro i
        rw [OrderLabel.forPosition, if_neg (Nat.succ_ne_zero i)]
        split
        all_goals
          intro h
          cases h
      refine ⟨_, _, List.mapIdx_cons, shows_newStepInstance hp, ?_, rfl⟩
      exact forall₂_shows (Nat.succ.inj hsorted) hlabel _ input htodo

/-- Parts that are fit to be taken are shown by steps whose loops are over themselves. -/
private theorem selfGuided_of_fitInTurn {xs : List StepInstance} {ps : List Part}
    {earlier : List String} (h : List.Forall₂ Shows xs ps) (hfits : FitInTurn earlier ps) :
    ∀ x ∈ xs, StepInstance.SelfGuided x.shape := by
  induction h generalizing earlier with
  | nil => simp
  | @cons x p xs ps hxp _ ih =>
    intro y hy
    rcases List.mem_cons.1 hy with rfl | hy
    · intro f text hshape
      refine hfits.1.loop f text ?_
      have hactivity := hxp.activity
      rw [hshape] at hactivity
      exact (Option.some.inj hactivity).symm
    · exact ih hfits.2 y hy

theorem functionsOf?_functionRefs {cases : Dict CaseTarget} {functions : Dict Uid}
    (h : functionsOf? cases = some functions) (expression : String) :
    (StepStructure.switch expression cases).functionRefs = functions.map (·.2) := by
  unfold StepStructure.functionRefs
  induction cases generalizing functions with
  | nil =>
    obtain rfl := Option.some.inj h
    rfl
  | cons entry rest ih =>
    obtain ⟨name, target⟩ := entry
    cases target with
    | subWorkflow w => cases h
    | function f =>
      obtain ⟨fs, hfs, rfl⟩ := Option.map_eq_some_iff.1 h
      exact congrArg (f :: ·) (ih hfs)

theorem Shows.functions_eq {x : StepInstance} {p : Part} (h : Shows x p) :
    p.activity.functions = x.shape.functionRefs := by
  rcases h.shape_cases with ⟨f, hshape, hp⟩ | ⟨f, text, hshape, hp⟩ |
    ⟨expression, cases, functions, hshape, hfs, hp⟩
  · rw [hshape, hp]
    rfl
  · rw [hshape, hp]
    rfl
  · rw [hshape, hp, functionsOf?_functionRefs hfs]
    rfl

private theorem exists_shows {xs : List StepInstance} {ps : List Part}
    (h : List.Forall₂ Shows xs ps) {p : Part} (hp : p ∈ ps) : ∃ x ∈ xs, Shows x p := by
  induction h with
  | nil => cases hp
  | @cons x q xs ps hxq _ ih =>
    rcases List.mem_cons.1 hp with rfl | hp
    · exact ⟨x, List.mem_cons_self, hxq⟩
    · obtain ⟨y, hy, hyp⟩ := ih hp
      exact ⟨y, List.mem_cons_of_mem _ hy, hyp⟩

/-! ## Before the first step -/

theorem finds_firstStep {x : StepInstance} {rest : List StepInstance}
    (hchain : t.chainOf run = x :: rest) (hheaded : Headed (x :: rest)) :
    Finds t (firstStep run) (.ok x) := by
  have hfind : (inExecutionOrder (t.chainOf run)).find? (fun s ↦ s.runOrderLabel = .first) =
      some x := by
    rw [hchain]
    cases hf : (inExecutionOrder (x :: rest)).find? fun s ↦ s.runOrderLabel = .first with
    | none =>
      have hmem : x ∈ inExecutionOrder (x :: rest) := (mem_ordered _).2 List.mem_cons_self
      exact absurd (decide_eq_true hheaded.1) (List.find?_eq_none.1 hf x hmem)
    | some y =>
      have hmem : y ∈ x :: rest := (mem_ordered _).1 (List.mem_of_find?_eq_some hf)
      have hlabel : y.runOrderLabel = .first := by simpa using List.find?_some hf
      obtain ⟨rest', hrest⟩ := hheaded.eq_cons hmem hlabel
      rw [(List.cons.inj hrest).1]
  refine finds_bind.2 (.inr ⟨inExecutionOrder (t.chainOf run), (finds_store rfl).2 rfl, ?_⟩)
  rw [hfind]
  exact finds_pure.2 rfl

theorem runs_lookUpFunctions_of_serves {refs : List (Uid × String)}
    (hrefs : ∀ ref ∈ refs, k.Serves setup ref.1)
    {r : Except EngineError (Except Failure (List (FunctionInfo × String)))}
    (h : Runs k.rule (Setup.lookUpFunctions refs) s r s') : r = .ok (.ok []) ∧ s' = s := by
  induction refs generalizing r s' with
  | nil => exact runs_pure.1 h
  | cons ref rest ih =>
    obtain ⟨info, hinfo, hdeployed, -⟩ := hrefs ref List.mem_cons_self
    have hrest' : ∀ ref ∈ rest, k.Serves setup ref.1 := fun ref' href ↦
      hrefs ref' (List.mem_cons_of_mem _ href)
    obtain ⟨o, s₁, h₁, hrest⟩ := runs_attempt_bind.1 h
    obtain ⟨hfound, rfl⟩ := runs_getFunction.1 h₁
    obtain rfl : o = .ok info := hfound.trans hinfo
    rcases runs_bind.1 hrest with ⟨e, h₂, -⟩ | ⟨others, s₂, h₂, hrest⟩
    · cases (ih hrest' h₂).1
    obtain ⟨hothers, rfl⟩ := ih hrest' h₂
    obtain rfl := Except.ok.inj hothers
    obtain ⟨rfl, rfl⟩ := runs_pure.1 hrest
    simp [Except.map, hdeployed]

/-! ## Starting -/

def begunRun (new : WorkflowInstance) (time : Instant) : WorkflowInstance :=
  { new with startTime := some time, runStatus := .running }

variable {startChild : StartChild} {definition : WorkflowDefinition} {steps : List StepDefinition}
variable {new : WorkflowInstance} {x : StepInstance} {rest : List StepInstance}

/-- A run that is new, and whose functions can be called, begins and launches its first step. -/
theorem runs_startRun_of_serves (ht : s.tables.Keyed) (hnew : s.tables.run? run = some new)
    (hstatus : new.runStatus = .new) (hchain : s.tables.chainOf run = x :: rest)
    (hheaded : Headed (x :: rest)) (hcontrol : x.shape.control ≠ .subWorkflow)
    (hserves : ∀ d ∈ steps, ∀ f ∈ d.shape.functionRefs, k.Serves setup f)
    {r : Except EngineError RunSnapshot}
    (h : Runs k.rule (setup.startRun startChild run definition steps) s r s') :
    ∃ time o, Runs k.rule (setup.launch startChild x)
      { s with tables := s.tables.putRun (begunRun new time) } o s' := by
  obtain ⟨hmem, hu⟩ := Store.Tables.mem_of_run? hnew
  unfold Setup.startRun setRunStartTime at h
  rw [bind_assoc] at h
  obtain ⟨time, h⟩ := Runs.of_now h
  have hstart : s.tables.answer (.setRunStartTime run time) =
      (.ok (), s.tables.putRun { new with startTime := some time }) := by
    show s.tables.onRun run _ = _
    rw [Store.Tables.onRun_of_some hnew]
  have hwrites := Writes.store (c := .setRunStartTime run time) (x := ())
    (congrArg Prod.fst hstart) rfl
  rw [hstart] at hwrites
  have hrest := hwrites.next h
  set t₁ := s.tables.putRun { new with startTime := some time }
  have hnew₁ : t₁.run? run = some { new with startTime := some time } :=
    ht.run?_putRun hnew hu
  -- The run is running before its first step is launched.
  have hmoved : t₁.answer (.updateRunStatus run .running none) =
      (.ok true, s.tables.putRun (begunRun new time)) := by
    show t₁.onRun run (Store.Tables.withStatus .running none) = _
    rw [Store.Tables.onRun_of_some hnew₁, Store.Tables.withStatus,
      if_neg (by simp [hstatus, RunStatus.isTerminal])]
    exact congrArg (Prod.mk (Except.ok true)) (Store.Tables.putRun_putRun rfl)
  have hfirst : Finds t₁ (firstStep run) (.ok x) := finds_firstStep hchain hheaded
  have hrest := Finds.next (s := { s with tables := t₁ }) (finds_attempt.2 ⟨_, hfirst, rfl⟩) hrest
  dsimp only at hrest
  rw [if_neg hcontrol] at hrest
  have hprepare : ∀ {o : Except EngineError Unit} {s₁ : Scene},
      Runs k.rule (setup.prepareFunctions startChild run steps x) { s with tables := t₁ } o s₁ →
      Runs k.rule (setup.launch startChild x)
        { s with tables := s.tables.putRun (begunRun new time) } o s₁ := by
    intro o s₁ hrun
    have hrefs : ∀ ref ∈ Setup.referencedFunctions steps, k.Serves setup ref.1 := by
      intro ref href
      obtain ⟨d, hd, hf⟩ := mem_keys_referencedFunctions.1 (List.mem_map_of_mem href)
      exact hserves d hd ref.1 hf
    rcases runs_bind.1 hrun with ⟨e, h₁, -⟩ | ⟨found, s₂, h₁, h₂⟩
    · cases (runs_lookUpFunctions_of_serves hrefs h₁).1
    obtain ⟨hfound, rfl⟩ := runs_lookUpFunctions_of_serves hrefs h₁
    obtain rfl := Except.ok.inj hfound
    exact Writes.next (s := { s with tables := t₁ }) (f := fun _ : Bool ↦ setup.launch startChild x)
      (writes_writeRunStatus hmoved) h₂
  rcases runs_bind.1 hrest with ⟨e, h₁, -⟩ | ⟨_, s₁, h₁, h₂⟩
  · exact ⟨time, _, hprepare h₁⟩
  · rw [still_state run h₂]
    exact ⟨time, _, hprepare h₁⟩

/-- The catalogs know a workflow, and its functions can be called. -/
structure Collaborators.Offers (k : Collaborators) (setup : Setup) (workflow : Uid)
    (definition : WorkflowDefinition) (steps : List StepDefinition) : Prop where
  found : k.workflow workflow = .ok definition
  listed : (if definition.steps.isEmpty then k.stepList workflow else .ok definition.steps) =
    .ok steps
  callable : ∀ d ∈ steps, ∀ f ∈ d.shape.functionRefs, k.Serves setup f
  /-- The engine follows a workflow at all. -/
  nesting : 0 < setup.nesting

private theorem runs_stepsOf_of_offers {workflow : Uid}
    (hk : k.Offers setup workflow definition steps) {r : Except EngineError (List StepDefinition)}
    (h : Runs k.rule (Setup.stepsOf definition workflow) s r s') : r = .ok steps ∧ s' = s := by
  have hsteps := hk.listed
  unfold Setup.stepsOf at h
  by_cases hempty : definition.steps.isEmpty = true
  · rw [if_pos hempty] at h hsteps
    obtain ⟨hr, hs'⟩ := runs_getStepList.1 h
    exact ⟨hr.trans hsteps, hs'⟩
  · rw [if_neg hempty] at h hsteps
    obtain ⟨rfl, hs'⟩ := runs_pure.1 h
    exact ⟨hsteps, hs'⟩

/-- The records with a run put in show the course of its workflow at its first step. -/
private theorem showsCourse_newRun {input : Json.Object} {uids : List Uid}
    (hc : Course.of? input steps = some c) (hfits : c.Fits) (hlen : uids.length = steps.length)
    (hnd : uids.Nodup)
    (hchain : t.chainOf run = buildStepInstances run steps input uids) :
    ∃ x rest, ShowsCourse t run c [] x rest ∧ x.Fresh ∧ Headed (x :: rest) := by
  have hne := ne_nil_of_course hc
  obtain ⟨x, rest, hxs, hx, hrest, hdone⟩ := shows_buildStepInstances run hlen hc
  have hfresh : ∀ y ∈ x :: rest, y.Fresh := fun y hy ↦
    (of_mem_buildStepInstances run input hlen (hxs ▸ hy)).1
  have hguided : ∀ y ∈ x :: rest, StepInstance.SelfGuided y.shape :=
    selfGuided_of_fitInTurn (.cons hx hrest) hfits
  refine ⟨x, rest, ⟨hchain.trans hxs, ?_, ?_, hx, hrest, by simp, fun y hy ↦
    hfresh y (by simp [hy]), hguided, ?_, hfits⟩, hfresh x List.mem_cons_self, ?_⟩
  · exact hxs ▸ linked_buildStepInstances run input hlen hnd
  · rw [hdone]
    exact .nil
  · exact Int.le_of_eq ((hfresh x List.mem_cons_self).2.symm.trans hx.answers)
  · exact hxs ▸ headed_buildStepInstances run input hlen hne

/-- A run of a workflow as it is put into the store. -/
def freshRun (run : Uid) (definition : WorkflowDefinition) (steps : List StepDefinition)
    (input : Json.Object) (uids : List Uid) (time : Instant) :
    WorkflowInstance × List StepInstance :=
  (newRun run definition (buildStepInstances run steps input uids) input none none time,
    buildStepInstances run steps input uids)

private theorem runs_generate_fresh {input : Json.Object} (hs : Standing setup (fun _ ↦ False) s)
    (hne : steps ≠ []) {r : Except EngineError (WorkflowInstance × List StepInstance)}
    (h : Runs R (generate definition steps input none none) s r s') :
    ∃ run uids time, uids.length = steps.length ∧ uids.Nodup ∧ run ∉ s.issued ∧
      Standing setup (fun _ ↦ False) s' ∧ r = .ok (freshRun run definition steps input uids time) ∧
      s'.made = s.made ++ [freshRun run definition steps input uids time] ∧ s'.sent = s.sent ∧
      s'.tables = withRun s.tables (freshRun run definition steps input uids time).1
        (buildStepInstances run steps input uids) := by
  rcases runs_generate_cases h with ⟨hnil, -⟩ | ⟨run, uids, time, instances, new, -, hlen, hnd,
    hrun, hfresh, hinst, hnew, -, rfl, hr⟩
  · exact absurd hnil hne
  obtain ⟨hans, -, hstanding⟩ :=
    hs.insertNew definition none none time hne hlen hnd hrun hfresh hinst hnew rfl
  have hans' : s.tables.answer (.insertRun new instances) =
      (.ok (), withRun s.tables new instances) :=
    hans
  subst hinst hnew
  rw [hans'] at hr
  exact ⟨run, uids, time, hlen, hnd, hrun, hstanding fun hG ↦ hG.elim, hr, rfl, rfl,
    congrArg Prod.snd hans⟩

/-- **Starting a workflow makes a run and asks for the first part.** -/
theorem reaches_start {workflow : Uid} {input : Json.Object}
    (hs : Standing setup (fun _ ↦ False) s) (hk : k.Offers setup workflow definition steps)
    (hc : Course.of? input steps = some c) (hfits : c.Fits) {r : Except EngineError RunSnapshot}
    (h : Runs k.rule (setup.startWorkflow workflow input none none) s r s') {p : Progress}
    (hask : c.ask = some p) :
    ∃ new s₁, s₁.made = s.made ++ [new] ∧ s₁.handOvers = s.handOvers ∧
      Reaches k setup s.issued new.1.uid [] s₁ s' p := by
  have hnamed := hs.named
  have hne := ne_nil_of_course hc
  obtain ⟨depth, hdepth⟩ := Nat.exists_eq_succ_of_ne_zero (Nat.ne_of_gt hk.nesting)
  unfold Setup.startWorkflow at h
  rw [hdepth] at h
  rcases runs_bind.1 h with ⟨e, h₁, -⟩ | ⟨d, s₁, h₁, hrest₁⟩
  · cases (runs_getWorkflow.1 h₁).1.trans hk.found
  obtain ⟨hd, rfl⟩ := runs_getWorkflow.1 h₁
  obtain rfl := Except.ok.inj (hd.trans hk.found)
  rcases runs_bind.1 hrest₁ with ⟨e, h₂, -⟩ | ⟨ds, s₂, h₂, hrest₂⟩
  · cases (runs_stepsOf_of_offers hk h₂).1
  obtain ⟨hds, rfl⟩ := runs_stepsOf_of_offers hk h₂
  obtain rfl := Except.ok.inj hds
  rcases runs_bind.1 hrest₂ with ⟨e, h₃, -⟩ | ⟨made, s₃, h₃, hstart⟩
  · obtain ⟨_, _, _, -, -, -, -, hr, -⟩ := runs_generate_fresh hs hne h₃
    cases hr
  obtain ⟨run, uids, time, hlen, hnd, hrun, hs₃, hr, hmade, hsent, htables⟩ :=
    runs_generate_fresh hs hne h₃
  obtain rfl := Except.ok.inj hr
  set instances := buildStepInstances run ds input uids
  set new := (freshRun run d ds input uids time).1
  have ht := hs₃.named.keyed
  have hown : ∀ y ∈ instances, y.workflowInstanceUid = run ∧ ∃ d ∈ ds, y.shape = d.shape :=
    fun y hy ↦ (of_mem_buildStepInstances run input hlen hy).2
  have hnew : s₃.tables.run? run = some new := by
    refine ht.run?_iff.2 ⟨?_, rfl⟩
    rw [htables]
    exact List.mem_append_right _ (List.mem_singleton_self _)
  have hchain : s₃.tables.chainOf run = instances := by
    rw [htables]
    have hothers : ∀ r ∈ s₂.tables.runs, r.uid ≠ new.uid := by
      intro r hr hu
      have hru : r.uid = run := hu
      exact hrun (hru ▸ hnamed.runs r hr)
    exact chainOf_withRun_self hnamed.keyed hothers fun y hy ↦ (hown y hy).1
  obtain ⟨x, rest, hshows, hfresh, hheaded⟩ := showsCourse_newRun hc hfits hlen hnd hchain
  have hinstances : instances = x :: rest := hchain.symm.trans hshows.chain
  have hcontrol : x.shape.control ≠ .subWorkflow := by
    rcases hshows.current.shape_cases with ⟨f, hx, -⟩ | ⟨f, text, hx, -⟩ | ⟨e, cs, fs, hx, -, -⟩
    · rw [hx]
      exact fun h ↦ nomatch h
    · rw [hx]
      exact fun h ↦ nomatch h
    · rw [hx]
      exact fun h ↦ nomatch h
  obtain ⟨begun, o, hlaunch⟩ := runs_startRun_of_serves ht hnew rfl hshows.chain hheaded hcontrol
    hk.callable hstart
  set s₄ : Scene := { s₃ with tables := s₃.tables.putRun (begunRun new begun) }
  have hknows : Knows s₂.issued run [] s₄.tables := by
    refine ⟨ht.putRun _, fun y hy hi ↦ ?_, by simp⟩
    have hy : y ∈ s₃.tables.steps := hy
    rw [htables] at hy
    rcases List.mem_append.1 hy with hy | hy
    · exact absurd (hnamed.steps y hy) hi
    · exact (hown y hy).1
  have hserves : k.ServesCourse setup c := by
    intro p hp f hf
    obtain ⟨y, hy, hyp⟩ := exists_shows (.cons hshows.current hshows.todo) hp
    obtain ⟨-, def', hdef, hshape⟩ := hown y (hinstances ▸ hy)
    rw [hyp.functions_eq, hshape] at hf
    exact hk.callable def' hdef f hf
  have hovers : s₄.handOvers = s₂.handOvers := by
    show s₃.handOvers = s₂.handOvers
    rw [Scene.handOvers, hsent]
    rfl
  refine ⟨_, s₄, hmade, hovers, ?_⟩
  exact ShowsCourse.reaches_ask (s := s₄)
    ⟨hshows.chain, hshows.linked, hshows.done, hshows.current, hshows.todo,
      hshows.left, hshows.fresh, hshows.guided, hshows.counted, hshows.fits⟩ hknows
      (ht.run?_putRun hnew rfl) ⟨rfl, rfl, rfl, rfl⟩
    hserves (.inl hfresh) hlaunch hask

end Engine

end Orchestration
