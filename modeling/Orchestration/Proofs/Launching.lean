import Orchestration.Proofs.Ending

/-!
# Launching and starting

A launch is safe where its run stands. It puts the step into an attempt that has not been
dispatched, and hands the attempt over once. Whatever fails on the way, the run stands at the same
step afterwards.

A run that has just been made may be launched at its first step, because nothing has happened to its
chain. The first step may start another run, and so on: `keeps_startNested` follows the chain of
starts by induction on how many more may follow.
-/

namespace Orchestration

namespace Engine

open Chain

variable {α : Type} {R : Rule} {setup : Setup} {G : Uid → Prop} {s s' : Scene}
variable {t : Store.Tables} {issued : List Uid} {ds : List Dispatch} {u : Uid}

/-! ## Changing a step in the store -/

theorem Stands.onStep {change : StepInstance → α × StepInstance} (h : Stands G t issued ds)
    (hsame : ∀ x, SameStep x (change x).2)
    (hmoves : ∀ x ∈ t.steps, x.uid = u → G x.workflowInstanceUid → Moves t x (change x).2) :
    Stands G (t.onStep u change).2 issued ds := by
  cases hx : t.step? u with
  | none =>
    rw [Store.Tables.onStep_of_none hx]
    exact h
  | some x =>
    rw [Store.Tables.onStep_of_some hx]
    obtain ⟨hmem, hu⟩ := Store.Tables.mem_of_step? hx
    exact h.putStep hmem (hsame x) fun hG ↦ hmoves x hmem hu hG

theorem Launchable.onStep {change : StepInstance → α × StepInstance} (h : Launchable G t u)
    (ht : t.Keyed) (hsame : ∀ x, SameStep x (change x).2)
    (hstatus : ∀ x, (change x).2.runStatus = x.runStatus) :
    Launchable G (t.onStep u change).2 u := by
  cases hx : t.step? u with
  | none =>
    rw [Store.Tables.onStep_of_none hx]
    exact h
  | some x =>
    rw [Store.Tables.onStep_of_some hx]
    obtain ⟨hmem, rfl⟩ := Store.Tables.mem_of_step? hx
    exact h.putStep ht hmem (hsame x) (hstatus x)

/-- What is changed of a launchable step without giving it an attempt leaves it launchable. -/
theorem Launchable.prepared (hl : Launchable G s.tables u) (hs : Standing setup G s)
    {c : Store.Call} (change : StepInstance → α × StepInstance)
    (hans : (s.tables.answer c).2 = (s.tables.onStep u change).2)
    (hsame : ∀ x, SameStep x (change x).2)
    (hstatus : ∀ x, (change x).2.runStatus = x.runStatus)
    (hcount : ∀ x, (change x).2.runCount = x.runCount) :
    Standing setup G (s.afterStore c) ∧ Launchable G (s.afterStore c).tables u := by
  obtain ⟨ds, hst, hds⟩ := hs
  have htables : (s.afterStore c).tables = (s.tables.onStep u change).2 := hans
  constructor
  · refine ⟨ds, ?_, hds⟩
    rw [htables]
    refine hst.onStep hsame fun x hx hu hG ↦ ?_
    subst hu
    exact hl.moves hx (hcount x) hG
  · rw [htables]
    exact hl.onStep hst.keyed hsame hstatus

/-! ## An attempt -/

/-- A step is in an attempt that has not been dispatched. -/
structure UnderWay (setup : Setup) (G : Uid → Prop) (ds : List Dispatch) (s : Scene)
    (x : StepInstance) : Prop where
  stands : Stands G s.tables s.issued ds
  handedOver : s.handOvers = ds.map setup.parcelOf
  mem : x ∈ s.tables.steps
  running : x.runStatus = .running
  undispatched : G x.workflowInstanceUid →
    ∀ d ∈ ds, d.step.uid = x.uid → d.attempt ≤ x.runCount

theorem UnderWay.standing {x : StepInstance} (h : UnderWay setup G ds s x) : Standing setup G s :=
  ⟨ds, h.stands, h.handedOver⟩

/-- The step that is read after a launch is in an attempt that has not been dispatched. -/
theorem Stands.launched (h : Stands G t issued ds) (hl : Launchable G t u) {input : Json.Object}
    {time : Instant} {x : StepInstance}
    (hx : (t.onStep u fun y ↦ ((), Store.Tables.launched input time y)).2.step? u = some x) :
    x.runStatus = .running ∧ (G x.workflowInstanceUid →
      ∀ d ∈ ds, d.step.uid = x.uid → d.attempt ≤ x.runCount) := by
  cases hy : t.step? u with
  | none =>
    rw [Store.Tables.onStep_of_none hy, hy] at hx
    cases hx
  | some y =>
    rw [Store.Tables.onStep_of_some hy] at hx
    obtain ⟨hmem, rfl⟩ := Store.Tables.mem_of_step? hy
    obtain ⟨hxm, hxu⟩ := Store.Tables.mem_of_step? hx
    rcases Store.mem_overwrite hxm with rfl | ⟨-, hne⟩
    · exact ⟨rfl, fun hG d hd hu ↦ h.attempt_le hl hmem hG hd hu⟩
    · exact absurd hxu hne

theorem runs_launchAttempt {step : StepInstance} {input : Json.Object}
    {r : Except EngineError StepInstance} (hs : Standing setup G s)
    (hl : Launchable G s.tables step.uid) (h : Runs R (launchAttempt step input) s r s') :
    Standing setup G s' ∧ ∀ x, r = .ok x → ∃ ds, UnderWay setup G ds s' x := by
  obtain ⟨ds, hst, hds⟩ := hs
  rcases runs_bind.1 h with ⟨e, h₁, -⟩ | ⟨time, s₁, h₁, hrest⟩
  · obtain ⟨_, -, he, -⟩ := runs_now.1 h₁
    cases he
  rw [Still.now h₁] at hrest
  have hafter : Stands G (s.afterStore (.launchStep step.uid input time)).tables s.issued ds := by
    refine hst.onStep (fun x ↦ ⟨rfl, rfl, rfl, rfl, rfl⟩) fun x hx hu hG ↦ ?_
    exact (hu ▸ hl : Launchable G s.tables x.uid).moves hx rfl hG
  have hread : Still (announceStep step .running >>= fun _ ↦ readStep step.uid) :=
    .bind (still_announceStep _ _) fun _ ↦ still_readStep _
  rcases runs_bind.1 hrest with ⟨e, h₂, rfl⟩ | ⟨_, s₂, h₂, hrest⟩
  · obtain ⟨-, -, rfl⟩ := runs_store.1 h₂
    exact ⟨⟨ds, hafter, hds⟩, fun x hx ↦ nomatch hx⟩
  obtain ⟨-, -, rfl⟩ := runs_store.1 h₂
  rw [hread hrest]
  refine ⟨⟨ds, hafter, hds⟩, fun x hx ↦ ?_⟩
  subst hx
  rcases runs_bind.1 hrest with ⟨e, -, he⟩ | ⟨_, s₃, h₃, hx⟩
  · cases he
  rw [still_announceStep _ _ h₃] at hx
  have hx := runs_readStep hx
  obtain ⟨hrunning, hle⟩ := hst.launched hl hx
  exact ⟨ds, hafter, hds, (Store.Tables.mem_of_step? hx).1, hrunning, hle⟩

/-! ## Handing over -/

theorem UnderWay.sent {x : StepInstance} (h : UnderWay setup G ds s x) (input : Json.Object)
    (f : FunctionInfo) {p : Parcel} (hp : p = setup.parcelOf ⟨x, input, f⟩)
    (hover : p.handsOver = true) (accepted : Bool) : Standing setup G (s.send p accepted) := by
  refine ⟨ds ++ [⟨x, input, f⟩], h.stands.dispatch h.mem h.running h.undispatched, ?_⟩
  rw [List.map_append, ← h.handedOver, Scene.handOvers, Scene.send, List.map_append,
    List.filter_append]
  simp [Scene.handOvers, ← hp, hover]

theorem UnderWay.runs_handOver {x : StepInstance} (h : UnderWay setup G ds s x)
    {input : Json.Object} {f : FunctionInfo} {r : Except EngineError Unit}
    (hrun : Runs R (setup.handOver x input f) s r s') : Standing setup G s' := by
  unfold Setup.handOver at hrun
  cases hmode : setup.mode with
  | queue =>
    rw [hmode] at hrun
    obtain ⟨-, rfl⟩ := runs_publish.1 hrun
    exact h.sent input f (by rw [Setup.parcelOf, hmode]) rfl _
  | push =>
    rw [hmode] at hrun
    unfold Setup.push at hrun
    cases hurl : f.serviceUrl with
    | none =>
      rw [hurl] at hrun
      rw [(runs_throw.1 hrun).2]
      exact h.standing
    | some url =>
      rw [hurl] at hrun
      have hp : Parcel.request url (setup.pushRequest x input).toJson.text =
          setup.parcelOf ⟨x, input, f⟩ := by
        rw [Setup.parcelOf, hmode, hurl]
        rfl
      rcases runs_bind.1 hrun with ⟨e, hrun, -⟩ | ⟨response, s₁, h₁, hrun⟩
      · obtain ⟨-, rfl⟩ := runs_post.1 hrun
        exact h.sent input f hp rfl _
      · obtain ⟨-, rfl⟩ := runs_post.1 h₁
        have hstill : Still (if response.isSuccess = true then pure ()
            else throw (.functionResponded (Http.statusText response.status) response.text) :
            Action Unit) := .ite (.pure _) (.throw _)
        rw [hstill hrun]
        exact h.sent input f hp rfl _

theorem UnderWay.runs_send {x : StepInstance} (h : UnderWay setup G ds s x)
    {input : Json.Object} {f : FunctionInfo} {r : Except EngineError Unit}
    (hrun : Runs R (setup.send x input f) s r s') : Standing setup G s' := by
  unfold Setup.send at hrun
  obtain ⟨o, s₁, h₁, hrun⟩ := runs_attempt_bind.1 hrun
  have hs₁ := h.runs_handOver h₁
  cases o with
  | ok x => exact (Still.pure _).keeps hs₁ hrun
  | error e => exact keeps_publishResult _ hs₁ hrun

/-! ## Launching -/

/-- Whatever starts the run of a sub-workflow keeps the invariant. -/
def ChildKeeps (R : Rule) (setup : Setup) (G : Uid → Prop) (startChild : StartChild) : Prop :=
  ∀ workflow input parent parentStep,
    Keeps R (Standing setup G) (startChild workflow input parent parentStep)

variable {startChild : StartChild} {step : StepInstance} {r : Except EngineError Unit}

theorem runs_dispatchFunction {input : Json.Object} {function : Uid}
    (hs : Standing setup G s) (hl : Launchable G s.tables step.uid)
    (h : Runs R (setup.dispatchFunction step input function) s r s') : Standing setup G s' := by
  rcases runs_bind.1 h with ⟨e, h₁, -⟩ | ⟨f, s₁, h₁, hrest⟩
  · rw [Still.getFunction _ h₁]
    exact hs
  rw [Still.getFunction _ h₁] at hrest
  rcases runs_bind.1 hrest with ⟨e, h₂, -⟩ | ⟨x, s₂, h₂, hsend⟩
  · exact (runs_launchAttempt hs hl h₂).1
  obtain ⟨ds, hx⟩ := (runs_launchAttempt hs hl h₂).2 x rfl
  exact hx.runs_send hsend

theorem runs_startSubWorkflow {input : Json.Object} {workflow : Uid}
    (hc : ChildKeeps R setup G startChild) (hs : Standing setup G s)
    (hl : Launchable G s.tables step.uid)
    (h : Runs R (Setup.startSubWorkflow startChild step input workflow) s r s') :
    Standing setup G s' := by
  rcases runs_bind.1 h with ⟨e, h₁, -⟩ | ⟨x, s₁, h₁, hchild⟩
  · exact (runs_launchAttempt hs hl h₁).1
  · exact hc _ _ _ _ (runs_launchAttempt hs hl h₁).1 hchild

theorem runs_tryLaunch (hc : ChildKeeps R setup G startChild) (hs : Standing setup G s)
    (hl : Launchable G s.tables step.uid)
    (h : Runs R (setup.tryLaunch startChild step) s r s') : Standing setup G s' := by
  rcases runs_bind.1 h with ⟨e, h₁, -⟩ | ⟨input, s₁, h₁, hrest⟩
  · rw [(reads_normalize _ _ _).still h₁]
    exact hs
  rw [(reads_normalize _ _ _).still h₁] at hrest
  cases hshape : step.shape with
  | simple f =>
    rw [hshape] at hrest
    exact runs_dispatchFunction hs hl hrest
  | doWhile f text =>
    rw [hshape] at hrest
    exact runs_dispatchFunction hs hl hrest
  | subWorkflow w =>
    rw [hshape] at hrest
    exact runs_startSubWorkflow hc hs hl hrest
  | switch expression cases =>
    rw [hshape] at hrest
    rcases runs_bind.1 hrest with ⟨e, h₂, -⟩ | ⟨value, s₂, h₂, hrest⟩
    · rw [(reads_evaluateSwitch _ _).still h₂]
      exact hs
    rw [(reads_evaluateSwitch _ _).still h₂] at hrest
    rcases runs_bind.1 hrest with ⟨e, h₃, -⟩ | ⟨choice, s₃, h₃, hrest⟩
    · rw [Still.ofExcept _ h₃]
      exact hs
    rw [Still.ofExcept _ h₃] at hrest
    -- The case is noted before the attempt begins, which leaves the step launchable.
    have hnoted := hl.prepared hs (c := .setSelectedCase step.uid choice.1)
      (fun x ↦ ((), { x with selectedCaseName := some choice.1 })) rfl
      (fun _ ↦ ⟨rfl, rfl, rfl, rfl, rfl⟩) (fun _ ↦ rfl) fun _ ↦ rfl
    rcases runs_bind.1 hrest with ⟨e, h₄, -⟩ | ⟨_, s₄, h₄, hrest⟩
    · obtain ⟨-, -, rfl⟩ := runs_store.1 h₄
      exact hnoted.1
    obtain ⟨-, -, rfl⟩ := runs_store.1 h₄
    obtain ⟨name, target⟩ := choice
    cases target with
    | function f => exact runs_dispatchFunction hnoted.1 hnoted.2 hrest
    | subWorkflow w => exact runs_startSubWorkflow hc hnoted.1 hnoted.2 hrest

/-- What comes after a launch has been tried. -/
def Setup.settle (setup : Setup) (step : StepInstance) : Except EngineError Unit → Action Unit
  | .ok () => pure ()
  | .error e =>
    if Setup.preventsLaunch e then setup.fail step.workflowInstanceUid .failed step.name e.message
    else throw e

theorem launch_eq (setup : Setup) (startChild : StartChild) (step : StepInstance) :
    setup.launch startChild step =
      Action.attempt (setup.tryLaunch startChild step) >>= setup.settle step := by
  refine congrArg (bind _) (funext fun o ↦ ?_)
  cases o with
  | error e => rfl
  | ok _ => rfl

theorem settle_of_preventsLaunch {e : EngineError} (h : Setup.preventsLaunch e = true) :
    setup.settle step (.error e) = setup.fail step.workflowInstanceUid .failed
      step.name e.message :=
  if_pos h

theorem settle_of_not_preventsLaunch {e : EngineError} (h : Setup.preventsLaunch e = false) :
    setup.settle step (.error e) = throw e := if_neg (by simp [h])

/-- A launch is tried, and then it depends on what has come of that. -/
theorem runs_launch_iff : Runs R (setup.launch startChild step) s r s' ↔
    ∃ o s₁, Runs R (setup.tryLaunch startChild step) s o s₁ ∧
      Runs R (setup.settle step o) s₁ r s' := by
  rw [launch_eq, runs_attempt_bind]

/-- **A launch where the run stands keeps the invariant**, whatever comes of it. -/
theorem runs_launch (hc : ChildKeeps R setup G startChild) (hs : Standing setup G s)
    (hl : Launchable G s.tables step.uid) (h : Runs R (setup.launch startChild step) s r s') :
    Standing setup G s' := by
  obtain ⟨o, s₁, h₁, hrest⟩ := runs_launch_iff.1 h
  have hs₁ := runs_tryLaunch hc hs hl h₁
  cases o with
  | ok x => exact (Still.pure _).keeps hs₁ hrest
  | error e => exact Keeps.ite (keeps_fail rfl _ _) (Still.throw _).keeps hs₁ hrest

/-! ## Starting -/

/-- A rule under which every guided run is made with stop conditions over their own steps alone
that say the same whenever they are evaluated. -/
def Guiding (R : Rule) (G : Uid → Prop) : Prop :=
  ∀ run steps a, R (.store (.insertRun run steps)) a → G run.uid →
    ∀ x ∈ steps, StepInstance.SelfGuided x.shape

theorem guided_of_isPlainlyGuided
    (h : ∀ m ∈ s.made, ∀ x ∈ m.2, StepInstance.isPlainlyGuided x.shape = true) :
    ∀ m ∈ s.made, ∀ x ∈ m.2, StepInstance.SelfGuided x.shape :=
  fun m hm x hx ↦ StepInstance.selfGuided_of_isPlainlyGuided (h m hm x hx)

/-- A run has just been made: if it is still there, nothing has happened to it. -/
def Newborn (t : Store.Tables) (run : Uid) : Prop :=
  ∀ r ∈ t.runs, r.uid = run → r.runStatus = .new

theorem runs_newUids {n : Nat} {r : Except EngineError (List Uid)}
    (h : Runs R (Action.newUids n) s r s') :
    ∃ us, r = .ok us ∧ us.length = n ∧ us.Nodup ∧ (∀ u ∈ us, u ∉ s.issued) ∧
      s' = { s with issued := s.issued ++ us } := by
  induction n generalizing s s' r with
  | zero =>
    obtain ⟨rfl, rfl⟩ := runs_pure.1 h
    exact ⟨[], rfl, rfl, List.nodup_nil, by simp, by simp⟩
  | succ n ih =>
    rcases runs_bind.1 h with ⟨e, h₁, -⟩ | ⟨u, s₁, h₁, hrest⟩
    · obtain ⟨_, -, -, he, -⟩ := runs_newUid.1 h₁
      cases he
    obtain ⟨u', hnew, -, hu, rfl⟩ := runs_newUid.1 h₁
    obtain rfl := Except.ok.inj hu
    rcases runs_bind.1 hrest with ⟨e, h₂, -⟩ | ⟨us, s₂, h₂, hrest⟩
    · obtain ⟨us, he, -⟩ := ih h₂
      cases he
    obtain ⟨us', hus, hlen, hnd, hfresh, rfl⟩ := ih h₂
    obtain rfl := Except.ok.inj hus
    obtain ⟨rfl, rfl⟩ := runs_pure.1 hrest
    refine ⟨u :: us, rfl, by rw [List.length_cons, hlen], List.nodup_cons.2 ⟨fun hu ↦ ?_, hnd⟩,
      fun v hv ↦ ?_, ?_⟩
    · exact hfresh u hu (List.mem_append_right _ (List.mem_singleton_self _))
    · rcases List.mem_cons.1 hv with rfl | hv
      · exact hnew
      · exact fun hvi ↦ hfresh v hv (List.mem_append_left _ hvi)
    · simp [Scene.issue]

theorem runStands_newRun {definition : WorkflowDefinition} {steps : List StepDefinition}
    {input : Json.Object} {parent parentStep : Option Uid} {time : Instant} {run : Uid}
    {uids : List Uid} (hne : steps ≠ []) (hlen : uids.length = steps.length) (hnd : uids.Nodup)
    (hguided : ∀ x ∈ buildStepInstances run steps input uids, StepInstance.SelfGuided x.shape) :
    RunStands
      (newRun run definition (buildStepInstances run steps input uids) input parent parentStep
        time)
      (buildStepInstances run steps input uids) := by
  have hfresh : ∀ x ∈ buildStepInstances run steps input uids, x.Fresh := fun x hx ↦
    (of_mem_buildStepInstances run input hlen hx).1
  have hheaded := headed_buildStepInstances run input hlen hne
  refine ⟨⟨linked_buildStepInstances run input hlen hnd, hheaded, hguided, ?_⟩, fun _ ↦ hfresh,
    (fun hn ↦ nomatch hn), fun _ ↦ rfl⟩
  cases hcs : buildStepInstances run steps input uids with
  | nil =>
    rw [hcs] at hheaded
    exact hheaded.elim
  | cons x rest => exact ⟨x.uid, .of_fresh (hcs ▸ hfresh)⟩

/-- A new run may be put in under identifiers that have just been given out. -/
theorem Standing.insertNew (hs : Standing setup G s) (definition : WorkflowDefinition)
    {steps : List StepDefinition} {input : Json.Object} (parent parentStep : Option Uid)
    (time : Instant) {run : Uid} {uids : List Uid} (hne : steps ≠ [])
    (hlen : uids.length = steps.length) (hnd : uids.Nodup) (hrun : run ∉ s.issued)
    (huids : ∀ u ∈ uids, u ∉ (s.issue run).issued) {instances : List StepInstance}
    (hinst : instances = buildStepInstances run steps input uids) {new : WorkflowInstance}
    (hnew : new = newRun run definition instances input parent parentStep time)
    {s₁ : Scene} (hs₁ : s₁ = { s.issue run with issued := (s.issue run).issued ++ uids }) :
    s₁.tables.answer (.insertRun new instances) = (.ok (), withRun s.tables new instances) ∧
      Newborn (withRun s.tables new instances) run ∧
      ((G run → ∀ x ∈ instances, StepInstance.SelfGuided x.shape) →
        Standing setup G (s₁.afterStore (.insertRun new instances))) := by
  obtain ⟨ds, hst, hds⟩ := hs
  have huid : new.uid = run := by rw [hnew]; rfl
  have hmap : instances.map (·.uid) = uids := hinst ▸ map_uid_buildStepInstances run input hlen
  have hmem : ∀ x ∈ instances, x.uid ∈ uids := fun x hx ↦ hmap ▸ List.mem_map_of_mem hx
  have hold : ∀ u ∈ uids, u ∉ s.issued := fun u hu hi ↦ huids u hu (List.mem_append_left _ hi)
  have hown : ∀ x ∈ instances, x.workflowInstanceUid = new.uid := fun x hx ↦
    ((of_mem_buildStepInstances run input hlen (hinst ▸ hx)).2.1).trans huid.symm
  have hrne : ∀ r ∈ s.tables.runs, r.uid ≠ new.uid := fun r hr hu ↦
    hrun (huid ▸ hu ▸ hst.runsIssued r hr)
  have hans : s₁.tables.answer (.insertRun new instances) =
      (.ok (), withRun s.tables new instances) := by
    rw [hs₁]
    exact answer_insertRun hrne (hmap.symm ▸ hnd) fun x hx y hy hu ↦
      hold x.uid (hmem x hx) (hu ▸ hst.stepsIssued y hy)
  refine ⟨hans, fun r hr hu ↦ ?_, fun hguided ↦ ⟨ds, ?_, by rw [hs₁]; exact hds⟩⟩
  · rcases List.mem_append.1 hr with hr | hr
    · exact absurd (hu.trans huid.symm) (hrne r hr)
    · rw [List.mem_singleton.1 hr, hnew]
      rfl
  · show Stands G (s₁.tables.answer (.insertRun new instances)).2 s₁.issued ds
    rw [hans, hs₁]
    refine hst.withRun (fun u hu ↦ List.mem_append_left _ (List.mem_append_left _ hu))
      ⟨?_, huid ▸ hrun⟩ (fun x hx ↦ ⟨List.mem_append_right _ (hmem x hx), hold x.uid (hmem x hx)⟩)
      (hmap.symm ▸ hnd) hown (hinst ▸ linked_buildStepInstances run input hlen hnd)
        (by rw [hnew]; rfl)
      fun hG ↦ ?_
    · rw [huid]
      exact List.mem_append_left _ (List.mem_append_right _ (List.mem_singleton_self _))
    · subst hinst hnew
      exact runStands_newRun hne hlen hnd (hguided hG)

/-- A new run is made of identifiers that have just been given out, and put into the store. -/
theorem runs_generate_cases {definition : WorkflowDefinition} {steps : List StepDefinition}
    {input : Json.Object} {parent parentStep : Option Uid}
    {r : Except EngineError (WorkflowInstance × List StepInstance)}
    (h : Runs R (generate definition steps input parent parentStep) s r s') :
    (steps = [] ∧ r = .error (.noSteps definition.name) ∧ s' = s) ∨
    ∃ run uids time instances new, steps ≠ [] ∧ uids.length = steps.length ∧ uids.Nodup ∧
      run ∉ s.issued ∧ (∀ u ∈ uids, u ∉ (s.issue run).issued) ∧
      instances = buildStepInstances run steps input uids ∧
      new = newRun run definition instances input parent parentStep time ∧
      R (.store (.insertRun new instances)) (s.tables.answer (.insertRun new instances)).1 ∧
      s' = { s.issue run with issued := (s.issue run).issued ++ uids }.afterStore
        (.insertRun new instances) ∧
      r = (s.tables.answer (.insertRun new instances)).1.map fun _ ↦ (new, instances) := by
  unfold generate at h
  by_cases hempty : steps.isEmpty
  · rw [if_pos hempty] at h
    rcases runs_bind.1 h with ⟨e, h₁, rfl⟩ | ⟨_, _, h₁, -⟩
    · obtain ⟨he, rfl⟩ := runs_throw.1 h₁
      exact .inl ⟨List.isEmpty_iff.1 hempty, by rw [Except.error.inj he], rfl⟩
    · cases (runs_throw.1 h₁).1
  rw [if_neg hempty] at h
  rcases runs_bind.1 h with ⟨e, h₁, -⟩ | ⟨run, s₁, h₁, hrest⟩
  · obtain ⟨_, -, -, he, -⟩ := runs_newUid.1 h₁
    cases he
  obtain ⟨run', hrun, -, hu, rfl⟩ := runs_newUid.1 h₁
  obtain rfl := Except.ok.inj hu
  rcases runs_bind.1 hrest with ⟨e, h₂, -⟩ | ⟨uids, s₂, h₂, hrest⟩
  · obtain ⟨_, he, -⟩ := runs_newUids h₂
    cases he
  obtain ⟨us, hus, hlen, hnd, hfresh, rfl⟩ := runs_newUids h₂
  obtain rfl := Except.ok.inj hus
  rcases runs_bind.1 hrest with ⟨e, h₃, -⟩ | ⟨time, s₃, h₃, hrest⟩
  · obtain ⟨_, -, he, -⟩ := runs_now.1 h₃
    cases he
  rw [Still.now h₃] at hrest
  refine .inr ⟨run, uids, time, _, _, by simpa using hempty, hlen, hnd, hrun, hfresh, rfl, rfl, ?_⟩
  rcases runs_bind.1 hrest with ⟨e, h₄, rfl⟩ | ⟨_, s₄, h₄, hrest⟩
  · obtain ⟨he, hRins, rfl⟩ := runs_store.1 h₄
    refine ⟨he ▸ hRins, rfl, ?_⟩
    rw [show s.tables.answer _ = (s.issue run).tables.answer _ from rfl, ← he]
    rfl
  · obtain ⟨he, hRins, rfl⟩ := runs_store.1 h₄
    obtain ⟨rfl, rfl⟩ := runs_pure.1 hrest
    refine ⟨he ▸ hRins, rfl, ?_⟩
    rw [show s.tables.answer _ = (s.issue run).tables.answer _ from rfl, ← he]
    rfl

theorem runs_generate (hR : Guiding R G) {definition : WorkflowDefinition}
    {steps : List StepDefinition} {input : Json.Object} {parent parentStep : Option Uid}
    {r : Except EngineError (WorkflowInstance × List StepInstance)} (hs : Standing setup G s)
    (h : Runs R (generate definition steps input parent parentStep) s r s') :
    Standing setup G s' ∧ ∀ m, r = .ok m → Newborn s'.tables m.1.uid := by
  rcases runs_generate_cases h with ⟨-, rfl, rfl⟩ | ⟨run, uids, time, instances,
    new, hne, hlen, hnd, hrun, hfresh, hinst, hnew, hRins, rfl, hr⟩
  · exact ⟨hs, fun m hm ↦ nomatch hm⟩
  obtain ⟨hans, hborn, hins⟩ := hs.insertNew definition parent parentStep time hne hlen hnd hrun
    hfresh hinst hnew rfl
  have huid : new.uid = run := by rw [hnew]; rfl
  refine ⟨hins (huid ▸ hR _ _ _ hRins), fun m hm ↦ ?_⟩
  rw [show s.tables.answer (.insertRun new instances) = _ from hans] at hr
  obtain rfl := Except.ok.inj (hr.symm.trans hm)
  show Newborn (s.tables.answer (.insertRun new instances)).2 new.uid
  rw [show s.tables.answer (.insertRun new instances) = _ from hans, huid]
  exact hborn

/-- A run that has not begun may begin, and then its first step may be launched. -/
theorem Standing.begin (hs : Standing setup G s) {run : Uid} (expected : Option RunStatus)
    {x : StepInstance}
    (hwaits : ∀ r ∈ s.tables.runs, r.uid = run →
      (r.runStatus = .new ∨ r.runStatus = .deployingFunctions) ∧ ∀ e ∈ expected, r.runStatus = e)
    (hx : x ∈ s.tables.chainOf run) (hl : x.runOrderLabel = .first) :
    Standing setup G (s.afterStore (.updateRunStatus run .running expected)) ∧
      Launchable G (s.afterStore (.updateRunStatus run .running expected)).tables x.uid := by
  have hs' : Standing setup G (s.afterStore (.updateRunStatus run .running expected)) :=
    hs.updateRunStatus fun r hr _ _ _ h ↦ by
      obtain ⟨hmem, hu⟩ := Store.Tables.mem_of_run? hr
      refine h.of_unheld (h.unheld ?_) (.inl rfl)
      exact (hwaits r hmem hu).1.imp_right .inl
  refine ⟨hs', ?_⟩
  obtain ⟨ds, hst, -⟩ := hs
  obtain ⟨ds', hst', -⟩ := hs'
  obtain ⟨hmem, hxrun⟩ := Store.Tables.mem_chainOf.1 hx
  obtain ⟨r, hr, hru⟩ := hst.keyed.owned x hmem
  have hr? := hst.keyed.run?_iff.2 ⟨hr, hru.trans hxrun⟩
  obtain ⟨hbefore, hexp⟩ := hwaits r hr (hru.trans hxrun)
  have hchange : Store.Tables.withStatus .running expected r =
      (true, { r with runStatus := .running }) := by
    rw [Store.Tables.withStatus, if_neg]
    rw [Bool.or_eq_true, not_or]
    constructor
    · rcases hbefore with hb | hb <;> simp [hb, RunStatus.isTerminal]
    · cases expected with
      | none => simp
      | some e => simp [hexp e rfl]
  have htables : (s.afterStore (.updateRunStatus run .running expected)).tables =
      s.tables.putRun { r with runStatus := .running } := by
    show (s.tables.onRun run (Store.Tables.withStatus .running expected)).2 = _
    rw [Store.Tables.onRun_of_some hr?, hchange]
  rw [htables] at hst' ⊢
  refine hst'.launchable_first hx hl (fun hG ↦ ?_) fun q hq hqu ↦ ?_
  · have hfresh := (hst.run r hr ((hru.trans hxrun).symm ▸ hG)).fresh hbefore
    rw [hru.trans hxrun] at hfresh
    exact (hfresh x hx).1
  · rcases Store.mem_overwrite hq with rfl | ⟨-, hne⟩
    · exact ⟨by simp, by simp, by simp⟩
    · exact absurd (hqu.trans (hru.trans hxrun).symm) hne

theorem runs_prepareFunctions (hc : ChildKeeps R setup G startChild) {run : Uid}
    {steps : List StepDefinition} {x : StepInstance} (hs : Standing setup G s)
    (hb : Newborn s.tables run) (hx : x ∈ s.tables.chainOf run) (hl : x.runOrderLabel = .first)
    (h : Runs R (setup.prepareFunctions startChild run steps x) s r s') :
    Standing setup G s' := by
  rcases runs_bind.1 h with ⟨e, h₁, -⟩ | ⟨found, s₁, h₁, hrest⟩
  · rw [still_lookUpFunctions _ h₁]
    exact hs
  rw [still_lookUpFunctions _ h₁] at hrest
  cases found with
  | error failure => exact keeps_terminate rfl _ _ hs hrest
  | ok undeployed =>
    dsimp only at hrest
    split at hrest
    · exact keeps_fail rfl _ _ hs hrest
    · split at hrest
      · -- All functions are deployed: the run begins.
        rcases runs_bind.1 hrest with ⟨e, h₂, -⟩ | ⟨_, s₂, h₂, hlaunch⟩
        · rw [(runs_writeRunStatus h₂).1]
          exact (hs.begin none (fun r hr hu ↦ ⟨.inl (hb r hr hu), by simp⟩) hx hl).1
        · rw [(runs_writeRunStatus h₂).1] at hlaunch
          obtain ⟨hs', hl'⟩ :=
            hs.begin none (fun r hr hu ↦ ⟨.inl (hb r hr hu), by simp⟩) hx hl
          exact runs_launch hc hs' hl' hlaunch
      · -- Some are not: the run waits.
        have hwait : Standing setup G
            (s.afterStore (.updateRunStatus run .deployingFunctions none)) :=
          hs.updateRunStatus fun r hr _ _ _ hst ↦ by
            obtain ⟨hmem, hu⟩ := Store.Tables.mem_of_run? hr
            have hnew := hb r hmem hu
            exact hst.of_waiting (hst.unheld (.inl hnew)) (hst.fresh (.inl hnew)) rfl
        rcases runs_bind.1 hrest with ⟨e, h₂, -⟩ | ⟨_, s₂, h₂, hrest⟩
        · rw [still_requestDeployments _ h₂]
          exact hs
        rw [still_requestDeployments _ h₂] at hrest
        rcases runs_bind.1 hrest with ⟨e, h₃, -⟩ | ⟨_, s₃, h₃, hrest⟩
        · rw [(runs_writeRunStatus h₃).1]
          exact hwait
        · rw [(runs_writeRunStatus h₃).1] at hrest
          rw [Still.spawn _ hrest]
          exact hwait

theorem Newborn.setRunStartTime {run : Uid} {time : Instant} (h : Newborn s.tables run) :
    Newborn (s.afterStore (.setRunStartTime run time)).tables run := by
  intro r hr hu
  have htables : (s.afterStore (.setRunStartTime run time)).tables =
      (s.tables.onRun run fun r ↦ ((), { r with startTime := some time })).2 := rfl
  rw [htables] at hr
  cases hq : s.tables.run? run with
  | none =>
    rw [Store.Tables.onRun_of_none hq] at hr
    exact h r hr hu
  | some q =>
    rw [Store.Tables.onRun_of_some hq] at hr
    obtain ⟨hqm, hqu⟩ := Store.Tables.mem_of_run? hq
    rcases Store.mem_overwrite hr with rfl | ⟨hr, -⟩
    · exact h q hqm hqu
    · exact h r hr hu

theorem runs_startRun (hc : ChildKeeps R setup G startChild) {run : Uid}
    {definition : WorkflowDefinition} {steps : List StepDefinition}
    {r : Except EngineError RunSnapshot} (hs : Standing setup G s) (hb : Newborn s.tables run)
    (h : Runs R (setup.startRun startChild run definition steps) s r s') :
    Standing setup G s' := by
  rcases runs_bind.1 h with ⟨e, h₁, -⟩ | ⟨_, s₁, h₁, hrest⟩
  · exact keeps_setRunStartTime hs h₁
  have hs₁ := keeps_setRunStartTime hs h₁
  have hb₁ : Newborn s₁.tables run := by
    rcases runs_bind.1 h₁ with ⟨e, -, he⟩ | ⟨time, s₂, hnow, hset⟩
    · cases he
    · rw [Still.now hnow] at hset
      obtain ⟨-, -, rfl⟩ := runs_store.1 hset
      exact hb.setRunStartTime
  rcases runs_bind.1 hrest with ⟨e, h₂, -⟩ | ⟨o, s₂, h₂, hrest⟩
  · rw [Still.attempt (still_firstStep run) h₂]
    exact hs₁
  obtain ⟨o', hfirst, ho⟩ := runs_attempt.1 h₂
  obtain rfl := Except.ok.inj ho
  rw [still_firstStep run hfirst] at hrest hfirst
  have hstate : Keeps R (Standing setup G) (state run) := (still_state run).keeps
  cases o with
  | error e =>
    exact Keeps.ite (.bind (keeps_fail rfl _ _) fun _ ↦ hstate)
      (.bind (Still.throw _).keeps fun _ ↦ hstate) hs₁ hrest
  | ok x =>
    obtain ⟨hx, hl⟩ := runs_firstStep hfirst
    dsimp only at hrest
    split at hrest
    · rcases runs_bind.1 hrest with ⟨e, h₃, -⟩ | ⟨_, s₃, h₃, hrest⟩
      · rw [(runs_writeRunStatus h₃).1]
        exact (hs₁.begin none (fun r hr hu ↦ ⟨.inl (hb₁ r hr hu), by simp⟩) hx hl).1
      · rw [(runs_writeRunStatus h₃).1] at hrest
        obtain ⟨hs₃, hl₃⟩ :=
          hs₁.begin none (fun r hr hu ↦ ⟨.inl (hb₁ r hr hu), by simp⟩) hx hl
        rcases runs_bind.1 hrest with ⟨e, h₄, -⟩ | ⟨_, s₄, h₄, hrest⟩
        · exact runs_launch hc hs₃ hl₃ h₄
        · exact hstate (runs_launch hc hs₃ hl₃ h₄) hrest
    · rcases runs_bind.1 hrest with ⟨e, h₃, -⟩ | ⟨_, s₃, h₃, hrest⟩
      · exact runs_prepareFunctions hc hs₁ hb₁ hx hl h₃
      · exact hstate (runs_prepareFunctions hc hs₁ hb₁ hx hl h₃) hrest

theorem still_stepsOf (definition : WorkflowDefinition) (workflow : Uid) :
    Still (Setup.stepsOf definition workflow) := .ite (.getStepList _) (.pure _)

theorem keeps_startWith (hR : Guiding R G) (hc : ChildKeeps R setup G startChild) (workflow : Uid)
    (input : Json.Object) (parent parentStep : Option Uid) :
    Keeps R (Standing setup G) (setup.startWith startChild workflow input parent parentStep) := by
  refine .bind (Still.getWorkflow _).keeps fun definition ↦
    .bind (still_stepsOf definition workflow).keeps fun steps ↦ ?_
  intro s r s' hs h
  rcases runs_bind.1 h with ⟨e, h₁, -⟩ | ⟨m, s₁, h₁, hstart⟩
  · exact (runs_generate hR hs h₁).1
  · obtain ⟨hs₁, hb⟩ := runs_generate hR hs h₁
    exact runs_startRun hc hs₁ (hb m rfl) hstart

/-- **Starting a run keeps the invariant**, however many runs start one another. -/
theorem keeps_startNested (hR : Guiding R G) (depth : Nat) (workflow : Uid) (input : Json.Object)
    (parent parentStep : Option Uid) :
    Keeps R (Standing setup G)
      (setup.startNested depth workflow input parent parentStep) := by
  induction depth generalizing workflow input parent parentStep with
  | zero => exact (Still.throw _).keeps
  | succ depth ih =>
    exact keeps_startWith hR (fun w i p ps ↦ .bind (ih w i (some p) (some ps)) fun _ ↦
      (Still.pure _).keeps) workflow input parent parentStep

theorem keeps_startWorkflow (hR : Guiding R G) (workflow : Uid) (input : Json.Object)
    (parent parentStep : Option Uid) :
    Keeps R (Standing setup G) (setup.startWorkflow workflow input parent parentStep) :=
  keeps_startNested hR _ workflow input parent parentStep

theorem runs_launchStep (hR : Guiding R G) (hs : Standing setup G s)
    (hl : Launchable G s.tables step.uid) (h : Runs R (setup.launchStep step) s r s') :
    Standing setup G s' :=
  runs_launch (fun w i p ps ↦ .bind (keeps_startWorkflow hR w i (some p) (some ps)) fun _ ↦
    (Still.pure _).keeps) hs hl h

end Engine

end Orchestration
