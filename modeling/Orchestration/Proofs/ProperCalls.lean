import Orchestration.Proofs.Statuses

/-!
# Proper calls

Which calls an operation may make depends on what it is about. It reads and writes the records of
its own runs, those that it names and those that it makes, and of all others it reads at most the
step that waits for one of its own. When it has written a status, the very next call announces it.
It launches a step only where the run of the step is clear to go: the run had begun before, it has
just been told that its functions are deployed, they have all been seen deployed while it was
prepared, or it begins with another run. Whatever it hands over, it hands over for a running step of
its own, to a function that the step names and that has been looked up.

All of this is said of single calls, each with the scene in which it is made and the calls before it
(`Proper`). An operation is well conducted if all its calls are proper (`Conducted`). The records of
the store stay sound along the way (`Proper.after`), and a run in which anything has happened to a
step was clear to go (`Conducted.cleared`).
-/

namespace Orchestration

namespace Engine

open Chain

variable {α : Type} {setup : Setup} {o : Operation} {s₀ s s' : Scene}
    {log l : List Moment} {u k : Uid}

/-! ## Own runs -/

/-- A run is named by an operation, itself or by one of its steps. -/
def Operation.Names (o : Operation) (t : Store.Tables) (u : Uid) : Prop :=
  match o with
  | .result m => ∃ x ∈ t.steps, x.uid = m.stepInstanceId ∧ x.workflowInstanceUid = u
  | .outcome m | .failRun m => m.workflowInstanceId = u
  | .stop v | .pause v | .resume v => v = u
  | .watch v _ (.report m ..) => v = u ∨ m.workflowInstanceId = u
  | .watch v .. => v = u
  | .start .. | .sweep .. => False

/-- A run is an operation's own: the operation names it or has made it. -/
def Owns (o : Operation) (s₀ s : Scene) (u : Uid) : Prop :=
  o.Names s₀.tables u ∨ u ∉ s₀.issued ∧ u ∈ s.issued

/-- A run has a step. -/
def HasStep (t : Store.Tables) (run step : Uid) : Prop :=
  ∃ x ∈ t.steps, x.uid = step ∧ x.workflowInstanceUid = run

/-- A step is one of an operation's own runs. -/
def OwnsStep (o : Operation) (s₀ s : Scene) (k : Uid) : Prop :=
  ∃ run, Owns o s₀ s run ∧ HasStep s.tables run k

/-- The steps that an operation may read. -/
inductive MayRead (o : Operation) (s₀ s : Scene) (k : Uid) : Prop where
  | own (h : OwnsStep o s₀ s k)
  /-- The step that waits for one of its own runs. -/
  | parent (q : WorkflowInstance) (p : Uid) (hq : q ∈ s.tables.runs) (hown : Owns o s₀ s q.uid)
      (hparent : q.parentInstanceUid = some p) (hstep : q.parentStepInstanceUid = some k)
  /-- The step that it names. -/
  | named (m : StepResult) (ho : o = .result m) (hk : m.stepInstanceId = k)

/-- What a new run reports to: whatever whoever starts it says, or one of the operation's own
steps. -/
inductive Fathers (o : Operation) (s₀ s : Scene) : Option Uid → Option Uid → Prop where
  | outside (workflow : Uid) (input : Json.Object) (parent parentStep : Option Uid)
      (ho : o = .start workflow input parent parentStep) : Fathers o s₀ s parent parentStep
  | step (run k : Uid) (hown : Owns o s₀ s run) (hstep : HasStep s.tables run k) :
      Fathers o s₀ s (some run) (some k)

/-- The identifiers that records have. -/
def usedIn (t : Store.Tables) : List Uid := t.runs.map (·.uid) ++ t.steps.map (·.uid)

/-- An identifier has been given out to an operation, and no record has it. -/
structure ToBeUsed (s₀ s : Scene) (v : Uid) : Prop where
  known : v ∈ s.issued
  fresh : v ∉ s₀.issued
  unused : v ∉ usedIn s.tables

/-- A new run may be put in with its steps. -/
structure Founds (o : Operation) (s₀ s : Scene) (new : WorkflowInstance)
    (steps : List StepInstance) : Prop where
  uid : ToBeUsed s₀ s new.uid
  status : new.runStatus = .new
  unheld : new.heldStepInstanceUid = none
  stepUids : ∀ x ∈ steps, ToBeUsed s₀ s x.uid
  distinct : (steps.map (·.uid)).Nodup
  own : ∀ x ∈ steps, x.workflowInstanceUid = new.uid
  stepStatus : ∀ x ∈ steps, x.runStatus = .new
  linked : Linked steps
  parents : Fathers o s₀ s new.parentInstanceUid new.parentStepInstanceUid

/-! ## Clear to go -/

/-- A run has begun: it is under way or paused, or something has happened to one of its steps. -/
def RunBegun (t : Store.Tables) (u : Uid) : Prop :=
  (∃ q ∈ t.runs, q.uid = u ∧ (q.runStatus = .running ∨ q.runStatus = .paused)) ∨
    ∃ x ∈ t.steps, x.workflowInstanceUid = u ∧ x.runStatus ≠ .new

/-- Whether a call looks a function up. -/
def Moment.isLookUp : Moment → Bool
  | ⟨_, .getFunction _, _⟩ => true
  | _ => false

/-- What the catalog has answered about a function. -/
def Moment.finds? (f : Uid) : Moment → Option FunctionInfo
  | ⟨_, .getFunction g, .ok info⟩ => if g = f then some info else none
  | _ => none

/-- Whether the catalog has answered that a function is deployed. -/
def Moment.seesDeployed (f : Uid) (m : Moment) : Bool := (m.finds? f).any (·.isDeployed)

/-- A lookup is made to prepare a run: it is one of those in a row after the start of the run has
been noted and its steps have been listed. -/
def Prepares (log : List Moment) (u : Uid) (m : Moment) : Prop :=
  ∃ before m₁ m₂ time row after, log = before ++ m₁ :: m₂ :: (row ++ after) ∧
    m₁.call = .store (.setRunStartTime u time) ∧ m₂.call = .store (.listSteps u) ∧
    (∀ m ∈ row, m.isLookUp = true) ∧ m ∈ row

theorem Prepares.append {m : Moment} (h : Prepares log u m) (l : List Moment) :
    Prepares (log ++ l) u m := by
  obtain ⟨before, m₁, m₂, time, row, after, rfl, h₁, h₂, hrow, hm⟩ := h
  exact ⟨before, m₁, m₂, time, row, after ++ l, by simp, h₁, h₂, hrow, hm⟩

/-- Why the steps of a run may be launched. -/
inductive Cleared (o : Operation) (s₀ : Scene) (log : List Moment) (s : Scene)
    (u : Uid) : Prop where
  | begun (h : RunBegun s₀.tables u)
  /-- The operation tells the run that its functions are deployed. -/
  | told (m : DeploymentOutcome) (ho : o = .outcome m) (hready : m.ready = true)
      (hrun : m.workflowInstanceId = u)
  /-- The run begins with another run. -/
  | nested (e : WorkflowInstance × List StepInstance) (x : StepInstance) (he : e ∈ s.made)
      (hu : e.1.uid = u) (hx : x ∈ e.2) (hfirst : x.runOrderLabel = .first)
      (hshape : x.shape.control = .subWorkflow)
  /-- All its functions have been seen deployed when it was prepared. -/
  | prepared (e : WorkflowInstance × List StepInstance) (he : e ∈ s.made) (hu : e.1.uid = u)
      (hseen : ∀ x ∈ e.2, ∀ f ∈ x.shape.functionRefs, ∃ m, Prepares log u m ∧
        m.seesDeployed f = true)

/-- A run may be asked to get a status. -/
structure MayTurn (o : Operation) (s₀ : Scene) (log : List Moment) (s : Scene) (u : Uid)
    (status : RunStatus) (expected : Option RunStatus) : Prop where
  running : status = .running → Cleared o s₀ log s u ∨ expected = some .paused
  paused : status = .paused → expected = some .running

theorem mayTurn_of_ne {status : RunStatus} {expected : Option RunStatus} (hr : status ≠ .running)
    (hp : status ≠ .paused) : MayTurn o s₀ log s u status expected :=
  ⟨fun h ↦ absurd h hr, fun h ↦ absurd h hp⟩

/-- A watch over the functions of a run may be started: each function that the run may call has been
seen deployed, or is watched. -/
def MayWatch (log : List Moment) (s : Scene) (u : Uid) (functions : List Uid) : Prop :=
  ∃ e ∈ s.made, e.1.uid = u ∧ ∀ x ∈ e.2, ∀ f ∈ x.shape.functionRefs, ∃ m, Prepares log u m ∧
    ∃ info, m.finds? f = some info ∧ (info.isDeployed = true ∨ info.uid ∈ functions)

/-! ## Handing over -/

/-- Work may be handed over: it is that of a running step of an own run, for a function that the
step names and that has been looked up. -/
structure HandsOver (o : Operation) (s₀ : Scene) (log : List Moment) (s : Scene) (x : StepInstance)
    (f : Uid) (info : FunctionInfo) : Prop where
  step : x ∈ s.tables.steps
  running : x.runStatus = .running
  own : Owns o s₀ s x.workflowInstanceUid
  names : f ∈ x.shape.functionRefs
  found : ∃ m ∈ log, m.finds? f = some info

/-! ## Proper calls -/

/-- The calls of the store that may be made. -/
def MayAsk (o : Operation) (s₀ : Scene) (log : List Moment) (s : Scene) : Store.Call → Prop
  | .getRun u | .listSteps u | .findStep u _ | .setRunStartTime u _ | .setRunEndTime u _
  | .recordRunError u _ _ | .setRunOutput u _ | .takeHeldStep u => Owns o s₀ s u
  | .setHeldStep u step => Owns o s₀ s u ∧ ∀ k ∈ step, HasStep s.tables u k
  | .updateRunStatus u status expected => Owns o s₀ s u ∧ MayTurn o s₀ log s u status expected
  | .getStep k => MayRead o s₀ s k
  | .setSelectedCase k _ | .decrementRetry k | .applyStepResult k _ => OwnsStep o s₀ s k
  | .launchStep k _ _ => ∃ run, Owns o s₀ s run ∧ HasStep s.tables run k ∧ Cleared o s₀ log s run
  | .insertRun new steps => Founds o s₀ s new steps
  | .updateStepStatus .. | .setStepStartTime .. | .setStepEndTime .. | .listTopLevelRuns
  | .deleteRuns _ => False

/-- The messages that may be published, announcements aside. -/
def MayPublish (setup : Setup) (o : Operation) (s₀ : Scene) (log : List Moment) (s : Scene) :
    Channel → String → Prop
  | .work, payload => setup.mode = .queue ∧ ∃ x input f info, HandsOver o s₀ log s x f info ∧
      payload = (workRequest x input info).toJson.text
  | .results, payload => ∃ m : StepResult, payload = m.toJson.text ∧
      (Owns o s₀ s m.workflowInstanceId ∨ ∃ q ∈ s.tables.runs, Owns o s₀ s q.uid ∧
        q.parentInstanceUid = some m.workflowInstanceId ∧
        q.parentStepInstanceUid = some m.stepInstanceId)
  | .deployments, _ => ∃ run time phase, o = .watch run time phase
  | .notifications, _ => False

/-- The calls that may be made, announcements aside. -/
def MayCall (setup : Setup) (o : Operation) (s₀ : Scene) (log : List Moment) (s : Scene) :
    Call → Prop
  | .store c => MayAsk o s₀ log s c
  | .publish channel payload => MayPublish setup o s₀ log s channel payload
  | .post address body => setup.mode = .push ∧ ∃ x input f info, HandsOver o s₀ log s x f info ∧
      info.serviceUrl = some address ∧ body = (setup.pushRequest x input).toJson.text
  | .spawn (.watch u functions) => Owns o s₀ s u ∧ MayWatch log s u functions
  | .spawn (.sweep ..) => True
  | .getFunction _ | .deployFunction _ | .getWorkflow _ | .getStepList _ | .now | .newUid => True

/-- A call may be made. It is the announcement that is due, if one is. -/
def Proper (setup : Setup) (o : Operation) (s₀ : Scene) (log : List Moment) (s : Scene) (c : Call) :
    Prop :=
  match due log with
  | some n => c = .publish .notifications n.toJson.text
  | none => MayCall setup o s₀ log s c

theorem proper_of_due {n : RunNotification} (h : due log = some n) {c : Call} :
    Proper setup o s₀ log s c ↔ c = .publish .notifications n.toJson.text := by
  rw [Proper, h]

theorem proper_of_none (h : due log = none) {c : Call} :
    Proper setup o s₀ log s c ↔ MayCall setup o s₀ log s c := by
  rw [Proper, h]

/-- All calls of an operation so far are proper. -/
inductive Conducted (setup : Setup) (o : Operation) (s₀ : Scene) : List Moment → Scene → Prop where
  | begin : Conducted setup o s₀ [] s₀
  | call {log : List Moment} {s : Scene} (c : Call) (a : c.Answer)
      (before : Conducted setup o s₀ log s) (admitted : s.Admits c a)
      (proper : Proper setup o s₀ log s c) :
      Conducted setup o s₀ (log ++ [⟨s, c, a⟩]) (s.after c a)

/-! ## What stays -/

/-- Nothing is taken back: no identifier, no run that has been made, and no record. -/
structure Grows (s s' : Scene) : Prop where
  issued : s.issued ⊆ s'.issued
  made : s.made ⊆ s'.made
  runs : ∀ q ∈ s.tables.runs, ∃ p ∈ s'.tables.runs, p.uid = q.uid
  steps : ∀ x ∈ s.tables.steps, ∃ y ∈ s'.tables.steps, SameStep x y

namespace Grows

theorem refl (s : Scene) : Grows s s :=
  ⟨List.Subset.refl _, List.Subset.refl _, fun q hq ↦ ⟨q, hq, rfl⟩,
    fun x hx ↦ ⟨x, hx, rfl, rfl, rfl, rfl, rfl⟩⟩

theorem of_tables (htables : s'.tables = s.tables) (hissued : s.issued ⊆ s'.issued)
    (hmade : s.made ⊆ s'.made) : Grows s s' :=
  ⟨hissued, hmade, htables ▸ (refl s).runs, htables ▸ (refl s).steps⟩

theorem trans {s'' : Scene} (h : Grows s s') (h' : Grows s' s'') : Grows s s'' := by
  refine ⟨List.Subset.trans h.issued h'.issued, List.Subset.trans h.made h'.made, fun q hq ↦
    ?_, fun x hx ↦ ?_⟩
  · obtain ⟨p, hp, hpu⟩ := h.runs q hq
    obtain ⟨r, hr, hru⟩ := h'.runs p hp
    exact ⟨r, hr, hru.trans hpu⟩
  · obtain ⟨y, hy, hxy⟩ := h.steps x hx
    obtain ⟨z, hz, hyz⟩ := h'.steps y hy
    exact ⟨z, hz, hxy.trans hyz⟩

variable (h : Grows s s')

include h

theorem owns (hu : Owns o s₀ s u) : Owns o s₀ s' u := hu.imp_right fun hu ↦ ⟨hu.1, h.issued hu.2⟩

theorem hasStep (hk : HasStep s.tables u k) : HasStep s'.tables u k := by
  obtain ⟨x, hx, rfl, rfl⟩ := hk
  obtain ⟨y, hy, hsame⟩ := h.steps x hx
  exact ⟨y, hy, hsame.uid, hsame.run⟩

theorem fathers {parent parentStep : Option Uid} (hp : Fathers o s₀ s parent parentStep) :
    Fathers o s₀ s' parent parentStep := by
  cases hp with
  | outside workflow input _ _ ho => exact .outside workflow input _ _ ho
  | step run k hown hstep => exact .step run k (h.owns hown) (h.hasStep hstep)

theorem cleared (hu : Cleared o s₀ log s u) (l : List Moment) : Cleared o s₀ (log ++ l) s' u := by
  cases hu with
  | begun hu => exact .begun hu
  | told m ho hready hrun => exact .told m ho hready hrun
  | nested e x he hu hx hfirst hshape => exact .nested e x (h.made he) hu hx hfirst hshape
  | prepared e he hu hseen =>
    refine .prepared e (h.made he) hu fun x hx f hf ↦ ?_
    obtain ⟨m, hm, hdeployed⟩ := hseen x hx f hf
    exact ⟨m, hm.append l, hdeployed⟩

end Grows

/-- The records of the store are sound: identifiers are unique and have been given out, and every
run has the steps that its steps and itself name. -/
abbrev Grounded (s : Scene) : Prop := Stands (fun _ ↦ False) s.tables s.issued []

theorem Stands.grounded {G : Uid → Prop} {t : Store.Tables} {issued : List Uid} {ds : List Dispatch}
    (h : Stands G t issued ds) : Stands (fun _ ↦ False) t issued [] where
  keyed := h.keyed
  runsIssued := h.runsIssued
  stepsIssued := h.stepsIssued
  links := h.links
  holds := h.holds
  run _ _ hG := hG.elim
  dispatchesIssued _ hd := nomatch hd
  within _ hd := nomatch hd
  ascending := .nil

theorem Standing.grounded {G : Uid → Prop} (h : Standing setup G s) : Grounded s := by
  obtain ⟨ds, hst, -⟩ := h
  exact hst.grounded

theorem Stands.issue_more {G : Uid → Prop} {t : Store.Tables} {issued issued' : List Uid}
    {ds : List Dispatch} (h : Stands G t issued ds) (hi : issued ⊆ issued') :
    Stands G t issued' ds :=
  { h with
    runsIssued := fun r hr ↦ hi (h.runsIssued r hr)
    stepsIssued := fun x hx ↦ hi (h.stepsIssued x hx)
    dispatchesIssued := fun d hd ↦ hi (h.dispatchesIssued d hd) }

private theorem stays_of_tables {c : Store.Call} {t : Store.Tables} (ht : (s.tables.answer c).2 = t)
    (hg : Stands (fun _ ↦ False) t s.issued [])
    (hruns : ∀ q ∈ s.tables.runs, ∃ p ∈ t.runs, p.uid = q.uid)
    (hsteps : ∀ x ∈ s.tables.steps, ∃ y ∈ t.steps, SameStep x y) :
    Grounded (s.afterStore c) ∧ Grows s (s.afterStore c) := by
  subst ht
  exact ⟨hg, List.Subset.refl _, List.subset_append_left _ _, hruns, hsteps⟩

private theorem stays_onRun (hs : Grounded s) {c : Store.Call} {v : Uid}
    {change : WorkflowInstance → α × WorkflowInstance}
    (hc : (s.tables.answer c).2 = (s.tables.onRun v change).2)
    (huid : ∀ q, (change q).2.uid = q.uid)
    (hheld : ∀ q k, (change q).2.heldStepInstanceUid = some k →
      q.heldStepInstanceUid = some k ∨ HasStep s.tables v k) :
    Grounded (s.afterStore c) ∧ Grows s (s.afterStore c) := by
  refine stays_of_tables hc ?_ (fun p hp ↦ ?_) fun x hx ↦ ⟨x, ?_, rfl, rfl, rfl, rfl, rfl⟩
  · cases hq : s.tables.run? v with
    | none => rwa [Store.Tables.onRun_of_none hq]
    | some q =>
      rw [Store.Tables.onRun_of_some hq]
      obtain ⟨hqm, rfl⟩ := Store.Tables.mem_of_run? hq
      exact hs.putRun hqm (huid q) (hheld q) fun hG ↦ hG.elim
  · cases hq : s.tables.run? v with
    | none =>
      rw [Store.Tables.onRun_of_none hq]
      exact ⟨p, hp, rfl⟩
    | some q =>
      rw [Store.Tables.onRun_of_some hq]
      by_cases hpq : p.uid = (change q).2.uid
      · exact ⟨_, Store.mem_overwrite_self hp hpq, hpq.symm⟩
      · exact ⟨p, Store.mem_overwrite_of_ne hp hpq, rfl⟩
  · rwa [Store.Tables.steps_onRun]

private theorem stays_onStep (hs : Grounded s) {c : Store.Call} {v : Uid}
    {change : StepInstance → α × StepInstance}
    (hc : (s.tables.answer c).2 = (s.tables.onStep v change).2)
    (hsame : ∀ x, SameStep x (change x).2) :
    Grounded (s.afterStore c) ∧ Grows s (s.afterStore c) := by
  refine stays_of_tables hc (hs.onStep hsame fun _ _ _ hG ↦ hG.elim)
    (fun q hq ↦ ⟨q, (runs_onStep v change).symm ▸ hq, rfl⟩) fun x hx ↦ ?_
  cases hy : s.tables.step? v with
  | none =>
    rw [Store.Tables.onStep_of_none hy]
    exact ⟨x, hx, rfl, rfl, rfl, rfl, rfl⟩
  | some y =>
    rw [Store.Tables.onStep_of_some hy]
    obtain ⟨hym, -⟩ := Store.Tables.mem_of_step? hy
    have hu := (hsame y).uid
    by_cases hxy : x.uid = (change y).2.uid
    · obtain rfl := hs.keyed.eq_of_step hx hym (hxy.trans hu)
      exact ⟨_, Store.mem_overwrite_self hx hxy, hsame x⟩
    · exact ⟨x, Store.mem_overwrite_of_ne hx hxy, rfl, rfl, rfl, rfl, rfl⟩

theorem ToBeUsed.ne_run {v : Uid} (h : ToBeUsed s₀ s v) : ∀ q ∈ s.tables.runs, q.uid ≠ v :=
  fun _ hq hu ↦ h.unused (List.mem_append_left _ (hu ▸ List.mem_map_of_mem hq))

theorem ToBeUsed.ne_step {v : Uid} (h : ToBeUsed s₀ s v) : ∀ x ∈ s.tables.steps, x.uid ≠ v :=
  fun _ hx hu ↦ h.unused (List.mem_append_right _ (hu ▸ List.mem_map_of_mem hx))

theorem Founds.answer {new : WorkflowInstance} {steps : List StepInstance}
    (h : Founds o s₀ s new steps) :
    s.tables.answer (.insertRun new steps) = (.ok (), withRun s.tables new steps) :=
  answer_insertRun h.uid.ne_run h.distinct fun x hx ↦ (h.stepUids x hx).ne_step

private theorem Founds.stays {new : WorkflowInstance} {steps : List StepInstance}
    (h : Founds o s₀ s new steps) (hs : Grounded s) :
    Grounded (s.afterStore (.insertRun new steps)) ∧
      Grows s (s.afterStore (.insertRun new steps)) := by
  refine stays_of_tables (congrArg Prod.snd h.answer) ?_
    (fun q hq ↦ ⟨q, List.mem_append_left _ hq, rfl⟩) fun x hx ↦
    ⟨x, List.mem_append_left _ hx, rfl, rfl, rfl, rfl, rfl⟩
  -- The new run and its steps are the first to use their identifiers.
  have hused : Stands (fun _ ↦ False) s.tables (usedIn s.tables) [] :=
    { hs with
      runsIssued := fun q hq ↦ List.mem_append_left _ (List.mem_map_of_mem hq)
      stepsIssued := fun x hx ↦ List.mem_append_right _ (List.mem_map_of_mem hx)
      dispatchesIssued := fun _ hd ↦ nomatch hd }
  refine hused.withRun (fun v hv ↦ ?_) ⟨h.uid.known, h.uid.unused⟩
    (fun x hx ↦ ⟨(h.stepUids x hx).known, (h.stepUids x hx).unused⟩) h.distinct h.own
      h.linked h.unheld
    fun hG ↦ hG.elim
  rcases List.mem_append.1 hv with hv | hv
  · obtain ⟨q, hq, rfl⟩ := List.mem_map.1 hv
    exact hs.runsIssued q hq
  · obtain ⟨x, hx, rfl⟩ := List.mem_map.1 hv
    exact hs.stepsIssued x hx

/-- A call of the store that may be made leaves sound records, and takes nothing back. -/
theorem MayAsk.stays {c : Store.Call} (h : MayAsk o s₀ log s c) (hs : Grounded s) :
    Grounded (s.afterStore c) ∧ Grows s (s.afterStore c) := by
  cases c with
  | insertRun new steps => exact Founds.stays h hs
  | getRun | getStep | listSteps | findStep =>
    exact stays_of_tables rfl hs (fun q hq ↦ ⟨q, hq, rfl⟩) fun x hx ↦
      ⟨x, hx, rfl, rfl, rfl, rfl, rfl⟩
  | updateRunStatus v status expected =>
    exact stays_onRun hs rfl (withStatus_uid status expected) fun q k hk ↦
      .inl (withStatus_held status expected q ▸ hk)
  | setRunStartTime | setRunEndTime | recordRunError | setRunOutput =>
    exact stays_onRun hs rfl (fun _ ↦ rfl) fun _ _ hk ↦ .inl hk
  | setHeldStep v step => exact stays_onRun hs rfl (fun _ ↦ rfl) fun _ k hk ↦ .inr (h.2 k hk)
  | takeHeldStep => exact stays_onRun hs rfl (fun _ ↦ rfl) fun _ _ hk ↦ nomatch hk
  | launchStep | setSelectedCase => exact stays_onStep hs rfl fun _ ↦ ⟨rfl, rfl, rfl, rfl, rfl⟩
  | decrementRetry => exact stays_onStep hs rfl fun x ↦ (sameStep_withRetryUsed x).1
  | applyStepResult v update =>
    cases hbeyond : s.tables.isBeyondCount v update with
    | true =>
      exact stays_of_tables (congrArg Prod.snd (Store.Tables.answer_of_isBeyondCount hbeyond)) hs
        (fun q hq ↦ ⟨q, hq, rfl⟩) fun x hx ↦ ⟨x, hx, rfl, rfl, rfl, rfl, rfl⟩
    | false =>
      exact stays_onStep hs (congrArg Prod.snd (Store.Tables.answer_applyStepResult hbeyond))
        (sameStep_withResult update)
  | updateStepStatus | setStepStartTime | setStepEndTime | listTopLevelRuns | deleteRuns =>
    exact h.elim

/-- **A proper call leaves sound records, and takes nothing back.** -/
theorem Proper.after {c : Call} (h : Proper setup o s₀ log s c) (hs : Grounded s) (a : c.Answer) :
    Grounded (s.after c a) ∧ Grows s (s.after c a) := by
  have hsame : ∀ {t : Scene}, t.tables = s.tables → t.issued = s.issued → s.made ⊆ t.made →
      Grounded t ∧ Grows s t := by
    intro t htables hissued hmade
    refine ⟨?_, .of_tables htables (hissued ▸ List.Subset.refl _) hmade⟩
    rw [Grounded, htables, hissued]
    exact hs
  cases hdue : due log with
  | some n =>
    rw [proper_of_due hdue] at h
    subst h
    exact hsame rfl rfl (List.Subset.refl _)
  | none =>
    rw [proper_of_none hdue] at h
    cases c with
    | store c => exact MayAsk.stays h hs
    | publish channel payload =>
      show Grounded (s.publish channel payload _) ∧ Grows s (s.publish channel payload _)
      unfold Scene.publish
      split
      · exact hsame rfl rfl (List.Subset.refl _)
      · exact hsame rfl rfl (List.Subset.refl _)
    | newUid => exact ⟨hs.issue_more (List.subset_append_left _ _),
        .of_tables rfl (List.subset_append_left _ _) (List.Subset.refl _)⟩
    | getFunction | deployFunction | getWorkflow | getStepList | now | spawn | post =>
      exact hsame rfl rfl (List.Subset.refl _)

theorem Conducted.grounded (h : Conducted setup o s₀ log s) (hs : Grounded s₀) : Grounded s := by
  induction h with
  | begin => exact hs
  | call c a _ _ proper ih => exact (proper.after ih a).1

theorem Conducted.grows (h : Conducted setup o s₀ log s) (hs : Grounded s₀) : Grows s₀ s := by
  induction h with
  | begin => exact .refl _
  | call c a before _ proper ih => exact ih.trans (proper.after (before.grounded hs) a).2

/-! ## Runs that have begun -/

/-- A call of the store that is proper may be made: it is not an announcement. -/
theorem Proper.mayAsk {c : Store.Call} (h : Proper setup o s₀ log s (.store c)) :
    MayAsk o s₀ log s c := by
  cases hdue : due log with
  | some n => cases (proper_of_due hdue).1 h
  | none => exact (proper_of_none hdue).1 h

/-- Whoever has given a step a status has launched it, or has found it running. -/
private theorem begun_of_written (hk : s.tables.Keyed) {c : Call} {a : c.Answer}
    (ha : s.Admits c a) (hproper : Proper setup o s₀ log s c) {x : StepInstance}
    (hx : s.tables.step? x.uid = some x) {status : RunStatus}
    (hannounced : Moment.announces? ⟨s, c, a⟩ = some (stepNotification x status)) :
    Cleared o s₀ log s x.workflowInstanceUid ∨ x.runStatus = .running := by
  have hasks := asksStatus_of_announces hannounced
  cases c with
  | store c =>
    have hmay := hproper.mayAsk
    cases c with
    | launchStep v input time =>
      obtain rfl : v = x.uid := hasks
      obtain ⟨run, -, ⟨y, hy, hu, rfl⟩, hclear⟩ := hmay
      obtain rfl := hk.eq_of_step hy (Store.Tables.mem_of_step? hx).1 hu
      exact .inl hclear
    | applyStepResult v update =>
      obtain rfl : v = x.uid := hasks
      have hok : a = .ok true := by
        rcases a with e | _ | _
        · cases hannounced
        · cases hannounced
        · rfl
      obtain ⟨y, hy, hrunning, -⟩ := Store.Tables.answer_accepted ((Eq.symm ha).trans hok)
      obtain rfl := Option.some.inj (hx.symm.trans hy)
      exact .inr hrunning
    | updateStepStatus => exact hmay.elim
    | _ => exact hasks.elim
  | _ => exact hasks.elim

/-- **Where anything has happened, it was clear to go.** -/
theorem Conducted.cleared (h : Conducted setup o s₀ log s) (hs : Grounded s₀)
    (hu : RunBegun s.tables u) : Cleared o s₀ log s u := by
  induction h with
  | begin => exact .begun hu
  | @call log s c a before admitted proper ih =>
    have hground := before.grounded hs
    have hgrows := (proper.after hground a).2
    have hlift : ∀ {v}, Cleared o s₀ log s v → Cleared o s₀ (log ++ [⟨s, c, a⟩]) (s.after c a) v :=
      fun h ↦ hgrows.cleared h _
    rcases hu with ⟨p, hp, rfl, hstatus⟩ | ⟨y, hy, rfl, hstatus⟩
    · cases run_after hground.keyed admitted hp with
      | kept q hq hsame hkept =>
        exact hlift (ih (.inl ⟨q, hq, hsame.uid.symm, hkept ▸ hstatus⟩))
      | written q status expected hq hsame hcall _ hexpected hgot =>
        obtain rfl : c = _ := hcall
        obtain ⟨hqm, hqu⟩ := Store.Tables.mem_of_run? hq
        have hturn := (proper.mayAsk : Owns o s₀ s p.uid ∧ _).2
        have hbefore : ∀ e, expected = some e → e = .running ∨ e = .paused →
            Cleared o s₀ log s p.uid :=
          fun e he hrun ↦ ih (.inl ⟨q, hqm, hqu, (hexpected e he) ▸ hrun⟩)
        rw [hgot] at hstatus
        rcases hstatus with hrunning | hpaused
        · rcases hturn.running hrunning with hclear | hexp
          · exact hlift hclear
          · exact hlift (hbefore _ hexp (.inr rfl))
        · exact hlift (hbefore _ (hturn.paused hpaused) (.inl rfl))
      | made steps hcall =>
        obtain rfl : c = _ := hcall
        have hnew := (proper.mayAsk : Founds o s₀ s p steps).status
        rw [hnew] at hstatus
        rcases hstatus with h | h <;> cases h
    · cases step_after hground.keyed admitted hy with
      | kept x hx hsame hkept =>
        exact hlift (ih (.inr ⟨x, hx, hsame.run.symm, hkept ▸ hstatus⟩))
      | written x hx hsame hannounced =>
        obtain ⟨hxm, hxu⟩ := Store.Tables.mem_of_step? hx
        rcases begun_of_written hground.keyed admitted proper (hxu ▸ hx) hannounced
          with h | hrunning
        · exact hsame.run ▸ hlift h
        · refine hlift (ih (.inr ⟨x, hxm, hsame.run.symm, ?_⟩))
          rw [hrunning]
          decide
      | made new steps hcall hmem =>
        obtain rfl : c = _ := hcall
        exact absurd ((proper.mayAsk : Founds o s₀ s new steps).stepStatus y hmem) hstatus

end Engine

end Orchestration
