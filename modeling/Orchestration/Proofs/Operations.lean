import Orchestration.Engine.Operator
import Orchestration.Engine.Retention
import Orchestration.Proofs.Advancing

/-!
# Operations

Every operation of the engine keeps the invariant, whatever the queue, the catalogs and the
functions answer: starting a run, handling a result or the outcome of a wait, stopping, pausing and
resuming, a phase of a watch, and removing old runs. Results may be anything, of any attempt, as
often as they like.

A scene is reachable if a series of operations leads to it, each carried out to its end, successful
or not (`Reachable`). What every operation keeps holds of every reachable scene
(`standing_of_reachable`).
-/

namespace Orchestration

namespace Engine

open Chain

variable {R : Rule} {setup : Setup} {G : Uid → Prop} {s s' : Scene}

/-! ## Results -/

theorem runs_hold {run step : Uid} {r : Except EngineError Unit} (hs : Standing setup G s)
    (hrun : ∀ q, s.tables.run? run = some q → q.runStatus = .paused)
    (hown : ∃ x ∈ s.tables.steps, x.uid = step ∧ x.workflowInstanceUid = run)
    (hopen : G run → Open (s.tables.chainOf run) step)
    (h : Runs R (Setup.hold run step) s r s') : Standing setup G s' := by
  obtain ⟨-, -, rfl⟩ := runs_store.1 h
  refine hs.onRun (fun q ↦ ((), { q with heldStepInstanceUid := some step })) rfl
    (fun _ ↦ rfl) (fun q u _ hu ↦ .inr ?_) fun q hq hG hst ↦ ?_
  · obtain rfl := Option.some.inj hu
    exact hown
  · exact hst.of_open (hrun q hq) rfl (hopen hG)

/-- A run that is neither at its end nor paused, and has begun, is under way. -/
private theorem underway_of {x : StepInstance} {q : WorkflowInstance} (ht : s.tables.Keyed)
    (hq : s.tables.run? x.workflowInstanceUid = some q) (hbegun : q.runStatus ≠ .new ∧
      q.runStatus ≠ .deployingFunctions) (hp : q.runStatus ≠ .paused) :
    ∀ r ∈ s.tables.runs, r.uid = x.workflowInstanceUid →
      r.runStatus ≠ .new ∧ r.runStatus ≠ .deployingFunctions ∧ r.runStatus ≠ .paused := by
  intro r hr hu
  obtain ⟨hqm, hqu⟩ := Store.Tables.mem_of_run? hq
  obtain rfl := ht.eq_of_run hr hqm (hu.trans hqu.symm)
  exact ⟨hbegun.1, hbegun.2, hp⟩

theorem runs_processRepeated (hR : Guiding R G) {x : StepInstance} {result : StepResult}
    {r : Except EngineError Unit} (hs : Standing setup G s) (hx : x ∈ s.tables.steps)
    (h : Runs R (setup.processRepeated x result) s r s') : Standing setup G s' := by
  unfold Setup.processRepeated at h
  split at h
  · next hrepeats =>
    rcases runs_bind.1 h with ⟨e, h₁, -⟩ | ⟨q, s₁, h₁, hrest⟩
    · rw [still_readRun _ h₁]
      exact hs
    rw [still_readRun _ h₁] at hrest
    have hq := runs_readRun h₁
    obtain ⟨hqm, hqu⟩ := Store.Tables.mem_of_run? hq
    dsimp only at hrest
    split at hrest
    · next hrunning =>
      rcases runs_bind.1 hrest with ⟨e, h₂, -⟩ | ⟨awaits, s₂, h₂, hrest⟩
      · rw [(reads_awaitsFollowUp x).still h₂]
        exact hs
      obtain ⟨hfinds, hs₂⟩ := (reads_awaitsFollowUp x).of_runs h₂
      rw [hs₂] at hrest
      obtain ⟨ds, hst, hds⟩ := hs
      cases awaits with
      | false =>
        rw [(runs_pure.1 hrest).2]
        exact ⟨ds, hst, hds⟩
      | true =>
        refine runs_advance hR ⟨ds, hst, hds⟩
          ⟨hx, fun hG ↦ hst.open_of_unfollowed hx hG (finds_awaitsFollowUp.1 hfinds),
            fun _ ↦ ?_⟩ hrest
        exact underway_of hst.keyed hq ⟨by simp [hrunning], by simp [hrunning]⟩ (by simp [hrunning])
    · next hpaused =>
      rcases runs_bind.1 hrest with ⟨e, h₂, -⟩ | ⟨awaits, s₂, h₂, hrest⟩
      · rw [(reads_awaitsFollowUp x).still h₂]
        exact hs
      obtain ⟨hfinds, hs₂⟩ := (reads_awaitsFollowUp x).of_runs h₂
      rw [hs₂] at hrest
      obtain ⟨ds, hst, hds⟩ := hs
      cases awaits with
      | false =>
        rw [(runs_pure.1 hrest).2]
        exact ⟨ds, hst, hds⟩
      | true =>
        rw [if_pos rfl, hqu] at hrest
        refine runs_hold ⟨ds, hst, hds⟩ (fun p hp ↦ ?_) ⟨x, hx, rfl, rfl⟩
          (fun hG ↦ hst.open_of_unfollowed hx hG (finds_awaitsFollowUp.1 hfinds)) hrest
        obtain rfl := Option.some.inj (hq.symm.trans hp)
        exact hpaused
    · rw [(runs_pure.1 hrest).2]
      exact hs
    · exact Keeps.ite (keeps_reportToParent _ _ _ _) (Still.pure _).keeps hs hrest
  · rw [(runs_pure.1 h).2]
    exact hs

/-- **Handling a result keeps the invariant**, whatever the result says and however often it
comes. -/
theorem keeps_processResult (hR : Guiding R G) (result : StepResult) :
    Keeps R (Standing setup G) (setup.processResult result) := by
  intro s r s' hs h
  rcases runs_bind.1 h with ⟨e, h₁, -⟩ | ⟨x, s₁, h₁, hrest⟩
  · rw [still_readStep _ h₁]
    exact hs
  rw [still_readStep _ h₁] at hrest
  have hx := (Store.Tables.mem_of_step? (runs_readStep h₁)).1
  rcases runs_bind.1 hrest with ⟨e, h₂, -⟩ | ⟨applied, s₂, h₂, hrest⟩
  · exact (hs.applyResult h₂).1
  obtain ⟨hs₂, hnone, hsome⟩ := hs.applyResult h₂
  cases applied with
  | none => exact runs_processRepeated hR hs₂ ((hnone rfl).symm ▸ hx) hrest
  | some y =>
    have hy := hsome y rfl
    rcases runs_bind.1 hrest with ⟨e, h₃, -⟩ | ⟨q, s₃, h₃, hrest⟩
    · rw [still_readRun _ h₃]
      exact hs₂
    rw [still_readRun _ h₃] at hrest
    have hq := runs_readRun h₃
    obtain ⟨hqm, hqu⟩ := Store.Tables.mem_of_run? hq
    split at hrest
    · rw [(runs_pure.1 hrest).2]
      exact hs₂
    · split at hrest
      · next hpaused =>
        rw [hqu] at hrest
        refine runs_hold hs₂ (fun p hp ↦ ?_) ⟨y, hy.mem, rfl, rfl⟩ (fun hG ↦ .inl (hy.standing hG))
          hrest
        obtain rfl := Option.some.inj (hq.symm.trans hp)
        exact hpaused
      · next hpaused =>
        obtain ⟨ds, hst, hds⟩ := hs₂
        refine runs_advance hR ⟨ds, hst, hds⟩ ⟨hy.mem, fun hG ↦ .inl (hy.standing hG), fun hG ↦ ?_⟩
          hrest
        exact underway_of hst.keyed hq (hy.begun hG q hqm hqu) hpaused

/-! ## Outcomes of a wait -/

theorem keeps_processOutcome (hR : Guiding R G) (outcome : DeploymentOutcome) :
    Keeps R (Standing setup G) (setup.processOutcome outcome) := by
  intro s r s' hs h
  unfold Setup.processOutcome at h
  split at h
  · rcases runs_bind.1 h with ⟨e, h₁, -⟩ | ⟨moved, s₁, h₁, hrest⟩
    · exact keeps_beginning hs h₁
    have hs₁ : Standing setup G s₁ := keeps_beginning hs h₁
    obtain ⟨hs₁eq, hans⟩ := runs_writeRunStatus h₁
    rcases runs_bind.1 hrest with ⟨e, h₂, -⟩ | ⟨x, s₂, h₂, hrest⟩
    · rw [still_firstStep _ h₂]
      exact hs₁
    rw [still_firstStep _ h₂] at hrest
    obtain ⟨hx, hl⟩ := runs_firstStep h₂
    have hchain : s₁.tables.chainOf outcome.workflowInstanceId =
        s.tables.chainOf outcome.workflowInstanceId := by
      rw [hs₁eq]
      exact congrArg (List.filter _) (Store.Tables.steps_onRun _ _)
    cases moved with
    | true =>
      -- The run has just begun.
      obtain ⟨q, hq, -, hexp, -⟩ := Store.Tables.answer_moved hans.symm
      obtain ⟨ds, hst, hds⟩ := hs
      have hwaits : ∀ p ∈ s.tables.runs, p.uid = outcome.workflowInstanceId →
          (p.runStatus = .new ∨ p.runStatus = .deployingFunctions) ∧
            ∀ e ∈ some RunStatus.deployingFunctions, p.runStatus = e := by
        intro p hp hpu
        obtain ⟨hqm, hqu⟩ := Store.Tables.mem_of_run? hq
        obtain rfl := hst.keyed.eq_of_run hp hqm (hpu.trans hqu.symm)
        exact ⟨.inr (hexp _ rfl), hexp⟩
      obtain ⟨-, hlaunch⟩ := Standing.begin ⟨ds, hst, hds⟩ _ hwaits (hchain ▸ hx) hl
      exact runs_launchStep hR hs₁ (hs₁eq ▸ hlaunch) hrest
    | false =>
      rcases runs_bind.1 hrest with ⟨e, h₃, -⟩ | ⟨q, s₃, h₃, hrest⟩
      · rw [still_readRun _ h₃]
        exact hs₁
      rw [still_readRun _ h₃] at hrest
      split at hrest
      · -- The run has begun, but its first step has not been launched.
        next hyes =>
        obtain ⟨hqm, hqu⟩ := Store.Tables.mem_of_run? (runs_readRun h₃)
        obtain ⟨ds, hst, hds⟩ := hs₁
        refine runs_launchStep hR ⟨ds, hst, hds⟩
          (hst.launchable_first hx hl (fun _ ↦ hyes.2) fun p hp hpu ↦ ?_) hrest
        obtain rfl := hst.keyed.eq_of_run hp hqm (hpu.trans hqu.symm)
        exact ⟨by simp [hyes.1], by simp [hyes.1], by simp [hyes.1]⟩
      · rw [(runs_pure.1 hrest).2]
        exact hs₁
  · exact Keeps.bind (still_readRun _).keeps
      (fun _ ↦ .ite (keeps_fail rfl _ _) (Still.pure _).keeps) hs h

/-! ## Operators -/

theorem keeps_stop (run : Uid) : Keeps R (Standing setup G) (stop run) := by
  refine .bind (keeps_writeRunStatus_terminal rfl none) fun applied ↦ .ite ?_ ?_
  · exact .bind keeps_setRunEndTime fun _ ↦ (still_state run).keeps
  · exact .bind (still_readRun run).keeps fun _ ↦
      .bind (Still.throw _).keeps fun _ ↦ .bind keeps_setRunEndTime fun _ ↦ (still_state run).keeps

/-- A run has moved if the store says so, and else the operator is told. -/
theorem runs_requireMove {run : Uid} {source target : RunStatus} {r : Except EngineError Unit}
    (h : Runs R (requireMove run source target) s r s') :
    s' = s.afterStore (.updateRunStatus run target (some source)) ∧
      (r = .ok () ↔
        (s.tables.answer (.updateRunStatus run target (some source))).1 = .ok true) := by
  rcases runs_bind.1 h with ⟨e, h₁, rfl⟩ | ⟨moved, s₁, h₁, hrest⟩
  · obtain ⟨rfl, hans⟩ := runs_writeRunStatus h₁
    exact ⟨rfl, by simp [← hans]⟩
  obtain ⟨rfl, hans⟩ := runs_writeRunStatus h₁
  cases moved with
  | true =>
    obtain ⟨rfl, rfl⟩ := runs_pure.1 hrest
    exact ⟨rfl, by simp [← hans]⟩
  | false =>
    rcases runs_bind.1 hrest with ⟨e, h₂, rfl⟩ | ⟨q, s₂, h₂, hrest⟩
    · exact ⟨still_readRun _ h₂, by simp [← hans]⟩
    · obtain ⟨rfl, rfl⟩ := runs_throw.1 hrest
      exact ⟨still_readRun _ h₂, by simp [← hans]⟩

theorem keeps_pause (run : Uid) : Keeps R (Standing setup G) (pause run) := by
  refine .bind (.bind keeps_pausing fun moved ↦ .ite (Still.pure _).keeps ?_) fun _ ↦
    (still_state run).keeps
  exact .bind (still_readRun run).keeps fun _ ↦ (Still.throw _).keeps

variable {t : Store.Tables} {issued : List Uid} {ds : List Dispatch}

/-- A paused run that runs again holds nothing any more, and may go on from what it held. -/
theorem Stands.resumed (h : Stands G t issued ds) {r : WorkflowInstance} (hr : r ∈ t.runs)
    (hp : r.runStatus = .paused) {resumed : WorkflowInstance}
    (hres : resumed = { r with runStatus := .running, heldStepInstanceUid := none }) :
    Stands G (t.putRun resumed) issued ds ∧
      ∀ u, r.heldStepInstanceUid = some u → ∀ x, t.step? u = some x →
        Leavable G (t.putRun resumed) x := by
  subst hres
  refine ⟨h.putRun hr rfl (fun u hu ↦ nomatch hu) fun _ hst ↦ hst.of_unheld rfl (.inl rfl),
    fun u hu x hx ↦ ?_⟩
  obtain ⟨hxm, rfl⟩ := Store.Tables.mem_of_step? hx
  obtain ⟨y, hy, hyu, hyw⟩ := h.holds r hr _ hu
  obtain rfl := h.keyed.eq_of_step hy hxm hyu
  refine ⟨hy, fun hG ↦ ?_, fun _ q hq hqu ↦ ?_⟩
  · rw [Store.Tables.chainOf_putRun, hyw]
    exact (h.run r hr (hyw ▸ hG)).held hp _ hu
  · rcases Store.mem_overwrite hq with rfl | ⟨-, hne⟩
    · exact ⟨by simp, by simp, by simp⟩
    · exact absurd (hqu.trans hyw) hne

/-- The records after a run has been moved and what it held has been taken away. -/
theorem tables_moved_taken {run : Uid} {r : WorkflowInstance} (hr : t.run? run = some r)
    {moved : Store.Tables} (ht : t.Keyed)
    (hmoved : moved = t.putRun { r with runStatus := .running }) :
    moved.answer (.takeHeldStep run) = (.ok r.heldStepInstanceUid,
      t.putRun { r with runStatus := .running, heldStepInstanceUid := none }) := by
  obtain ⟨hmem, rfl⟩ := Store.Tables.mem_of_run? hr
  subst hmoved
  have hr' : (t.putRun { r with runStatus := .running }).run? r.uid =
      some { r with runStatus := .running } :=
    (ht.putRun _).run?_iff.2 ⟨Store.mem_overwrite_self hmem rfl, rfl⟩
  show (t.putRun { r with runStatus := .running }).onRun r.uid _ = _
  rw [Store.Tables.onRun_of_some hr']
  exact congrArg (Prod.mk (Except.ok r.heldStepInstanceUid)) (Store.Tables.putRun_putRun rfl)

theorem keeps_resume (hR : Guiding R G) (run : Uid) :
    Keeps R (Standing setup G) (setup.resume run) := by
  intro s r s' hs h
  obtain ⟨ds, hst, hds⟩ := hs
  rcases runs_bind.1 h with ⟨e, h₁, -⟩ | ⟨_, s₁, h₁, hrest⟩
  · -- The run has not moved, so nothing has changed.
    obtain ⟨rfl, hmoved⟩ := runs_requireMove h₁
    refine ⟨ds, ?_, hds⟩
    show Stands G (s.tables.answer (.updateRunStatus run .running (some .paused))).2 s.issued ds
    rw [hst.keyed.answer_unmoved fun hyes ↦ nomatch hmoved.2 hyes]
    exact hst
  obtain ⟨rfl, hmoved⟩ := runs_requireMove h₁
  obtain ⟨q, hq, -, hexp, htables⟩ := Store.Tables.answer_moved (hmoved.1 rfl)
  obtain ⟨hst₂, hleavable⟩ := hst.resumed (Store.Tables.mem_of_run? hq).1 (hexp _ rfl) rfl
  have htaken := tables_moved_taken hq hst.keyed htables
  set moved := s.afterStore (.updateRunStatus run .running (some .paused))
  have hs₂ : Standing setup G (moved.afterStore (.takeHeldStep run)) := by
    refine ⟨ds, ?_, hds⟩
    show Stands G (moved.tables.answer (.takeHeldStep run)).2 s.issued ds
    rw [show moved.tables.answer (.takeHeldStep run) = _ from htaken]
    exact hst₂
  rcases runs_bind.1 hrest with ⟨e, h₂, -⟩ | ⟨held, s₂, h₂, hrest⟩
  · obtain ⟨-, -, rfl⟩ := runs_store.1 h₂
    exact hs₂
  obtain ⟨hheld, -, rfl⟩ := runs_store.1 h₂
  have hheld : q.heldStepInstanceUid = held := by
    rw [show moved.tables.answer (.takeHeldStep run) = _ from htaken] at hheld
    exact (Except.ok.inj hheld).symm
  cases held with
  | none => exact (still_state run).keeps hs₂ hrest
  | some u =>
    rcases runs_bind.1 hrest with ⟨e, h₃, -⟩ | ⟨x, s₃, h₃, hrest⟩
    · rw [still_readStep _ h₃]
      exact hs₂
    rw [still_readStep _ h₃] at hrest
    have hx := runs_readStep h₃
    have htables₂ : (moved.afterStore (.takeHeldStep run)).tables =
        s.tables.putRun { q with runStatus := .running, heldStepInstanceUid := none } :=
      congrArg Prod.snd htaken
    rw [htables₂] at hx
    have hleave : Leavable G (moved.afterStore (.takeHeldStep run)).tables x := by
      rw [htables₂]
      exact hleavable u hheld x hx
    rcases runs_bind.1 hrest with ⟨e, h₄, -⟩ | ⟨_, s₄, h₄, hrest⟩
    · exact runs_advance hR hs₂ hleave h₄
    · exact (still_state run).keeps (runs_advance hR hs₂ hleave h₄) hrest

/-! ## Watches and retention -/

theorem keeps_deliver (outcome : DeploymentOutcome) :
    Keeps R (Standing setup G) (deliver outcome) := by
  refine .bind (.attempt (keeps_publish (by decide) _)) fun sent ↦ ?_
  split
  · exact (Still.pure _).keeps
  · refine .bind (Still.attempt (still_readRun _)).keeps fun found ↦ ?_
    split
    · exact (Still.pure _).keeps
    · exact (Still.pure _).keeps

theorem keeps_failRun (outcome : DeploymentOutcome) :
    Keeps R (Standing setup G) (failRun outcome) :=
  .bind (keeps_writeRunStatus_terminal rfl _) fun _ ↦
    .ite (.bind (still_readRun _).keeps fun _ ↦ .bind keeps_setRunEndTime fun _ ↦
      keeps_recordRunError _ _) (Still.pure _).keeps

theorem keeps_reportOutcome (outcome : DeploymentOutcome) (time attempt pause : Nat) :
    Keeps R (Standing setup G) (reportOutcome outcome time attempt pause) := by
  refine .bind (keeps_deliver outcome) fun delivered ↦ .ite (Still.pure _).keeps ?_
  exact .ite (Still.pure _).keeps
    (.bind (.attempt (keeps_failRun outcome)) fun _ ↦ (Still.pure _).keeps)

theorem keeps_lookUntil (run : Uid) (functions : List Uid) (time deadline : Nat) :
    Keeps R (Standing setup G) (setup.lookUntil run functions time deadline) := by
  refine .bind (Still.attempt (still_look run functions)).keeps fun found ↦ ?_
  unfold Setup.conclude
  split
  · exact keeps_reportOutcome _ _ _ _
  · exact (Still.pure _).keeps
  · exact .ite (keeps_reportOutcome _ _ _ _) (Still.pure _).keeps
  · exact keeps_reportOutcome _ _ _ _

theorem keeps_watch (run : Uid) (time : Nat) (phase : Phase) :
    Keeps R (Standing setup G) (setup.watch run time phase) := by
  cases phase with
  | begin functions => exact keeps_lookUntil _ _ _ _
  | wait functions nextLook deadline =>
    exact .ite (keeps_lookUntil _ _ _ _) (keeps_reportOutcome _ _ _ _)
  | report outcome attempt pause => exact keeps_reportOutcome _ _ _ _

theorem keeps_deleteOldRuns (keepDays : Int) (maxCount : Nat) :
    Keeps R (Standing setup G) (deleteOldRuns keepDays maxCount) := by
  refine .bind (Still.store (fun _ ↦ rfl) rfl).keeps fun runs ↦
    .bind Still.now.keeps fun time ↦ .ite (Still.pure _).keeps ?_
  refine .store fun s hs _ ↦ ?_
  obtain ⟨ds, hst, hds⟩ := hs
  exact ⟨ds, hst.remove _, hds⟩

/-! ## Reachable scenes -/

/-- An operation of the engine. -/
inductive Operation where
  | start (workflow : Uid) (input : Json.Object) (parent parentStep : Option Uid)
  | result (message : StepResult)
  | outcome (message : DeploymentOutcome)
  | stop (run : Uid)
  | pause (run : Uid)
  | resume (run : Uid)
  | watch (run : Uid) (time : Nat) (phase : Phase)
  /-- A watch that cannot report its outcome ends the run. -/
  | failRun (message : DeploymentOutcome)
  | sweep (keepDays : Int) (maxCount : Nat)
deriving Repr, Inhabited

/-- What an operation does; its answer is of no account here. -/
def Operation.action (setup : Setup) : Operation → Action Unit
  | .start workflow input parent parentStep => do
    let _ ← setup.startWorkflow workflow input parent parentStep
  | .result message => setup.processResult message
  | .outcome message => setup.processOutcome message
  | .stop run => do let _ ← Engine.stop run
  | .pause run => do let _ ← Engine.pause run
  | .resume run => do let _ ← setup.resume run
  | .watch run time phase => do let _ ← setup.watch run time phase
  | .failRun message => Engine.failRun message
  | .sweep keepDays maxCount => do let _ ← deleteOldRuns keepDays maxCount

/-- **Every operation keeps the invariant.** -/
theorem keeps_operation (hR : Guiding R G) (o : Operation) :
    Keeps R (Standing setup G) (o.action setup) := by
  have hdone : Keeps R (Standing setup G) (pure () : Action Unit) := (Still.pure _).keeps
  cases o with
  | start workflow input parent parentStep =>
    exact .bind (keeps_startWorkflow hR workflow input parent parentStep) fun _ ↦ hdone
  | result message => exact keeps_processResult hR message
  | outcome message => exact keeps_processOutcome hR message
  | stop run => exact .bind (keeps_stop run) fun _ ↦ hdone
  | pause run => exact .bind (keeps_pause run) fun _ ↦ hdone
  | resume run => exact .bind (keeps_resume hR run) fun _ ↦ hdone
  | watch run time phase => exact .bind (keeps_watch run time phase) fun _ ↦ hdone
  | failRun message => exact keeps_failRun message
  | sweep keepDays maxCount => exact .bind (keeps_deleteOldRuns keepDays maxCount) fun _ ↦ hdone

/-- Every step can count one more result and number the attempt after it. -/
def Scene.HasRoom (s : Scene) : Prop := ∀ x ∈ s.tables.steps, x.runCount + 1 < greatestInt

instance (s : Scene) : Decidable s.HasRoom :=
  inferInstanceAs (Decidable (∀ x ∈ s.tables.steps, x.runCount + 1 < greatestInt))

/-- A scene to which operations lead, one after the other, each carried out to its end, while there
is room for the results of every step: where a count would pass the greatest number that it can
hold, a build with checks breaks off and one without begins anew below zero. -/
inductive Reachable (setup : Setup) (R : Rule) : Scene → Prop where
  | empty : Reachable setup R {}
  | step {s s' : Scene} {r : Except EngineError Unit} (o : Operation)
      (before : Reachable setup R s) (run : Runs R (o.action setup) s r s') (room : s'.HasRoom) :
      Reachable setup R s'

theorem Reachable.hasRoom (h : Reachable setup R s) : s.HasRoom := by
  cases h with
  | empty => exact fun _ hx ↦ nomatch hx
  | step _ _ _ room => exact room

theorem standing_of_reachable (hR : Guiding R G) (h : Reachable setup R s) :
    Standing setup G s := by
  induction h with
  | empty => exact standing_empty setup G
  | step o _ hrun _ ih => exact keeps_operation hR o ih hrun

/-- Where all runs that were made have a property in the end, each had it when it was made. -/
theorem Reachable.making_of_made {P : WorkflowInstance × List StepInstance → Prop}
    (h : Reachable setup R s) (hP : ∀ m ∈ s.made, P m) : Reachable setup (making P) s := by
  induction h with
  | empty => exact .empty
  | step o _ hrun room ih =>
    exact .step o (ih fun m hm ↦ hP m (hrun.made_subset hm)) (hrun.making_of_made hP) room

end Engine

end Orchestration
