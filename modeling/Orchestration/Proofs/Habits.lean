import Orchestration.Proofs.Footprint
import Orchestration.Proofs.Operations

/-!
# The habits of operations

A habit of whoever leaves a step is one of every operation, as soon as it is kept where operations
do something else: where a step is noted for a paused run or such a note is taken back, where a
result is written, and where old runs are removed. Neither of the last two is asked of an operation
that does not do it.

What is done about a result falls into three parts: its step is read, it is offered to the store,
and its follow-up is seen to (`processResult_eq`).
-/

namespace Orchestration

namespace Engine

variable {α : Type}

/-- What is done about a result once the store has taken it, or refused it. -/
def Setup.seeTo (setup : Setup) (x : StepInstance) (m : StepResult) :
    Option StepInstance → Action Unit
  | none => setup.processRepeated x m
  | some y => readRun y.workflowInstanceUid >>= fun run ↦
      if run.runStatus.isTerminal then pure ()
      else if run.runStatus = .paused then Setup.hold run.uid y.uid
      else setup.advance y

theorem processResult_eq (setup : Setup) (m : StepResult) :
    setup.processResult m =
      readStep m.stepInstanceId >>= fun x ↦ applyResult x m >>= setup.seeTo x m := by
  refine congrArg (bind _) (funext fun x ↦ congrArg (bind _) (funext fun applied ↦ ?_))
  cases applied with
  | none => rfl
  | some y => rfl

/-- A practice that is kept where a step is noted for a paused run, and where such a note is taken
back. -/
structure Practice.Steady (N : Uid → Prop) (P : ∀ ⦃α : Type⦄, Action α → Prop) : Prop
    extends Practice N P where
  setHeldStep : ∀ run step, P (Action.store (.setHeldStep run step))
  takeHeldStep : ∀ run, P (Action.store (.takeHeldStep run))

/-- A habit that is kept where a step is noted for a paused run, and where such a note is taken
back. -/
structure Habit.Steady (P : ∀ ⦃α : Type⦄, Action α → Prop) : Prop
    extends Habit P, Practice.Steady (fun _ ↦ True) P

namespace Practice.Steady

variable {N : Uid → Prop} {P : ∀ ⦃α : Type⦄, Action α → Prop}
    (h : Practice.Steady N P) (setup : Setup)

include h

/-! ## Results -/

theorem processRepeated (x : StepInstance) (m : StepResult) : P (setup.processRepeated x m) := by
  have hawaits : P (awaitsFollowUp x) := h.harmless (readsSteps_awaitsFollowUp x).harmless
  refine h.ite (h.bind (h.harmless (harmless_readRun _)) fun q ↦ ?_) (h.pure _)
  split
  · exact h.bind hawaits fun _ ↦ h.ite (h.advance setup x) (h.pure _)
  · exact h.bind hawaits fun _ ↦ h.ite (h.setHeldStep _ _) (h.pure _)
  · exact h.pure _
  · exact h.ite (h.harmless (harmless_reportToParent _ _ _ _)) (h.pure _)

theorem seeTo (x : StepInstance) (m : StepResult) (applied : Option StepInstance) :
    P (setup.seeTo x m applied) := by
  cases applied with
  | none => exact h.processRepeated setup x m
  | some y =>
    exact h.bind (h.harmless (harmless_readRun _)) fun _ ↦
      h.ite (h.pure _) (h.ite (h.setHeldStep _ _) (h.advance setup y))

theorem processResult {m : StepResult} (happly : ∀ x, P (applyResult x m)) :
    P (setup.processResult m) := by
  rw [processResult_eq]
  exact h.bind (h.harmless (harmless_readStep _)) fun x ↦ h.bind (happly x) fun _ ↦
    h.seeTo setup x m _

/-! ## The outcomes of waits, and operators -/

theorem processOutcome (o : DeploymentOutcome) : P (setup.processOutcome o) :=
  h.ite
    (h.bind (h.modest (modest_writeRunStatus _ _ nofun)) fun _ ↦
      h.bind (h.harmless (harmless_firstStep _)) fun x ↦ h.ite (h.launchStep setup x)
        (h.bind (h.harmless (harmless_readRun _)) fun _ ↦ h.ite (h.launchStep setup x) (h.pure _)))
    (h.modest (.bind (harmless_readRun _).modest fun _ ↦
      .ite (modest_fail setup _ _ _ nofun) (.pure _)))

theorem requireMove (run : Uid) (source : RunStatus) {target : RunStatus}
    (htarget : target ≠ .deployingFunctions) : P (requireMove run source target) :=
  h.modest (.bind (modest_writeRunStatus _ _ htarget) fun _ ↦
    .ite (.pure _) (.bind (harmless_readRun _).modest fun _ ↦ .throw _))

theorem resume (run : Uid) : P (setup.resume run) := by
  refine h.bind (h.requireMove _ _ nofun) fun _ ↦ h.bind (h.takeHeldStep run) fun held ↦ ?_
  split
  · exact h.bind (h.harmless (harmless_readStep _)) fun _ ↦ h.bind (h.advance setup _) fun _ ↦
      h.harmless (harmless_state run)
  · exact h.harmless (harmless_state run)

theorem stop (run : Uid) : P (stop run) :=
  h.modest (.bind (modest_writeRunStatus _ _ nofun) fun _ ↦
    .ite (.bind (harmless_setRunEndTime _).modest fun _ ↦ (harmless_state run).modest)
      (.bind (harmless_readRun _).modest fun _ ↦ .throw _))

/-! ## Watches -/

theorem failRun (o : DeploymentOutcome) : P (failRun o) :=
  h.modest (.bind (modest_writeRunStatus _ _ nofun) fun _ ↦
    .ite (.bind (harmless_readRun _).modest fun _ ↦ .bind (harmless_setRunEndTime _).modest fun _ ↦
      .store ⟨trivial, id⟩) (.pure _))

theorem reportOutcome (o : DeploymentOutcome) (time attempt pause : Nat) :
    P (reportOutcome o time attempt pause) := by
  have hdeliver : Harmless (deliver o) := by
    refine .bind (.attempt ⟨nofun, fun _ ↦ trivial⟩) fun sent ↦ ?_
    split
    · exact .pure _
    · refine .bind (.attempt (harmless_readRun _)) fun read ↦ ?_
      split
      · exact .pure _
      · exact .pure _
  exact h.bind (h.harmless hdeliver) fun _ ↦ h.ite (h.pure _) <| h.ite (h.pure _) <|
    h.bind (h.attempt (h.failRun o)) fun _ ↦ h.pure _

theorem stillPending (functions : List Uid) : P (stillPending functions) := by
  induction functions with
  | nil => exact h.pure _
  | cons f rest ih =>
    refine h.bind (h.getFunction f) fun info ↦ ?_
    split
    · exact ih
    · exact h.throw _
    all_goals exact h.bind ih fun _ ↦ h.pure _

theorem lookUntil (run : Uid) (functions : List Uid) (time deadline : Nat) :
    P (setup.lookUntil run functions time deadline) := by
  refine h.bind (h.attempt (h.bind (h.harmless (harmless_readRun run)) fun q ↦
    h.ite (h.pure _) (h.bind (h.stillPending functions) fun _ ↦ h.pure _))) fun found ↦ ?_
  unfold Setup.conclude
  split
  · exact h.reportOutcome _ _ _ _
  · exact h.pure _
  · exact h.ite (h.reportOutcome _ _ _ _) (h.pure _)
  · exact h.reportOutcome _ _ _ _

theorem watch (run : Uid) (time : Nat) (phase : Phase) : P (setup.watch run time phase) := by
  cases phase with
  | begin functions => exact h.lookUntil setup _ _ _ _
  | wait functions nextLook deadline =>
    exact h.ite (h.lookUntil setup _ _ _ _) (h.reportOutcome _ _ _ _)
  | report o attempt pause => exact h.reportOutcome _ _ _ _

/-! ## Operations -/

/-- A habit of operations, given what is done with results and old runs. -/
theorem operation {o : Operation} (hresult : ∀ m, o = .result m → ∀ x, P (applyResult x m))
    (hsweep : ∀ keepDays maxCount, o = .sweep keepDays maxCount →
      P (deleteOldRuns keepDays maxCount)) : P (o.action setup) := by
  cases o with
  | start => exact h.bind (h.startNested setup _ _ _ _ _) fun _ ↦ h.pure _
  | result m => exact h.processResult setup (hresult m rfl)
  | outcome o => exact h.processOutcome setup o
  | stop run => exact h.bind (h.stop run) fun _ ↦ h.pure _
  | pause run =>
    exact h.bind (h.bind (h.requireMove _ _ nofun) fun _ ↦ h.harmless (harmless_state run)) fun _ ↦
      h.pure _
  | resume run => exact h.bind (h.resume setup run) fun _ ↦ h.pure _
  | watch run time phase => exact h.bind (h.watch setup run time phase) fun _ ↦ h.pure _
  | failRun o => exact h.failRun o
  | sweep keepDays maxCount => exact h.bind (hsweep keepDays maxCount rfl) fun _ ↦ h.pure _

end Practice.Steady

end Engine

end Orchestration
