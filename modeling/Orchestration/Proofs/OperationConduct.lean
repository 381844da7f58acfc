import Orchestration.Proofs.LaunchConduct
import Orchestration.Proofs.Habits

/-!
# The conduct of results, outcomes, operators and watches

A run is moved on from an own step. If anything has happened to the step, its run was clear to go,
so whatever is launched next may be launched. Hence all operations are well conducted, but for those
that remove old runs (`conducts_operation`).
-/

namespace Orchestration

namespace Engine

variable {setup : Setup} {o : Operation} {s₀ s s' : Scene} {log l : List Moment} {u : Uid}
variable {x : StepInstance}

/-! ## Leaving a step -/

/-- What follows a step is the step itself or the one that it names. -/
theorem runs_nextStep {R : Rule} {y : StepInstance} (h : Runs R (nextStep x) s (.ok (some y)) s') :
    y = x ∨ ∃ k, x.nextStepId = some k ∧ s.tables.step? k = some y := by
  have hlink : ∀ {s}, Runs R (followLink x) s (.ok (some y)) s' →
      ∃ k, x.nextStepId = some k ∧ s.tables.step? k = some y := by
    intro s h
    unfold followLink at h
    split at h
    · next k hk => exact ⟨k, hk, (Except.ok.inj (runs_store.1 h).1).symm⟩
    · cases (runs_pure.1 h).1
  by_cases hloop : ∃ f text, x.shape = .doWhile f text
  · obtain ⟨f, text, hshape⟩ := hloop
    rw [nextStep_of_loop hshape] at h
    rcases runs_bind.1 h with ⟨e, -, he⟩ | ⟨stops, s₁, h₁, h₂⟩
    · cases he
    rw [(reads_evaluateStop x text).still h₁] at h₂
    cases stops with
    | true => exact .inr (hlink h₂)
    | false => exact .inl (Option.some.inj (Except.ok.inj (runs_pure.1 h₂).1))
  · rw [nextStep_of_not_loop fun f text hs ↦ hloop ⟨f, text, hs⟩] at h
    exact .inr (hlink h)

theorem ClearToLaunch.of_next (h : ClearToLaunch o s₀ log s x) (hs : Grounded s) {y : StepInstance}
    {k : Uid} (hnext : x.nextStepId = some k) (hy : s.tables.step? k = some y) :
    ClearToLaunch o s₀ log s y := by
  obtain ⟨z, hz, hzk, hrun⟩ := h.ours.next hs hnext
  obtain ⟨hym, hyk⟩ := Store.Tables.mem_of_step? hy
  obtain rfl := hs.keyed.eq_of_step hz hym (hzk.trans hyk.symm)
  exact ⟨.of_mem (hrun ▸ h.ours.own) hym, hrun ▸ h.clear⟩

private theorem mayRead_next (hat : AtRest setup o s₀ log s) (h : Ours o s₀ s x) (k : Uid)
    (hk : x.nextStepId = some k) : MayRead o s₀ s k :=
  .own ⟨_, h.own, h.next hat.grounded hk⟩

theorem conducts_nextStep :
    Conducts setup o s₀ (fun log s ↦ ClearToLaunch o s₀ log s x) (nextStep x) fun found log s ↦
      ∀ y, found = some y → ClearToLaunch o s₀ log s y := by
  refine (Conducts.inquires (K := fun k ↦ x.nextStepId = some k)
    (asks_nextStep (fun _ ↦ rfl) fun _ hk ↦ hk) (Firm.clearToLaunch x).lasts
      (fun _ _ _ h ↦ h.ours.own)
    fun _ _ hat h ↦ mayRead_next hat h.ours).mono (fun _ _ _ h ↦ h) fun found log s hat h y hy ↦ ?_
  obtain ⟨hclear, R, hrun⟩ := h
  rcases runs_nextStep (hy ▸ hrun) with rfl | ⟨k, hnext, hk⟩
  · exact hclear
  · exact hclear.of_next hat.grounded hnext hk

theorem conducts_leave :
    Conducts setup o s₀ (fun log s ↦ ClearToLaunch o s₀ log s x) (setup.leave x) fun _ _ _ ↦
      True := by
  unfold Setup.leave
  refine .bind (conducts_nextStep.attempt.stays (.owns x.workflowInstanceUid)
    fun _ _ _ h ↦ h.ours.own) fun found ↦ ?_
  rcases found with e | _ | y
  · exact .ite (fun _ ↦ (conducts_fail (by decide) (by decide)).of fun _ _ _ h ↦ h.2) fun _ ↦
      .throw _
  · exact .ite (fun _ ↦ (conducts_terminate (by decide) (by decide)).of fun _ _ _ h ↦ h.2) fun _ ↦
      (conducts_fail (by decide) (by decide)).of fun _ _ _ h ↦ h.2
  · exact conducts_launchStep.of fun _ _ _ h ↦ h.1 _ rfl y rfl

theorem conducts_retry (hfailed : x.runStatus = .failed ∨ x.runStatus = .timedOut) :
    Conducts setup o s₀ (fun log s ↦ ClearToLaunch o s₀ log s x) (setup.retry x) fun _ _ _ ↦
      True := by
  have hfirm : Firm fun log s ↦ ClearToLaunch o s₀ log s x := .clearToLaunch x
  unfold Setup.retry
  refine .andThen (.store (fun _ _ ↦ rfl) fun _ _ _ h ↦ h.ours.ownsStep) hfirm fun granted ↦ ?_
  refine .ite (fun _ ↦ .bind (.readStep hfirm.lasts fun _ _ _ h ↦ .own h.ours.ownsStep) fun y ↦ ?_)
    fun _ ↦ ?_
  · refine conducts_launchStep.of fun log s hat h ↦ ?_
    have hsame := h.1.ours.same hat.grounded.keyed h.2
    exact ⟨.of_mem (hsame.run ▸ h.1.ours.own) (Store.Tables.mem_of_step? h.2).1,
      hsame.run ▸ h.1.clear⟩
  · refine (conducts_fail ?_ ?_).of fun _ _ _ h ↦ h.ours.own
    · rcases hfailed with h | h <;> rw [h] <;> decide
    · rcases hfailed with h | h <;> rw [h] <;> decide

/-- **A run is moved on from an own step.** -/
theorem conducts_advance :
    Conducts setup o s₀ (fun log s ↦ AtHand o s₀ log s x) (setup.advance x) fun _ _ _ ↦ True := by
  have hclear : x.runStatus ≠ .new → ∀ ⦃log s⦄, AtRest setup o s₀ log s → AtHand o s₀ log s x →
      ClearToLaunch o s₀ log s x := fun hne _ _ _ h ↦ ⟨h.ours, h.clear hne⟩
  unfold Setup.advance
  split
  · next h => exact conducts_leave.of (hclear (by rw [h]; decide))
  · next h => exact conducts_leave.of (hclear (by rw [h]; decide))
  · next h => exact (conducts_retry (.inl h)).of (hclear (by rw [h]; decide))
  · next h => exact (conducts_retry (.inr h)).of (hclear (by rw [h]; decide))
  · next h =>
    exact (conducts_fail (by rw [h]; decide) (by rw [h]; decide)).of fun _ _ _ h ↦ h.ours.own
  · next h =>
    exact (conducts_fail (by rw [h]; decide) (by rw [h]; decide)).of fun _ _ _ h ↦ h.ours.own
  all_goals exact .throw _

/-! ## Results -/

theorem conducts_hold {q : WorkflowInstance} :
    Conducts setup o s₀
      (fun log s ↦ AtHand o s₀ log s x ∧ s.tables.run? x.workflowInstanceUid = some q)
      (Setup.hold q.uid x.uid) fun _ _ _ ↦ True := by
  refine .store (fun _ _ ↦ rfl) fun log s _ h ↦ ?_
  rw [MayAsk, (Store.Tables.mem_of_run? h.2).2]
  exact ⟨h.1.ours.own, fun k hk ↦ Option.some.inj hk ▸ h.1.ours.hasStep⟩

theorem conducts_processRepeated {m : StepResult} :
    Conducts setup o s₀ (fun log s ↦ AtHand o s₀ log s x) (setup.processRepeated x m)
      fun _ _ _ ↦ True := by
  have hawaits : ∀ {P : List Moment → Scene → Prop}, Lasts P →
      (∀ ⦃log s⦄, AtRest setup o s₀ log s → P log s → AtHand o s₀ log s x) →
      Conducts setup o s₀ P (awaitsFollowUp x) fun _ log s ↦ P log s := fun hP hx ↦
    (Conducts.inquires (K := fun k ↦ x.nextStepId = some k)
      (asks_awaitsFollowUp (fun _ ↦ rfl) fun _ hk ↦ hk) hP (fun _ _ hat h ↦ (hx hat h).ours.own)
      fun _ _ hat h ↦ mayRead_next hat (hx hat h).ours).mono (fun _ _ _ h ↦ h) fun _ _ _ _ h ↦ h.1
  unfold Setup.processRepeated
  refine .ite (fun _ ↦ ?_) fun _ ↦ .pure _
  refine .bind (.readRun (Firm.atHand x).lasts fun _ _ _ h ↦ h.ours.own) fun q ↦ ?_
  have hboth : Lasts fun log s ↦ AtHand o s₀ log s x ∧
      s.tables.run? x.workflowInstanceUid = some q :=
    (Firm.atHand x).lasts.and (lasts_of_scene _)
  split
  · exact .bind (hawaits hboth fun _ _ _ h ↦ h.1) fun _ ↦
      .ite (fun _ ↦ conducts_advance.of fun _ _ _ h ↦ h.1) fun _ ↦ .pure _
  · exact .bind (hawaits hboth fun _ _ _ h ↦ h.1) fun _ ↦
      .ite (fun _ ↦ conducts_hold) fun _ ↦ .pure _
  · exact .pure _
  · refine .ite (fun _ ↦ conducts_reportToParent.of fun log s _ h ↦ ?_) fun _ ↦ .pure _
    obtain ⟨hq, hqu⟩ := Store.Tables.mem_of_run? h.2
    exact ⟨hq, hqu ▸ h.1.ours.own⟩

/-- **Handling a result is well conducted**, whatever the result says. -/
theorem conducts_processResult {m : StepResult} (ho : o = .result m) :
    Conducts setup o s₀ (fun _ s ↦ s = s₀) (setup.processResult m) fun _ _ _ ↦ True := by
  rw [processResult_eq]
  refine .bind (.readStep (lasts_of_scene _) fun _ _ _ _ ↦ .named m ho rfl) fun x ↦ ?_
  have hfound : ∀ ⦃log s⦄, AtRest setup o s₀ log s →
      s = s₀ ∧ s.tables.step? m.stepInstanceId = some x → AtHand o s₀ log s x := by
    intro log s hat ⟨hs, hx⟩
    obtain ⟨hxm, hxu⟩ := Store.Tables.mem_of_step? hx
    subst ho
    exact hat.atHand hxm (.inl ⟨x, hs ▸ hxm, hxu, rfl⟩)
  refine .bind ((conducts_applyResult.of fun _ _ hat h ↦ (hfound hat h).ours).stays
    (.atHand x) hfound) fun applied ↦ ?_
  cases applied with
  | none => exact conducts_processRepeated.of fun _ _ _ h ↦ h.2
  | some y =>
    refine Conducts.of (P := fun log s ↦ AtHand o s₀ log s y) ?_ fun _ _ _ h ↦ h.1 y rfl
    refine .bind (.readRun (Firm.atHand y).lasts fun _ _ _ h ↦ h.ours.own) fun q ↦ ?_
    exact .ite (fun _ ↦ .pure _) fun _ ↦ .ite (fun _ ↦ conducts_hold) fun _ ↦
      conducts_advance.of fun _ _ _ h ↦ h.1

/-! ## The outcomes of waits, and operators -/

/-- **Handling the outcome of a wait is well conducted.** -/
theorem conducts_processOutcome {m : DeploymentOutcome} (ho : o = .outcome m) :
    Conducts setup o s₀ (fun _ s ↦ Owns o s₀ s m.workflowInstanceId) (setup.processOutcome m)
      fun _ _ _ ↦ True := by
  have hfirm : Firm fun _ s ↦ Owns o s₀ s m.workflowInstanceId := .owns _
  refine .ite (fun hready ↦ ?_) fun _ ↦ ?_
  · have hclear : ∀ {log s}, Cleared o s₀ log s m.workflowInstanceId := .told m ho hready rfl
    refine .andThen ((conducts_writeRunStatus _ _ _).of fun _ _ _ h ↦
      ⟨h, fun _ ↦ .inl hclear, nofun⟩) hfirm fun moved ↦ ?_
    refine .bind (.firstStep hfirm.lasts fun _ _ _ h ↦ h) fun x ↦ ?_
    have hlaunch : ∀ ⦃log s⦄, AtRest setup o s₀ log s → Owns o s₀ s m.workflowInstanceId ∧
        x ∈ s.tables.chainOf m.workflowInstanceId ∧ x.runOrderLabel = .first →
        ClearToLaunch o s₀ log s x := by
      intro log s _ ⟨hown, hmem, _⟩
      obtain ⟨hx, hrun⟩ := Store.Tables.mem_chainOf.1 hmem
      exact ⟨.of_mem (hrun ▸ hown) hx, hrun ▸ hclear⟩
    refine .ite (fun _ ↦ conducts_launchStep.of hlaunch) fun _ ↦ ?_
    refine .bind (.readRun (lasts_of_scene _) fun _ _ _ h ↦ h.1) fun q ↦ ?_
    exact .ite (fun _ ↦ conducts_launchStep.of fun _ _ hat h ↦ hlaunch hat h.1) fun _ ↦ .pure _
  · refine .bind (.readRun hfirm.lasts fun _ _ _ h ↦ h) fun q ↦ .ite (fun _ ↦ ?_) fun _ ↦ .pure _
    exact (conducts_fail (by decide) (by decide)).of fun _ _ _ h ↦ h.1

theorem conducts_requireMove {source target : RunStatus}
    (hturn : ∀ log s, MayTurn o s₀ log s u target (some source)) :
    Conducts setup o s₀ (fun _ s ↦ Owns o s₀ s u) (requireMove u source target) fun _ _ _ ↦
      True := by
  refine .andThen ((conducts_writeRunStatus _ _ _).of fun log s _ h ↦ ⟨h, hturn log s⟩) (.owns u)
    fun moved ↦ .ite (fun _ ↦ .pure _) fun _ ↦ ?_
  exact .bind (.readRun (Firm.owns u).lasts fun _ _ _ h ↦ h) fun q ↦ .throw _

theorem conducts_setRunEndTime :
    Conducts setup o s₀ (fun _ s ↦ Owns o s₀ s u) (setRunEndTime u) fun _ _ _ ↦ True :=
  .andThen .now (.owns u) fun _ ↦ .store (fun _ _ ↦ rfl) fun _ _ _ h ↦ h

theorem conducts_stop :
    Conducts setup o s₀ (fun _ s ↦ Owns o s₀ s u) (Engine.stop u) fun _ _ _ ↦ True := by
  refine .andThen (conducts_updateRunStatus (by decide) (by decide)) (.owns u) fun moved ↦ ?_
  refine .ite (fun _ ↦ .andThen conducts_setRunEndTime (.owns u) fun _ ↦ .state) fun _ ↦ ?_
  exact .bind (.readRun (Firm.owns u).lasts fun _ _ _ h ↦ h) fun q ↦ .throw_bind _ _

theorem conducts_pause :
    Conducts setup o s₀ (fun _ s ↦ Owns o s₀ s u) (Engine.pause u) fun _ _ _ ↦ True :=
  .andThen (conducts_requireMove fun _ _ ↦ ⟨nofun, fun _ ↦ rfl⟩) (.owns u) fun _ ↦ .state

theorem conducts_takeHeldStep :
    Conducts setup o s₀ (fun _ s ↦ Owns o s₀ s u) (Action.store (.takeHeldStep u)) fun held _ s ↦
      Owns o s₀ s u ∧ ∀ k, held = some k → HasStep s.tables u k := by
  have htake : Conducts setup o s₀ (fun _ s ↦ Owns o s₀ s u) (Action.store (.takeHeldStep u))
      fun _ _ _ ↦ True := .store (fun _ _ ↦ rfl) fun _ _ _ h ↦ h
  refine (htake.logged.stays (.owns u) fun _ _ _ h ↦ h).mono (fun _ _ _ h ↦ h)
    fun held log s _ h ↦ ⟨h.2, fun k hk ↦ ?_⟩
  obtain ⟨⟨-, R, log₀, l, t, rfl, hat, -, hgrows, h⟩, -⟩ := h
  obtain ⟨-, hr, -, -⟩ := logs_store.1 h
  cases hq : t.tables.run? u with
  | none => cases hr.trans (congrArg Prod.fst (Store.Tables.onRun_of_none hq _))
  | some q =>
    have hheld : held = q.heldStepInstanceUid :=
      Except.ok.inj (hr.trans (congrArg Prod.fst (Store.Tables.onRun_of_some hq _)))
    obtain ⟨hqm, rfl⟩ := Store.Tables.mem_of_run? hq
    exact hgrows.hasStep (hat.grounded.holds q hqm k (hheld ▸ hk))

theorem conducts_resume :
    Conducts setup o s₀ (fun _ s ↦ Owns o s₀ s u) (setup.resume u) fun _ _ _ ↦ True := by
  refine .andThen (conducts_requireMove fun _ _ ↦ ⟨fun _ ↦ .inr rfl, nofun⟩) (.owns u) fun _ ↦ ?_
  refine .bind conducts_takeHeldStep fun held ↦ ?_
  cases held with
  | none => exact Conducts.state.of fun _ _ _ h ↦ h.1
  | some k =>
    refine .bind (.readStep (lasts_of_scene _) fun _ _ _ h ↦ .own ⟨u, h.1, h.2 k rfl⟩) fun x ↦ ?_
    have hheld : ∀ ⦃log s⦄, AtRest setup o s₀ log s → (Owns o s₀ s u ∧ ∀ v, some k = some v →
        HasStep s.tables u v) ∧ s.tables.step? k = some x → AtHand o s₀ log s x := by
      intro log s hat ⟨⟨hown, hstep⟩, hx⟩
      obtain ⟨y, hy, hyk, hrun⟩ := hstep k rfl
      obtain ⟨hxm, hxk⟩ := Store.Tables.mem_of_step? hx
      obtain rfl := hat.grounded.keyed.eq_of_step hy hxm (hyk.trans hxk.symm)
      exact hat.atHand hxm (hrun ▸ hown)
    exact .bind ((conducts_advance.of hheld).stays (.owns u) fun _ _ _ h ↦ h.1.1) fun _ ↦
      Conducts.state.of fun _ _ _ h ↦ h.2

/-! ## Watches -/

theorem conducts_deliver {m : DeploymentOutcome}
    (ho : ∃ run time phase, o = .watch run time phase) :
    Conducts setup o s₀ (fun _ s ↦ Owns o s₀ s m.workflowInstanceId) (deliver m) fun _ _ _ ↦
    True := by
  have hfirm : Firm fun _ s ↦ Owns o s₀ s m.workflowInstanceId := .owns _
  have hsend : Conducts setup o s₀ (fun _ s ↦ Owns o s₀ s m.workflowInstanceId)
      (Action.publish .deployments m.toJson) fun _ _ _ ↦ True := .publish fun _ _ _ _ ↦ ho
  refine .andThen hsend.attempt hfirm fun sent ↦ ?_
  cases sent with
  | ok _ => exact .pure _
  | error e =>
    refine .bind (Conducts.readRun hfirm.lasts fun _ _ _ h ↦ h).attempt fun found ↦ ?_
    cases found with
    | ok q => exact .pure _
    | error e => exact .pure _

theorem conducts_failRun {m : DeploymentOutcome} :
    Conducts setup o s₀ (fun _ s ↦ Owns o s₀ s m.workflowInstanceId) (failRun m) fun _ _ _ ↦
      True := by
  have hfirm : Firm fun _ s ↦ Owns o s₀ s m.workflowInstanceId := .owns _
  refine .andThen ((conducts_writeRunStatus _ _ _).of fun _ _ _ h ↦ ⟨h, mayTurn_of_ne (by decide)
    (by decide)⟩) hfirm fun moved ↦ .ite (fun _ ↦ ?_) fun _ ↦ .pure _
  refine .andThen (.readRun hfirm.lasts fun _ _ _ h ↦ h) hfirm fun q ↦ ?_
  exact .andThen conducts_setRunEndTime hfirm fun _ ↦ .store (fun _ _ ↦ rfl) fun _ _ _ h ↦ h

theorem conducts_reportOutcome {m : DeploymentOutcome} {time attempt pause : Nat}
    (ho : ∃ run time phase, o = .watch run time phase) :
    Conducts setup o s₀ (fun _ s ↦ Owns o s₀ s m.workflowInstanceId)
      (reportOutcome m time attempt pause) fun _ _ _ ↦ True := by
  have hfirm : Firm fun _ s ↦ Owns o s₀ s m.workflowInstanceId := .owns _
  refine .andThen (conducts_deliver ho) hfirm fun delivered ↦ .ite (fun _ ↦ .pure _) fun _ ↦ ?_
  exact .ite (fun _ ↦ .pure _) fun _ ↦ .bind conducts_failRun.attempt fun _ ↦ .pure _

theorem asks_stillPending {φ : Call → Prop} (h : ∀ f, φ (.getFunction f)) (functions : List Uid) :
    Asks φ (stillPending functions) := by
  induction functions with
  | nil => exact .pure _
  | cons f rest ih =>
    refine .bind ⟨h f, fun _ ↦ trivial⟩ fun info ↦ ?_
    split
    · exact ih
    · exact .throw _
    all_goals exact .bind ih fun _ ↦ .pure _

theorem conducts_look {functions : List Uid} :
    Conducts setup o s₀ (fun _ s ↦ Owns o s₀ s u) (look u functions) fun _ _ _ ↦ True := by
  have hfirm : Firm fun _ s ↦ Owns o s₀ s u := .owns u
  refine .andThen (.readRun hfirm.lasts fun _ _ _ h ↦ h) hfirm fun q ↦
    .ite (fun _ ↦ .pure _) fun _ ↦ ?_
  exact .bind (.consults (asks_stillPending (fun _ ↦ trivial) functions) hfirm.lasts) fun _ ↦
    .pure _

theorem conducts_lookUntil {functions : List Uid} {time deadline : Nat}
    (ho : ∃ run time phase, o = .watch run time phase) :
    Conducts setup o s₀ (fun _ s ↦ Owns o s₀ s u) (setup.lookUntil u functions time deadline)
      fun _ _ _ ↦ True := by
  have hreport : ∀ m : DeploymentOutcome, m.workflowInstanceId = u →
      Conducts setup o s₀ (fun _ s ↦ Owns o s₀ s u) (setup.reportFirst m time) fun _ _ _ ↦
        True := by
    rintro m rfl
    exact conducts_reportOutcome ho
  refine .andThen conducts_look.attempt (.owns u) fun found ↦ ?_
  rcases found with e | _ | _ | pending
  · exact hreport _ rfl
  · exact hreport _ rfl
  · exact .pure _
  · exact .ite (fun _ ↦ hreport _ rfl) fun _ ↦ .pure _

/-! ## All operations -/

/-- **Every operation is well conducted**, but for those that remove old runs. -/
theorem conducts_operation (ho : ∀ keepDays maxCount, o ≠ .sweep keepDays maxCount) :
    Conducts setup o s₀ (fun _ s ↦ s = s₀) (o.action setup) fun _ _ _ ↦ True := by
  cases o with
  | start workflow input parent parentStep =>
    refine .bind (conducts_startNested _ workflow input parent parentStep |>.of fun _ _ _ _ ↦ ?_)
      fun _ ↦ .pure _
    exact .outside workflow input parent parentStep rfl
  | result m => exact conducts_processResult rfl
  | outcome m => exact (conducts_processOutcome rfl).of fun _ _ _ _ ↦ .inl rfl
  | stop run => exact .bind (conducts_stop.of fun _ _ _ _ ↦ .inl rfl) fun _ ↦ .pure _
  | pause run => exact .bind (conducts_pause.of fun _ _ _ _ ↦ .inl rfl) fun _ ↦ .pure _
  | resume run => exact .bind (conducts_resume.of fun _ _ _ _ ↦ .inl rfl) fun _ ↦ .pure _
  | watch run time phase =>
    have ho : ∃ r t p, Operation.watch run time phase = .watch r t p := ⟨run, time, phase, rfl⟩
    refine .bind (Q := fun _ _ _ ↦ True) ?_ fun _ ↦ .pure _
    cases phase with
    | begin functions => exact (conducts_lookUntil ho).of fun _ _ _ _ ↦ .inl rfl
    | wait functions nextLook deadline =>
      exact .ite (fun _ ↦ (conducts_lookUntil ho).of fun _ _ _ _ ↦ .inl rfl)
        fun _ ↦ (conducts_reportOutcome ho).of fun _ _ _ _ ↦ .inl rfl
    | report m attempt pause =>
      exact (conducts_reportOutcome ho).of fun _ _ _ _ ↦ .inl (.inr rfl)
  | failRun m => exact conducts_failRun.of fun _ _ _ _ ↦ .inl rfl
  | sweep keepDays maxCount => exact absurd rfl (ho keepDays maxCount)

/-- What an operation does from sound records, it does well conducted, and leaves nothing due. -/
theorem conducted_of_logs {R : Rule} {r : Except EngineError Unit} (hs : Grounded s₀)
    (ho : ∀ keepDays maxCount, o ≠ .sweep keepDays maxCount)
    (h : Logs R (o.action setup) s₀ log r s) : AtRest setup o s₀ log s :=
  (conducts_operation ho ⟨.begin, hs, rfl⟩ rfl h).1

end Engine

end Orchestration
