import Orchestration.Proofs.Launching

/-!
# Moving on

A run moves on from the step where it stands, and from no other step. That is plain where a result
is written, because only the step where a run stands can be running. It is the point of the question
that is asked about a repeated result (`awaitsFollowUp`): a guided chain answers yes only for a step
from which the run may go on.

The answer rests on the stop condition of a loop. It is evaluated anew at every repetition, and only
a condition over the loop alone is sure to say what it said when the loop was left.
-/

namespace Orchestration

namespace Engine

open Chain

variable {R : Rule} {setup : Setup} {G : Uid → Prop} {s s' : Scene}
variable {t : Store.Tables} {issued : List Uid} {ds : List Dispatch} {x : StepInstance}

/-! ## What follows a step -/

theorem finds_followLink {r : Except EngineError (Option StepInstance)} :
    Finds t (followLink x) r ↔ r = .ok (x.nextStepId.bind t.step?) := by
  unfold followLink
  cases hx : x.nextStepId with
  | none => exact finds_pure
  | some v => exact finds_store rfl

/-- A loop follows itself until its stop condition holds; then, as any other step does, it goes by
its link. If its stop condition has no value it has no successor either. -/
theorem finds_nextStep {r : Except EngineError (Option StepInstance)}
    (h : Finds t (nextStep x) r) :
    (∃ f text, x.shape = .doWhile f text ∧ Finds t (evaluateStop x text) (.ok false) ∧
      r = .ok (some x)) ∨
    ((∀ f text, x.shape = .doWhile f text → Finds t (evaluateStop x text) (.ok true)) ∧
      r = .ok (x.nextStepId.bind t.step?)) ∨
    ∃ f text e, x.shape = .doWhile f text ∧ Finds t (evaluateStop x text) (.error e) ∧
      r = .error e := by
  by_cases hloop : ∃ f text, x.shape = .doWhile f text
  · obtain ⟨f, text, hshape⟩ := hloop
    rw [nextStep_of_loop hshape] at h
    rcases finds_bind.1 h with ⟨e, h₁, rfl⟩ | ⟨stops, h₁, hrest⟩
    · exact .inr (.inr ⟨f, text, e, hshape, h₁, rfl⟩)
    · cases stops with
      | false => exact .inl ⟨f, text, hshape, h₁, finds_pure.1 hrest⟩
      | true =>
        refine .inr (.inl ⟨fun f' text' hshape' ↦ ?_, finds_followLink.1 hrest⟩)
        rw [hshape] at hshape'
        cases hshape'
        exact h₁
  · rw [nextStep_of_not_loop fun f text hs ↦ hloop ⟨f, text, hs⟩] at h
    exact .inr (.inl ⟨fun f text hs ↦ absurd ⟨f, text, hs⟩ hloop, finds_followLink.1 h⟩)

theorem finds_nextStep_of_selfGuided (hx : StepInstance.SelfGuided x.shape)
    {r : Except EngineError (Option StepInstance)} (h : Finds t (nextStep x) r) :
    (r = .ok (some x) ∧ ¬x.Stops) ∨ (r = .ok (x.nextStepId.bind t.step?) ∧ x.Stops) ∨
      ((∃ e, r = .error e) ∧ ¬x.Stops) := by
  have hvalue : ∀ {f text v}, x.shape = .doWhile f text → Finds t (evaluateStop x text) v →
      v = stopValue x text := fun {f text v} hshape hfinds ↦ by
    rw [evaluateStop_eq (hx f text hshape).1] at hfinds
    exact finds_ofExcept.1 hfinds
  rcases finds_nextStep h with ⟨f, text, hshape, hv, hr⟩ | ⟨hv, hr⟩ | ⟨f, text, e, hshape, hv, hr⟩
  · refine .inl ⟨hr, fun hs ↦ ?_⟩
    have hstops := (hvalue hshape hv).trans (hs f text hshape)
    cases hstops
  · exact .inr (.inl ⟨hr, fun f text hshape ↦ (hvalue hshape (hv f text hshape)).symm⟩)
  · refine .inr (.inr ⟨⟨e, hr⟩, fun hs ↦ ?_⟩)
    have hstops := (hvalue hshape hv).trans (hs f text hshape)
    cases hstops

/-! ## From where a run may go on -/

/-- A run may go on from one of its steps, if it is guided. -/
structure Leavable (G : Uid → Prop) (t : Store.Tables) (x : StepInstance) : Prop where
  mem : x ∈ t.steps
  standing : G x.workflowInstanceUid → Open (t.chainOf x.workflowInstanceUid) x.uid
  underway : G x.workflowInstanceUid → ∀ r ∈ t.runs, r.uid = x.workflowInstanceUid →
    r.runStatus ≠ .new ∧ r.runStatus ≠ .deployingFunctions ∧ r.runStatus ≠ .paused

theorem Stands.chainStands (h : Stands G t issued ds) (hx : x ∈ t.steps)
    (hG : G x.workflowInstanceUid) : ChainStands (t.chainOf x.workflowInstanceUid) := by
  obtain ⟨r, hr, hu⟩ := h.keyed.owned x hx
  exact hu ▸ (h.run r hr (hu ▸ hG)).chain

theorem Stands.step?_bind (h : Stands G t issued ds) (hx : x ∈ t.steps) {n : StepInstance}
    (hn : x.nextStepId.bind t.step? = some n) :
    n ∈ t.steps ∧ n.workflowInstanceUid = x.workflowInstanceUid ∧ x.nextStepId = some n.uid := by
  obtain ⟨v, hv, hnv⟩ := Option.bind_eq_some_iff.1 hn
  obtain ⟨hmem, rfl⟩ := Store.Tables.mem_of_step? hnv
  obtain ⟨m, hm, hmu, hmw⟩ := h.links x hx _ hv
  obtain rfl := h.keyed.eq_of_step hm hmem hmu
  exact ⟨hmem, hmw, hv⟩

theorem Stands.own_next (h : Stands G t issued ds) (hx : x ∈ t.steps) {n : StepInstance}
    (hn : Finds t (nextStep x) (.ok (some n))) :
    n ∈ t.steps ∧ n.workflowInstanceUid = x.workflowInstanceUid := by
  rcases finds_nextStep hn with ⟨-, -, -, -, hr⟩ | ⟨-, hr⟩ | ⟨_, _, _, -, -, hr⟩
  · obtain rfl : n = x := Option.some.inj (Except.ok.inj hr)
    exact ⟨hx, rfl⟩
  · obtain ⟨hmem, hw, -⟩ := h.step?_bind hx (Except.ok.inj hr).symm
    exact ⟨hmem, hw⟩
  · cases hr

/-- Where a run may go on from a successful step, what follows the step may be launched. -/
theorem Leavable.launchable_next (h : Leavable G s.tables x) (hst : Stands G s.tables issued ds)
    (hsucc : x.runStatus = .completed ∨ x.runStatus = .skipped) {n : StepInstance}
    (hn : Finds s.tables (nextStep x) (.ok (some n))) : Launchable G s.tables n.uid := by
  have hown := hst.own_next h.mem hn
  intro y hy hu hG
  obtain rfl := hst.keyed.eq_of_step hy hown.1 hu
  rw [hown.2] at hG ⊢
  refine ⟨?_, h.underway hG⟩
  have hchain := hst.chainStands h.mem hG
  have hcs := hst.keyed.nodup_chainOf x.workflowInstanceUid
  have hx : x ∈ s.tables.chainOf x.workflowInstanceUid := Store.Tables.mem_chainOf.2 ⟨h.mem, rfl⟩
  rcases finds_nextStep_of_selfGuided (hchain.guided x hx)
    hn with ⟨hr, hns⟩ | ⟨hr, hs⟩ | ⟨⟨_, he⟩, -⟩
  · -- The loop is not to stop, so it has not been left: the run stands at it.
    obtain rfl : y = x := Option.some.inj (Except.ok.inj hr)
    refine ⟨(h.standing hG).standsAt hx hcs fun hl ↦ hns hl.stops, fun z hz hzu ↦ ?_⟩
    rw [hst.keyed.eq_of_step (Store.Tables.mem_chainOf.1 hz).1 hy hzu]
    rcases hsucc with hs | hs <;> simp [hs]
  · obtain ⟨-, -, hnext⟩ := hst.step?_bind h.mem (Except.ok.inj hr).symm
    exact (h.standing hG).ready_next hx hcs hchain.linked ⟨hsucc, hs⟩ hnext
  · cases he

/-- Where a run may go on from a step that has failed, the step may be launched again. -/
theorem Leavable.launchable_self (h : Leavable G t x) (hst : Stands G t issued ds)
    (hfailed : x.runStatus = .failed ∨ x.runStatus = .timedOut) : Launchable G t x.uid := by
  intro y hy hu hG
  obtain rfl := hst.keyed.eq_of_step hy h.mem hu
  have hcs := hst.keyed.nodup_chainOf y.workflowInstanceUid
  have hmem : y ∈ t.chainOf y.workflowInstanceUid := Store.Tables.mem_chainOf.2 ⟨h.mem, rfl⟩
  refine ⟨⟨(h.standing hG).standsAt hmem hcs fun hl ↦ ?_, fun z hz hzu ↦ ?_⟩, h.underway hG⟩
  · rcases hl.status with hs | hs <;> rcases hfailed with hf | hf <;> simp [hs] at hf
  · rw [hst.keyed.eq_of_step (Store.Tables.mem_chainOf.1 hz).1 hy hzu]
    rcases hfailed with hf | hf <;> simp [hf]

/-! ## Leaving a step -/

/-- How a run goes on from a successful step, given what follows the step. -/
def goOn (setup : Setup) (x : StepInstance) :
    Except EngineError (Option StepInstance) → Action Unit
  | .ok (some next) => setup.launchStep next
  | .ok none =>
    if x.isLast then setup.terminate x.workflowInstanceUid .completed none (some x.outputData)
    else setup.fail x.workflowInstanceUid .failed x.name missingNext
  | .error e =>
    if e.isConfiguration then setup.fail x.workflowInstanceUid .failed x.name e.message
    else throw e

theorem leave_eq (setup : Setup) (x : StepInstance) :
    setup.leave x = Action.attempt (nextStep x) >>= goOn setup x := by
  refine congrArg (bind _) (funext fun o ↦ ?_)
  rcases o with e | _ | n
  · rfl
  · rfl
  · rfl

theorem advance_of_success (h : x.runStatus = .completed ∨ x.runStatus = .skipped) :
    setup.advance x = Action.attempt (nextStep x) >>= goOn setup x := by
  rw [← leave_eq, Setup.advance]
  rcases h with h | h
  · rw [h]
  · rw [h]

theorem runs_leave (hR : Guiding R G) (hs : Standing setup G s) (hx : Leavable G s.tables x)
    (hsucc : x.runStatus = .completed ∨ x.runStatus = .skipped) {r : Except EngineError Unit}
    (h : Runs R (setup.advance x) s r s') : Standing setup G s' := by
  rw [advance_of_success hsucc] at h
  obtain ⟨o, hnext⟩ := reads_nextStep x s.tables
  have hrest := Finds.next (finds_attempt.2 ⟨o, hnext, rfl⟩) h
  cases o with
  | error e => exact Keeps.ite (keeps_fail rfl _ _) (Still.throw _).keeps hs hrest
  | ok next =>
    cases next with
    | none => exact Keeps.ite (keeps_terminate rfl _ _) (keeps_fail rfl _ _) hs hrest
    | some n =>
      obtain ⟨ds, hst, hds⟩ := hs
      exact runs_launchStep hR ⟨ds, hst, hds⟩ (hx.launchable_next hst hsucc hnext) hrest

theorem sameStep_withRetryUsed (x : StepInstance) :
    SameStep x (Store.Tables.withRetryUsed x).2 ∧
      (Store.Tables.withRetryUsed x).2.runStatus = x.runStatus ∧
      (Store.Tables.withRetryUsed x).2.runCount = x.runCount := by
  unfold Store.Tables.withRetryUsed
  split
  · exact ⟨⟨rfl, rfl, rfl, rfl, rfl⟩, rfl, rfl⟩
  · exact ⟨⟨rfl, rfl, rfl, rfl, rfl⟩, rfl, rfl⟩

theorem runs_retry (hR : Guiding R G) (hs : Standing setup G s) (hx : Leavable G s.tables x)
    (hfailed : x.runStatus = .failed ∨ x.runStatus = .timedOut) {r : Except EngineError Unit}
    (h : Runs R (setup.retry x) s r s') : Standing setup G s' := by
  obtain ⟨ds, hst, hds⟩ := hs
  obtain ⟨hs₁, hl₁⟩ := (hx.launchable_self hst hfailed).prepared ⟨ds, hst, hds⟩
    (c := .decrementRetry x.uid) Store.Tables.withRetryUsed rfl
      (fun y ↦ (sameStep_withRetryUsed y).1)
    (fun y ↦ (sameStep_withRetryUsed y).2.1) fun y ↦ (sameStep_withRetryUsed y).2.2
  rcases runs_bind.1 h with ⟨e, h₁, -⟩ | ⟨left, s₁, h₁, hrest⟩
  · obtain ⟨-, -, rfl⟩ := runs_store.1 h₁
    exact hs₁
  obtain ⟨-, -, rfl⟩ := runs_store.1 h₁
  cases left with
  | false =>
    have hterminal : x.runStatus.isTerminal = true := by
      rcases hfailed with hf | hf <;> rw [hf] <;> rfl
    exact keeps_fail hterminal _ _ hs₁ hrest
  | true =>
    rcases runs_bind.1 hrest with ⟨e, h₂, -⟩ | ⟨y, s₂, h₂, hlaunch⟩
    · rw [still_readStep _ h₂]
      exact hs₁
    · rw [still_readStep _ h₂] at hlaunch h₂
      have hyu := (Store.Tables.mem_of_step? (runs_readStep h₂)).2
      exact runs_launchStep hR hs₁ (hyu.symm ▸ hl₁) hlaunch

/-- **A run that moves on from a step from which it may go on keeps the invariant.** -/
theorem runs_advance (hR : Guiding R G) (hs : Standing setup G s) (hx : Leavable G s.tables x)
    {r : Except EngineError Unit} (h : Runs R (setup.advance x) s r s') :
    Standing setup G s' := by
  cases hstatus : x.runStatus with
  | completed => exact runs_leave hR hs hx (.inl hstatus) h
  | skipped => exact runs_leave hR hs hx (.inr hstatus) h
  | failed =>
    rw [Setup.advance, hstatus] at h
    exact runs_retry hR hs hx (.inl hstatus) h
  | timedOut =>
    rw [Setup.advance, hstatus] at h
    exact runs_retry hR hs hx (.inr hstatus) h
  | canceled =>
    rw [Setup.advance, hstatus] at h
    exact keeps_fail rfl _ _ hs h
  | failedWithTerminalError =>
    rw [Setup.advance, hstatus] at h
    exact keeps_fail rfl _ _ hs h
  | new | deployingFunctions | running | paused | completedWithErrors | stopped =>
    rw [Setup.advance, hstatus] at h
    rw [(runs_throw.1 h).2]
    exact hs

/-! ## Writing a result -/

/-- What a result changes of its step at a time. -/
def updateOf (result : StepResult) (time : Instant) (expected : Int) : Store.StepUpdate :=
  { runStatus := result.runStatus
    outputData := result.outputData
    failureReason := result.failureReason
    endTime := time
    expectedRunCount := expected }

theorem runs_applyResult {result : StepResult} {r : Except EngineError (Option StepInstance)}
    (h : Runs R (applyResult x result) s r s') :
    (expectedRunCount x result = none ∧ r = .ok none ∧ s' = s) ∨
      ∃ expected time, expectedRunCount x result = some expected ∧
        s' = s.afterStore (.applyStepResult x.uid (updateOf result time expected)) ∧
        (r = .ok none →
          (s.tables.answer (.applyStepResult x.uid (updateOf result time expected))).1 =
            .ok false) ∧
        ∀ y, r = .ok (some y) →
          (s.tables.answer (.applyStepResult x.uid (updateOf result time expected))).1 = .ok true ∧
          s'.tables.step? x.uid = some y := by
  unfold applyResult at h
  cases hexp : expectedRunCount x result with
  | none =>
    rw [hexp] at h
    obtain ⟨rfl, rfl⟩ := runs_pure.1 h
    exact .inl ⟨rfl, rfl, rfl⟩
  | some expected =>
    rw [hexp] at h
    rcases runs_bind.1 h with ⟨e, h₁, -⟩ | ⟨time, s₁, h₁, hrest⟩
    · obtain ⟨_, -, he, -⟩ := runs_now.1 h₁
      cases he
    rw [Still.now h₁] at hrest
    refine .inr ⟨expected, time, rfl, ?_⟩
    rcases runs_bind.1 hrest with ⟨e, h₂, rfl⟩ | ⟨applied, s₂, h₂, hrest⟩
    · obtain ⟨-, -, rfl⟩ := runs_store.1 h₂
      exact ⟨rfl, fun hr ↦ (nomatch hr), fun y hr ↦ nomatch hr⟩
    obtain ⟨hans, -, rfl⟩ := runs_store.1 h₂
    cases applied with
    | false =>
      obtain ⟨rfl, rfl⟩ := runs_pure.1 hrest
      exact ⟨rfl, fun _ ↦ hans.symm, fun y hr ↦ nomatch hr⟩
    | true =>
      rcases runs_bind.1 hrest with ⟨e, h₃, rfl⟩ | ⟨_, s₃, h₃, hrest⟩
      · exact ⟨still_announceStep _ _ h₃, fun hr ↦ (nomatch hr), fun y hr ↦ nomatch hr⟩
      rw [still_announceStep _ _ h₃] at hrest
      rcases runs_bind.1 hrest with ⟨e, h₄, rfl⟩ | ⟨y, s₄, h₄, hrest⟩
      · exact ⟨still_readStep _ h₄, fun hr ↦ (nomatch hr), fun y hr ↦ nomatch hr⟩
      have hstill := still_readStep _ h₄
      obtain ⟨rfl, hs'⟩ := runs_pure.1 hrest
      rw [hstill] at hs' h₄
      rw [hs']
      refine ⟨rfl, fun hr ↦ (nomatch hr), fun y' hr ↦ ⟨hans.symm, ?_⟩⟩
      obtain rfl := Option.some.inj (Except.ok.inj hr)
      exact runs_readStep h₄

theorem sameStep_withResult (update : Store.StepUpdate) (x : StepInstance) :
    SameStep x (Store.Tables.withResult update x).2 := by
  unfold Store.Tables.withResult
  split
  · exact ⟨rfl, rfl, rfl, rfl, rfl⟩
  · exact ⟨rfl, rfl, rfl, rfl, rfl⟩

/-- A step onto which a result has been written. -/
def answeredStep (x : StepInstance) (m : StepResult) (time : Instant) : StepInstance :=
  { x with
    runStatus := m.runStatus
    outputData := m.outputData
    failureReason := m.failureReason
    endTime := some time
    runCount := x.runCount + 1 }

/-- A result that answers the attempt of a running step is written onto it. -/
theorem withResult_of_running {m : StepResult} {x : StepInstance} {time : Instant} {expected : Int}
    (hrunning : x.runStatus = .running) (hcount : x.runCount = expected) :
    Store.Tables.withResult (updateOf m time expected) x = (true, answeredStep x m time) :=
  if_neg (by simp [hrunning, hcount, updateOf])

/-- A result that names the attempt of a step, or none, is taken for the next one of the step. -/
theorem expectedRunCount_of_attempt {m : StepResult} (hcount : x.CanCount)
    (hattempt : ∀ n ∈ m.attempt, n = attemptOf x) : expectedRunCount x m = some x.runCount := by
  unfold expectedRunCount
  cases hn : m.attempt with
  | none => rfl
  | some n =>
    have hn : n = x.runCount + 1 := hattempt n hn
    have hnonneg := hcount.nonneg
    dsimp only
    rw [if_neg (by omega), Option.some.injEq]
    omega

/-- What is known of a step onto which a result has just been written: its run stands there, and had
begun to run. -/
structure Answered (G : Uid → Prop) (t : Store.Tables) (y : StepInstance) : Prop where
  mem : y ∈ t.steps
  standing : G y.workflowInstanceUid → StandsAt (t.chainOf y.workflowInstanceUid) y.uid
  begun : G y.workflowInstanceUid → ∀ r ∈ t.runs, r.uid = y.workflowInstanceUid →
    r.runStatus ≠ .new ∧ r.runStatus ≠ .deployingFunctions

/-- An accepted result keeps the invariant: only the step where a run stands can be running. -/
theorem Stands.answered (h : Stands G t issued ds) {u : Uid} {update : Store.StepUpdate}
    {y : StepInstance} (hok : (t.answer (.applyStepResult u update)).1 = .ok true)
    (hy : (t.answer (.applyStepResult u update)).2.step? u = some y) :
    Stands G (t.answer (.applyStepResult u update)).2 issued ds ∧
      Answered G (t.answer (.applyStepResult u update)).2 y := by
  obtain ⟨z, hz, hrunning, hcount, htables⟩ := Store.Tables.answer_accepted hok
  rw [htables] at hy ⊢
  obtain ⟨hmem, rfl⟩ := Store.Tables.mem_of_step? hz
  have hsame := sameStep_withResult update z
  have hchange : (Store.Tables.withResult update z).2.runCount = z.runCount + 1 := by
    rw [Store.Tables.withResult, if_neg (by simp [hrunning, hcount])]
  have hmoves := fun hG ↦ h.moves_of_running (G := G) hmem hrunning hchange hG
  obtain ⟨hym, hyu⟩ := Store.Tables.mem_of_step? hy
  obtain rfl : y = (Store.Tables.withResult update z).2 := by
    rcases Store.mem_overwrite hym with rfl | ⟨-, hne⟩
    · rfl
    · exact absurd (hyu.trans hsame.uid.symm) hne
  refine ⟨h.putStep hmem hsame hmoves, hym, fun hG ↦ ?_, fun hG r hr hu ↦ ?_⟩
  · rw [hsame.run] at hG ⊢
    rw [h.keyed.chainOf_putStep hmem hsame.uid hsame.run, hsame.uid]
    exact (hmoves hG).stands.overwrite (h.keyed.nodup_chainOf _) hsame.uid
  · rw [hsame.run] at hG hu
    exact (hmoves hG).begun r hr hu

theorem Standing.applyResult (hs : Standing setup G s) {result : StepResult}
    {r : Except EngineError (Option StepInstance)} (h : Runs R (applyResult x result) s r s') :
    Standing setup G s' ∧ (r = .ok none → s'.tables = s.tables) ∧
      ∀ y, r = .ok (some y) → Answered G s'.tables y := by
  rcases runs_applyResult h with ⟨-, rfl, rfl⟩ | ⟨expected, time, -, rfl, hnone, hsome⟩
  · exact ⟨hs, fun _ ↦ rfl, fun y hr ↦ nomatch hr⟩
  obtain ⟨ds, hst, hds⟩ := hs
  set update := updateOf result time expected
  by_cases hok : (s.tables.answer (.applyStepResult x.uid update)).1 = .ok true
  · obtain ⟨z, hz, -, -, htables⟩ := Store.Tables.answer_accepted hok
    have hafter : ∃ y, (s.tables.answer (.applyStepResult x.uid update)).2.step? x.uid =
        some y := by
      obtain ⟨hmem, hu⟩ := Store.Tables.mem_of_step? hz
      have hsame := sameStep_withResult update z
      refine ⟨(Store.Tables.withResult update z).2, ?_⟩
      rw [htables]
      exact (hst.keyed.putStep hmem hsame.run).step?_iff.2
        ⟨Store.mem_overwrite_self hmem hsame.uid.symm, hsame.uid.trans hu⟩
    obtain ⟨y, hy⟩ := hafter
    obtain ⟨hst', hans⟩ := hst.answered hok hy
    refine ⟨⟨ds, hst', hds⟩, fun hr ↦ ?_, fun y' hr ↦ ?_⟩
    · rw [hnone hr] at hok
      cases hok
    · obtain rfl := Option.some.inj (hy.symm.trans (hsome y' hr).2)
      exact hans
  · have hsame : (s.afterStore (.applyStepResult x.uid update)).tables = s.tables :=
      hst.keyed.answer_refused hok
    refine ⟨⟨ds, ?_, hds⟩, fun _ ↦ hsame, fun y hr ↦ absurd (hsome y hr).1 hok⟩
    rw [hsame]
    exact hst

/-! ## Repeated results -/

theorem reads_awaitsFollowUp (x : StepInstance) : Reads (awaitsFollowUp x) := by
  have hask : Reads (Action.attempt (nextStep x) >>= fun o ↦ match o with
      | .ok (some next) => pure (next.uid == x.uid || next.runStatus == .new)
      | .ok none => pure true
      | .error e => if e.isConfiguration then pure true else throw e) := by
    refine .bind (.attempt (reads_nextStep x)) fun o ↦ ?_
    split
    · exact .pure _
    · exact .pure _
    · exact .ite (.pure _) (.throw _)
  unfold awaitsFollowUp
  split
  · exact hask
  · exact hask
  all_goals exact .pure _

/-- What should have followed the result of a step is not there, as far as the records tell. -/
inductive Unfollowed (t : Store.Tables) (x : StepInstance) : Prop where
  /-- The step has failed, and has neither been launched again nor ended its run. -/
  | failed (h : x.runStatus = .failed ∨ x.runStatus = .timedOut ∨ x.runStatus = .canceled ∨
      x.runStatus = .failedWithTerminalError)
  /-- The step that follows is still the step itself, with its result in place, or is new. -/
  | unlaunched (h : x.runStatus = .completed ∨ x.runStatus = .skipped) (n : StepInstance)
      (hn : Finds t (nextStep x) (.ok (some n))) (hnew : n.uid = x.uid ∨ n.runStatus = .new)
  /-- Nothing follows, and the run has not ended. -/
  | ended (h : x.runStatus = .completed ∨ x.runStatus = .skipped)
      (hn : Finds t (nextStep x) (.ok none))
  /-- What follows cannot be said, and the run has not failed. -/
  | misconfigured (h : x.runStatus = .completed ∨ x.runStatus = .skipped) (e : EngineError)
      (hn : Finds t (nextStep x) (.error e)) (he : e.isConfiguration = true)

theorem finds_awaitsFollowUp : Finds t (awaitsFollowUp x) (.ok true) ↔ Unfollowed t x := by
  have hask : x.runStatus = .completed ∨ x.runStatus = .skipped →
      (Finds t (Action.attempt (nextStep x) >>= fun o ↦ match o with
        | .ok (some next) => pure (next.uid == x.uid || next.runStatus == .new)
        | .ok none => pure true
        | .error e => if e.isConfiguration then pure true else throw e) (.ok true) ↔
        Unfollowed t x) := by
    intro hsucc
    constructor
    · intro h
      rcases finds_bind.1 h with ⟨e, -, he⟩ | ⟨o, h₁, hrest⟩
      · cases he
      obtain ⟨o', hnext, ho⟩ := finds_attempt.1 h₁
      obtain rfl := Except.ok.inj ho
      rcases o with e | _ | n
      · dsimp only at hrest
        split at hrest
        · next he => exact .misconfigured hsucc e hnext he
        · cases finds_throw.1 hrest
      · exact .ended hsucc hnext
      · have hor := (Except.ok.inj (finds_pure.1 hrest)).symm
        rw [Bool.or_eq_true, beq_iff_eq, beq_iff_eq] at hor
        exact .unlaunched hsucc n hnext hor
    · intro h
      refine finds_bind.2 (.inr ?_)
      cases h with
      | failed h => rcases hsucc with hs | hs <;> simp [hs] at h
      | unlaunched _ n hn hnew =>
        refine ⟨.ok (some n), finds_attempt.2 ⟨_, hn, rfl⟩, finds_pure.2 ?_⟩
        rw [eq_comm, Except.ok.injEq, Bool.or_eq_true, beq_iff_eq, beq_iff_eq]
        exact hnew
      | ended _ hn => exact ⟨.ok none, finds_attempt.2 ⟨_, hn, rfl⟩, finds_pure.2 rfl⟩
      | misconfigured _ e hn he =>
        refine ⟨.error e, finds_attempt.2 ⟨_, hn, rfl⟩, ?_⟩
        dsimp only
        rw [if_pos he]
        exact finds_pure.2 rfl
  have hnot : x.runStatus ≠ .completed → x.runStatus ≠ .skipped → (Unfollowed t x ↔
      x.runStatus = .failed ∨ x.runStatus = .timedOut ∨ x.runStatus = .canceled ∨
        x.runStatus = .failedWithTerminalError) := by
    refine fun hc hk ↦ ⟨fun h ↦ ?_, .failed⟩
    cases h with
    | failed h => exact h
    | unlaunched h | ended h | misconfigured h => exact (h.elim hc hk).elim
  unfold awaitsFollowUp
  cases hstatus : x.runStatus with
  | completed => exact hask (.inl hstatus)
  | skipped => exact hask (.inr hstatus)
  | failed | timedOut | canceled | failedWithTerminalError =>
    rw [hnot (by simp [hstatus]) (by simp [hstatus])]
    exact iff_of_true (finds_pure.2 rfl) (by simp [hstatus])
  | new | deployingFunctions | running | paused | completedWithErrors | stopped =>
    rw [hnot (by simp [hstatus]) (by simp [hstatus])]
    exact iff_of_false (fun h ↦ nomatch finds_pure.1 h) (by simp [hstatus])

/-- **If what should have followed a step of a guided run is not there, the run may go on from it.**
A step behind the one where the run stands is followed, unless its successor is new. -/
theorem Stands.open_of_unfollowed (hst : Stands G t issued ds) (hx : x ∈ t.steps)
    (hG : G x.workflowInstanceUid) (h : Unfollowed t x) :
    Open (t.chainOf x.workflowInstanceUid) x.uid := by
  have hchain := hst.chainStands hx hG
  have hcs := hst.keyed.nodup_chainOf x.workflowInstanceUid
  have hmem : x ∈ t.chainOf x.workflowInstanceUid := Store.Tables.mem_chainOf.2 ⟨hx, rfl⟩
  obtain ⟨u, hu⟩ := hchain.stands
  have hhere : ¬x.Left → x.runStatus ≠ .new → Open (t.chainOf x.workflowInstanceUid) x.uid :=
    fun hl hn ↦ .inl (hu.eq_of_not hmem hl (fun hf ↦ hn hf.1) ▸ hu)
  have hnotnew : x.runStatus = .completed ∨ x.runStatus = .skipped → x.runStatus ≠ .new :=
    fun hsucc ↦ by rcases hsucc with hs | hs <;> simp [hs]
  have hguided := hchain.guided x hmem
  cases h with
  | failed h =>
    refine hhere (fun hl ↦ ?_) ?_
    · rcases hl.status with hs | hs <;> simp [hs] at h
    · rcases h with hs | hs | hs | hs <;> simp [hs]
  | unlaunched hsucc n hn hnew =>
    rcases finds_nextStep_of_selfGuided hguided hn with ⟨-, hns⟩ | ⟨hr, hs⟩ | ⟨-, hns⟩
    · exact hhere (fun hl ↦ hns hl.stops) (hnotnew hsucc)
    · obtain ⟨hnm, hnw, hlink⟩ := hst.step?_bind hx (Except.ok.inj hr).symm
      have hnew : n.runStatus = .new :=
        hnew.resolve_left fun hself ↦ hchain.linked.next_ne hcs hmem (hself ▸ hlink)
      exact hu.open_of_next_new hcs hchain.linked hmem ⟨hsucc, hs⟩
        (Store.Tables.mem_chainOf.2 ⟨hnm, hnw⟩) hlink hnew
    · exact hhere (fun hl ↦ hns hl.stops) (hnotnew hsucc)
  | ended hsucc hn =>
    rcases finds_nextStep_of_selfGuided hguided hn with ⟨-, hns⟩ | ⟨hr, hs⟩ | ⟨-, hns⟩
    · exact hhere (fun hl ↦ hns hl.stops) (hnotnew hsucc)
    · -- Every link leads somewhere, so the step is the last one.
      have hlast : x.nextStepId = none := by
        cases hv : x.nextStepId with
        | none => rfl
        | some v =>
          obtain ⟨n, hnm, hnu, -⟩ := hst.links x hx v hv
          rw [hv, Option.bind_some, hst.keyed.step?_iff.2 ⟨hnm, hnu⟩] at hr
          cases hr
      exact .inl (hu.eq_of_no_next hchain.linked hmem ⟨hsucc, hs⟩ hlast ▸ hu)
    · exact hhere (fun hl ↦ hns hl.stops) (hnotnew hsucc)
  | misconfigured hsucc e hn he =>
    rcases finds_nextStep_of_selfGuided hguided hn with ⟨hr, -⟩ | ⟨hr, -⟩ | ⟨-, hns⟩
    · cases hr
    · cases hr
    · exact hhere (fun hl ↦ hns hl.stops) (hnotnew hsucc)

end Engine

end Orchestration
