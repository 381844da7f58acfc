import Orchestration.Proofs.StartDeeds

/-!
# The deeds of moving on

A run moves on from a step that has been read, or onto which a result has been written (`Leaving`).
Until then the operation has launched nothing and granted no repetition (`Quiet`). So what an
operation grants it grants at most once for each step, and before it launches the step.
-/

namespace Orchestration

namespace Engine

open Chain

variable {R : Rule} {setup : Setup} {G : Uid → Prop} {o : Operation} {s₀ s s' : Scene}
variable {log l : List Moment} {x : StepInstance} {run : Uid}

/-! ## Leaving a step -/

/-- Nothing has been launched so far, and no repetition has been granted. -/
def Quiet (log : List Moment) : Prop := ∀ m ∈ log, ∀ u, m.grants u = false ∧ m.launches u = false

theorem lasts_quiet : Lasts fun log _ ↦ Quiet log := by
  intro log s l hl h m hm u
  rcases List.mem_append.1 hm with hm | hm
  · exact h m hm u
  · exact ⟨(hl m hm).grants, (hl m hm).launches⟩

/-- A run that goes on may move on from a step that the store has. -/
structure Leaving (G : Uid → Prop) (s : Scene) (x : StepInstance) : Prop where
  known : s.tables.step? x.uid = some x
  run : ∃ q, s.tables.run? x.workflowInstanceUid = some q ∧ GoesOn q
  leavable : Leavable G s.tables x

theorem Leaving.holdsNothing (h : Leaving G s x) (hs : Sound setup G s) :
    HoldsNothing x.workflowInstanceUid s := by
  obtain ⟨q, hq, hgoes⟩ := h.run
  exact hs.holdsNothing hq hgoes

/-- A run that has no step to go to after a step that was successful may complete. -/
theorem Leaving.concludes (h : Leaving G s x) (hs : Sound setup G s)
    (hsucc : x.runStatus = .completed ∨ x.runStatus = .skipped)
    (hnone : Finds s.tables (nextStep x) (.ok none)) {q : WorkflowInstance}
    (hq : s.tables.run? x.workflowInstanceUid = some q) :
    Concludes s.tables q .completed (some x.outputData) := by
  obtain ⟨hqm, hqu⟩ := Store.Tables.mem_of_run? hq
  refine ⟨(h.holdsNothing hs).unheld q hqm hqu, fun _ ↦ ⟨x, h.known, hqu.symm, ?_, hsucc, rfl⟩⟩
  obtain ⟨ds, hst, -⟩ := hs.standing
  rcases finds_nextStep hnone with ⟨_, _, -, -, hr⟩ | ⟨-, hr⟩ | ⟨_, _, _, -, -, hr⟩
  · cases hr
  · cases hnext : x.nextStepId with
    | none => rfl
    | some v =>
      -- What a step names as the next one is there.
      obtain ⟨n, hn, hnu, -⟩ := hst.links x h.leavable.mem v hnext
      rw [hnext, Option.bind_some, hst.keyed.step?_iff.2 ⟨hn, hnu⟩] at hr
      cases hr
  · cases hr

theorem Leavable.occasion (h : Leavable G s.tables x) (hs : Sound setup G s)
    (hsucc : x.runStatus = .completed ∨ x.runStatus = .skipped) {n : StepInstance}
    (hn : Finds s.tables (nextStep x) (.ok (some n))) :
    Occasion G log n ∧ Reached s.tables n ∧ n ∈ s.tables.steps ∧
      n.workflowInstanceUid = x.workflowInstanceUid := by
  obtain ⟨ds, hst, -⟩ := hs.standing
  rcases finds_nextStep hn with ⟨f, text, hshape, -, hr⟩ | ⟨-, hr⟩ | ⟨_, _, _, -, -, hr⟩
  · obtain rfl : n = x := Option.some.inj (Except.ok.inj hr)
    refine ⟨.loop f text hshape hsucc, .again fun hnew ↦ ?_, h.mem, rfl⟩
    rw [hnew] at hsucc
    exact hsucc.elim nofun nofun
  · obtain ⟨hnm, hnw, hnext⟩ := hst.step?_bind h.mem (Except.ok.inj hr).symm
    have hx := hst.keyed.step?_iff.2 ⟨h.mem, rfl⟩
    refine ⟨.arrival fun hG ↦ ?_, .next x hx hnw.symm hnext hsucc, hnm, hnw⟩
    rw [hnw] at hG
    have hchain := hst.chainStands h.mem hG
    have hcs := hst.keyed.nodup_chainOf x.workflowInstanceUid
    have hx : x ∈ s.tables.chainOf x.workflowInstanceUid := Store.Tables.mem_chainOf.2 ⟨h.mem, rfl⟩
    rcases finds_nextStep_of_selfGuided (hchain.guided x hx)
      hn with ⟨hr', -⟩ | ⟨-, hs⟩ | ⟨⟨_, he⟩, -⟩
    · -- A step does not name itself as the next one.
      obtain rfl : n = x := Option.some.inj (Except.ok.inj hr')
      exact absurd hnext (hchain.linked.next_ne hcs hx)
    · exact (h.standing hG).new_next hx hcs hchain.linked ⟨hsucc, hs⟩
        (Store.Tables.mem_chainOf.2 ⟨hnm, hnw⟩) hnext
    · cases he
  · cases hr

theorem does_leave (hR : Guiding R G) (hsucc : x.runStatus = .completed ∨ x.runStatus = .skipped) :
    Does R setup G o s₀ (fun _ s ↦ Leaving G s x) (setup.advance x) fun _ _ _ ↦ True := by
  rw [advance_of_success hsucc]
  refine .look (.attempt (reads_nextStep x).idles) (lasts_of_scene _) fun found ↦ ?_
  have hfails : ∀ {r} (step reason : String), Does R setup G o s₀
      (fun _ s ↦ Leaving G s x ∧ Runs R (Action.attempt (nextStep x)) s r s)
      (setup.fail x.workflowInstanceUid .failed step reason) fun _ _ _ ↦ True :=
    fun _ _ ↦ does_fail (.inl rfl) _ _ fun _ _ hd h ↦ h.1.holdsNothing hd.sound
  rcases found with e | _ | n
  · exact .ite (fun _ ↦ hfails _ _) fun _ ↦ .throw _
  · refine .ite (fun _ ↦ does_terminate (.completed _) fun log s q hd h hq ↦ ?_) fun _ ↦ hfails _ _
    obtain ⟨_, hnone, ho⟩ := runs_attempt.1 h.2
    rw [← Except.ok.inj ho] at hnone
    exact h.1.concludes hd.sound hsucc ((reads_nextStep x).of_runs hnone).1 hq
  · refine (does_launchStep hR).mono (fun log s hd h ↦ ?_) fun _ _ _ h ↦ h
    obtain ⟨hleaving, hread⟩ := h
    obtain ⟨_, hnext, ho⟩ := runs_attempt.1 hread
    rw [← Except.ok.inj ho] at hnext
    have hnext := ((reads_nextStep x).of_runs hnext).1
    obtain ⟨hwhy, hreached, hnm, hnw⟩ := hleaving.leavable.occasion hd.sound hsucc hnext
    obtain ⟨q, hq, hgoes⟩ := hleaving.run
    obtain ⟨ds, hst, -⟩ := hd.sound.standing
    have hn := hd.sound.keyed.step?_iff.2 ⟨hnm, rfl⟩
    exact ⟨⟨⟨n, q, hn, hnw ▸ hq, hgoes, hwhy, hreached⟩,
      hleaving.leavable.launchable_next hst hsucc hnext⟩, hn⟩

/-- A step that has failed is granted a repetition and may be launched again, or has none left. -/
theorem does_decrementRetry (hfailed : x.runStatus = .failed ∨ x.runStatus = .timedOut) :
    Does R setup G o s₀ (fun log s ↦ Leaving G s x ∧ Quiet log)
      (Action.store (.decrementRetry x.uid)) fun granted log s ↦
        HoldsNothing x.workflowInstanceUid s ∧ (granted = true → Called G log s x.uid) := by
  intro log s l r s' hd ⟨hleaving, hquiet⟩ h
  obtain ⟨q, hq, hgoes⟩ := hleaving.run
  obtain ⟨ds, hst, hds⟩ := hd.sound.standing
  have hans : s.tables.answer (.decrementRetry x.uid) =
      (.ok (Store.Tables.withRetryUsed x).1, s.tables.putStep (Store.Tables.withRetryUsed x).2) :=
    Store.Tables.onStep_of_some hleaving.known _
  obtain ⟨hstand, hl⟩ := (hleaving.leavable.launchable_self hst hfailed).prepared ⟨ds, hst, hds⟩
    (c := .decrementRetry x.uid) Store.Tables.withRetryUsed rfl
      (fun y ↦ (sameStep_withRetryUsed y).1)
    (fun y ↦ (sameStep_withRetryUsed y).2.1) fun y ↦ (sameStep_withRetryUsed y).2.2
  obtain ⟨rfl, hr, -, rfl⟩ := logs_store.1 h
  have hafter : s.afterStore (.decrementRetry x.uid) =
      { s with tables := s.tables.putStep (Store.Tables.withRetryUsed x).2 } := by
    simp only [Scene.afterStore, hans, Scene.madeBy, List.append_nil]
  rw [hans] at hr
  subst hr
  rw [hafter] at hstand hl ⊢
  by_cases hleft : x.retryCount ≤ 0
  · have hused : Store.Tables.withRetryUsed x = (false, x) := if_pos hleft
    rw [hused] at hstand hl ⊢
    rw [hst.keyed.putStep_self hleaving.leavable.mem]
    exact ⟨.more hd (.refuse q x hleaving.known hq hgoes hfailed hleft fun m hm ↦
        hquiet m hm x.uid) hd.sound,
      fun _ hg ↦ ⟨hd.sound.holdsNothing hq hgoes, fun hyes ↦
        (by cases (Except.ok.inj hg).trans hyes)⟩⟩
  · have hused : Store.Tables.withRetryUsed x =
        (true, { x with retryCount := x.retryCount - 1 }) := if_neg hleft
    rw [hused] at hstand hl ⊢
    have hgrant := Deeds.more hd (.grant q x hleaving.known hq hgoes hfailed (by omega)
      fun m hm ↦ hquiet m hm x.uid) ⟨hstand, hd.sound.clean.putStep _⟩
    refine ⟨hgrant, fun _ _ ↦ ⟨hgrant.sound.holdsNothing hq hgoes, fun _ ↦
      ⟨⟨{ x with retryCount := x.retryCount - 1 }, q, ?_, hq, hgoes,
      .retry hfailed ⟨_, List.mem_append_right _ (List.mem_singleton_self _),
        beq_self_eq_true x.uid⟩ fun m hm ↦ ?_, .again fun hnew ↦ ?_⟩, hl⟩⟩⟩
    · exact hst.keyed.step?_putStep hleaving.known rfl rfl
    · rcases List.mem_append.1 hm with hm | hm
      · exact (hquiet m hm x.uid).2
      · rw [List.mem_singleton.1 hm]
        rfl
    · rw [show x.runStatus = .new from hnew] at hfailed
      rcases hfailed with h | h <;> cases h

theorem does_retry (hR : Guiding R G) (hfailed : x.runStatus = .failed ∨ x.runStatus = .timedOut) :
    Does R setup G o s₀ (fun log s ↦ Leaving G s x ∧ Quiet log) (setup.retry x)
      fun _ _ _ ↦ True := by
  refine .bind (does_decrementRetry hfailed) fun granted ↦ ?_
  cases granted with
  | false => exact does_fail (hfailed.imp_right .inl) _ _ fun _ _ _ h ↦ h.1
  | true =>
    refine .look (reads_readStep _).idles ?_ fun y ↦ ?_
    · exact fun _ _ _ hl h ↦ ⟨h.1, fun hyes ↦ lasts_called G x.uid hl (h.2 hyes)⟩
    · refine (does_launchStep hR).mono (fun log s _ h ↦ ?_) fun _ _ _ h ↦ h
      have hy := runs_readStep h.2
      rw [(Store.Tables.mem_of_step? hy).2]
      exact ⟨h.1.2 rfl, hy⟩

/-- **To move on from a step consists of deeds.** -/
theorem does_advance (hR : Guiding R G) :
    Does R setup G o s₀ (fun log s ↦ Leaving G s x ∧ Quiet log) (setup.advance x)
      fun _ _ _ ↦ True := by
  cases hstatus : x.runStatus with
  | completed => exact (does_leave hR (.inl hstatus)).mono (fun _ _ _ h ↦ h.1) fun _ _ _ h ↦ h
  | skipped => exact (does_leave hR (.inr hstatus)).mono (fun _ _ _ h ↦ h.1) fun _ _ _ h ↦ h
  | failed =>
    rw [Setup.advance, hstatus]
    exact does_retry hR (.inl hstatus)
  | timedOut =>
    rw [Setup.advance, hstatus]
    exact does_retry hR (.inr hstatus)
  | canceled =>
    rw [Setup.advance, hstatus]
    exact does_fail (.inr (.inr (.inl rfl))) _ _ fun _ _ hd h ↦ h.1.holdsNothing hd.sound
  | failedWithTerminalError =>
    rw [Setup.advance, hstatus]
    exact does_fail (.inr (.inr (.inr rfl))) _ _ fun _ _ hd h ↦ h.1.holdsNothing hd.sound
  | new | deployingFunctions | running | paused | completedWithErrors | stopped =>
    rw [Setup.advance, hstatus]
    exact .throw _

/-! ## Results -/

theorem does_hold {step : Uid} :
    Does R setup G o s₀
      (fun _ s ↦ (∃ q, s.tables.run? run = some q ∧ q.runStatus = .paused) ∧
        (∃ x, s.tables.step? step = some x ∧ x.workflowInstanceUid = run) ∧
        (G run → Open (s.tables.chainOf run) step))
      (Setup.hold run step) fun _ _ _ ↦ True := by
  intro log s l r s' hd ⟨⟨q, hq, hpaused⟩, ⟨x, hx, hown⟩, hopen⟩ h
  refine ⟨?_, fun _ _ ↦ trivial⟩
  obtain ⟨hqm, rfl⟩ := Store.Tables.mem_of_run? hq
  obtain ⟨hxm, rfl⟩ := Store.Tables.mem_of_step? hx
  have hstand : Standing setup G s' := by
    refine runs_hold hd.sound.standing (fun p hp ↦ ?_) ⟨x, hxm, rfl, hown⟩ hopen h.runs
    obtain rfl := Option.some.inj (hq.symm.trans hp)
    exact hpaused
  have hans : s.tables.answer (.setHeldStep q.uid (some x.uid)) =
      (.ok (), s.tables.putRun { q with heldStepInstanceUid := some x.uid }) :=
    Store.Tables.onRun_of_some hq _
  obtain ⟨rfl, hr, -, rfl⟩ := logs_store.1 h
  have hafter : s.afterStore (.setHeldStep q.uid (some x.uid)) =
      { s with tables := s.tables.putRun { q with heldStepInstanceUid := some x.uid } } := by
    simp only [Scene.afterStore, hans, Scene.madeBy, List.append_nil]
  rw [hans] at hr
  subst hr
  rw [hafter] at hstand ⊢
  have hgoes : q.runStatus.isTerminal = false := by rw [hpaused]; rfl
  exact .more hd (.hold q x hq hpaused hx hown)
    ⟨hstand, hd.sound.clean.putRun_of_same hqm hgoes ⟨rfl, rfl⟩ fun h ↦ absurd hpaused h.2⟩

theorem does_applyStepResult {m : StepResult} {time : Instant} {expected : Int}
    (ho : o = .result m) (hu : x.uid = m.stepInstanceId) :
    Does R setup G o s₀ (fun log s ↦ s.tables.step? x.uid = some x ∧ s = s₀ ∧ Quiet log)
      (Action.store (.applyStepResult x.uid (updateOf m time expected))) fun applied log s ↦
        Quiet log ∧ (applied = false → s.tables.step? x.uid = some x) ∧
          (applied = true → ∀ y, s.tables.step? x.uid = some y → Answered G s.tables y) := by
  intro log s l r s' hd ⟨hx, hfirst, hquiet⟩ h
  obtain ⟨rfl, hr, -, rfl⟩ := logs_store.1 h
  have hstill : Quiet
      (log ++ [⟨s, .store (.applyStepResult x.uid (updateOf m time expected)), r⟩]) := by
    intro m' hm u
    rcases List.mem_append.1 hm with hm | hm
    · exact hquiet m' hm u
    · rw [List.mem_singleton.1 hm]
      exact ⟨rfl, rfl⟩
  by_cases hok : (s.tables.answer (.applyStepResult x.uid (updateOf m time expected))).1 = .ok true
  · obtain ⟨y, hy, hrunning, hcount, htables⟩ := Store.Tables.answer_accepted hok
    obtain rfl := Option.some.inj (hx.symm.trans hy)
    obtain ⟨ds, hst, hds⟩ := hd.sound.standing
    have hafter : s.afterStore (.applyStepResult x.uid (updateOf m time expected)) =
        { s with
          tables :=
            s.tables.putStep (Store.Tables.withResult (updateOf m time expected) x).2 } := by
      simp only [Scene.afterStore, htables, Scene.madeBy, List.append_nil]
    have hsame := sameStep_withResult (updateOf m time expected) x
    have hput := hst.keyed.step?_putStep hx hsame.uid hsame.run
    have hanswered : ∀ y, (s.tables.answer
        (.applyStepResult x.uid (updateOf m time expected))).2.step? x.uid = some y →
        Stands G (s.tables.answer (.applyStepResult x.uid (updateOf m time expected))).2 s.issued
          ds ∧ Answered G
            (s.tables.answer (.applyStepResult x.uid (updateOf m time expected))).2 y :=
      fun y hy ↦ hst.answered hok hy
    rw [htables] at hanswered
    rw [hafter, hr.trans hok]
    exact ⟨.more hd (.record m x time expected hfirst ho hu hx hrunning hcount)
      ⟨⟨ds, (hanswered _ hput).1, hds⟩, hd.sound.clean.putStep _⟩, fun applied happlied ↦
        ⟨hr.trans hok ▸ hstill, fun hno ↦ (by cases (Except.ok.inj happlied).trans hno),
          fun _ y hy ↦ (hanswered y hy).2⟩⟩
  · have hsame : s.afterStore (.applyStepResult x.uid (updateOf m time expected)) = s := by
      show { s with
        tables := (s.tables.answer (.applyStepResult x.uid (updateOf m time expected))).2
        made := s.made ++ [] } = s
      rw [hd.sound.keyed.answer_refused hok, List.append_nil]
    rw [hsame]
    refine ⟨hd.idle fun m' hm ↦ ?_, fun applied happlied ↦ ⟨hstill, fun _ ↦ hx, fun hyes ↦ ?_⟩⟩
    · rw [List.mem_singleton.1 hm]
      exact ⟨rfl, fun ha ↦ hok (hr.symm.trans ha)⟩
    · rw [happlied, hyes] at hr
      exact absurd hr.symm hok

theorem does_applyResult {m : StepResult} (ho : o = .result m) (hu : x.uid = m.stepInstanceId) :
    Does R setup G o s₀ (fun log s ↦ s.tables.step? x.uid = some x ∧ s = s₀ ∧ Quiet log)
      (applyResult x m) fun applied log s ↦ Quiet log ∧
        (applied = none → s.tables.step? x.uid = some x) ∧
        ∀ y, applied = some y → s.tables.step? y.uid = some y ∧ Answered G s.tables y := by
  have hlasts : Lasts fun log s ↦ s.tables.step? x.uid = some x ∧ s = s₀ ∧ Quiet log :=
    (lasts_of_scene _).and ((lasts_of_scene _).and lasts_quiet)
  unfold applyResult
  cases expectedRunCount x m with
  | none =>
    refine (Does.of_idles (.pure none) hlasts).mono (fun _ _ _ h ↦ h) fun applied log s h ↦ ?_
    obtain rfl := Except.ok.inj (runs_pure.1 h.2).1
    exact ⟨h.1.2.2, fun _ ↦ h.1.1, fun y hy ↦ nomatch hy⟩
  | some expected =>
    refine .bind (.past (.now rfl) hlasts) fun time ↦
      .bind (does_applyStepResult ho hu) fun applied ↦ ?_
    cases applied with
    | false =>
      refine (Does.of_idles (.pure none) ?_).mono (fun _ _ _ h ↦ h) fun applied log s h ↦ ?_
      · exact lasts_quiet.and (lasts_of_scene _)
      · obtain rfl := Except.ok.inj (runs_pure.1 h.2).1
        exact ⟨h.1.1, fun _ ↦ h.1.2.1 rfl, fun y hy ↦ nomatch hy⟩
    | true =>
      have hlasts' : Lasts fun log s ↦ Quiet log ∧ (true = false → s.tables.step? x.uid = some x) ∧
          (true = true → ∀ y, s.tables.step? x.uid = some y → Answered G s.tables y) :=
        lasts_quiet.and (lasts_of_scene _)
      refine .bind (.past (idles_announceStep _ _) hlasts') fun _ ↦
        .look (reads_readStep _).idles hlasts' fun y ↦ ?_
      refine (Does.of_idles (.pure (some y)) (hlasts'.and (lasts_of_scene _))).mono
        (fun _ _ _ h ↦ h) fun applied log s h ↦ ?_
      obtain ⟨⟨⟨hquiet, -, hanswered⟩, hread⟩, hpure⟩ := h
      obtain rfl := Except.ok.inj (runs_pure.1 hpure).1
      have hy := runs_readStep hread
      refine ⟨hquiet, fun hno ↦ (nomatch hno), fun z hz ↦ ?_⟩
      obtain rfl := Option.some.inj hz
      exact ⟨(Store.Tables.mem_of_step? hy).2 ▸ hy, hanswered rfl _ hy⟩

/-- A run that is neither at its end nor paused, and has begun, is under way. -/
theorem leaving_of_run (hs : Sound setup G s) (hx : s.tables.step? x.uid = some x)
    {q : WorkflowInstance} (hq : s.tables.run? x.workflowInstanceUid = some q) (hgoes : GoesOn q)
    (hbegun : G x.workflowInstanceUid → q.runStatus ≠ .new ∧ q.runStatus ≠ .deployingFunctions)
    (hopen : G x.workflowInstanceUid →
      Open (s.tables.chainOf x.workflowInstanceUid) x.uid) : Leaving G s x := by
  refine ⟨hx, ⟨q, hq, hgoes⟩, (Store.Tables.mem_of_step? hx).1, hopen, fun hG r hr hu ↦ ?_⟩
  obtain ⟨hqm, hqu⟩ := Store.Tables.mem_of_run? hq
  obtain rfl := hs.keyed.eq_of_run hr hqm (hu.trans hqu.symm)
  exact ⟨(hbegun hG).1, (hbegun hG).2, hgoes.2⟩

theorem does_processRepeated (hR : Guiding R G) {m : StepResult} :
    Does R setup G o s₀ (fun log s ↦ s.tables.step? x.uid = some x ∧ Quiet log)
      (setup.processRepeated x m) fun _ _ _ ↦ True := by
  have hlasts : Lasts fun log s ↦ s.tables.step? x.uid = some x ∧ Quiet log :=
    (lasts_of_scene _).and lasts_quiet
  refine .ite (fun _ ↦ ?_) fun _ ↦ .pure _
  refine .look (reads_readRun _).idles hlasts fun q ↦ ?_
  have hlasts' : Lasts fun log s ↦ (s.tables.step? x.uid = some x ∧ Quiet log) ∧
      Runs R (readRun x.workflowInstanceUid) s (.ok q) s := hlasts.and (lasts_of_scene _)
  have hunfollowed : ∀ {s}, Runs R (awaitsFollowUp x) s (.ok true) s → Unfollowed s.tables x :=
    fun h ↦ finds_awaitsFollowUp.1 ((reads_awaitsFollowUp x).of_runs h).1
  dsimp only
  split
  · next hrunning =>
    refine .look (reads_awaitsFollowUp x).idles hlasts' fun waits ↦
      .ite (fun hyes ↦ ?_) fun _ ↦ .pure _
    refine (does_advance hR).mono (fun log s hd h ↦ ?_) fun _ _ _ h ↦ h
    obtain ⟨⟨⟨hx, hquiet⟩, hread⟩, hwaits⟩ := h
    rw [hyes] at hwaits
    obtain ⟨ds, hst, -⟩ := hd.sound.standing
    refine ⟨leaving_of_run hd.sound hx (runs_readRun hread)
      ⟨by rw [hrunning]; rfl, by simp [hrunning]⟩ (fun _ ↦ by simp [hrunning]) fun hG ↦ ?_, hquiet⟩
    exact hst.open_of_unfollowed (Store.Tables.mem_of_step? hx).1 hG (hunfollowed hwaits)
  · next hpaused =>
    refine .look (reads_awaitsFollowUp x).idles hlasts' fun waits ↦
      .ite (fun hyes ↦ ?_) fun _ ↦ .pure _
    refine does_hold.mono (fun log s hd h ↦ ?_) fun _ _ _ h ↦ h
    obtain ⟨⟨⟨hx, -⟩, hread⟩, hwaits⟩ := h
    rw [hyes] at hwaits
    have hq := runs_readRun hread
    have hqu := (Store.Tables.mem_of_run? hq).2
    obtain ⟨ds, hst, -⟩ := hd.sound.standing
    refine ⟨⟨q, hqu ▸ hq, hpaused⟩, ⟨x, hx, hqu.symm⟩, fun hG ↦ ?_⟩
    rw [hqu] at hG ⊢
    exact hst.open_of_unfollowed (Store.Tables.mem_of_step? hx).1 hG (hunfollowed hwaits)
  · exact .pure _
  · next hrunning hpaused hstopped =>
    refine .ite (fun hended ↦ ?_) fun _ ↦ .pure _
    intro log s l r s' hd ⟨_, hread⟩ h
    refine ⟨?_, fun _ _ ↦ trivial⟩
    have hq := runs_readRun hread
    rw [← (Store.Tables.mem_of_run? hq).2] at hq
    obtain ⟨l₁, told, rfl, hl₁, htold⟩ := logs_reportToParent rfl rfl h
    have hd₁ := hd.idle fun m hm ↦ ⟨(hl₁ m hm).1, Moment.idle_of_isIdle (hl₁ m hm).2⟩
    have hsound : Sound setup G s' := by
      refine ⟨keeps_reportToParent _ _ _ _ hd.sound.standing h.runs, ?_⟩
      rw [htold.tables.1]
      exact hd.sound.clean
    rw [← List.append_assoc]
    exact .more hd₁ (.again q told s' hq hended hstopped htold) hsound

/-- **To handle a result consists of deeds**, whatever the result says and however often it
comes. -/
theorem does_processResult (hR : Guiding R G) {m : StepResult} (ho : o = .result m) :
    Does R setup G o s₀ (fun log s ↦ s = s₀ ∧ Quiet log) (setup.processResult m)
      fun _ _ _ ↦ True := by
  refine .look (reads_readStep _).idles ((lasts_of_scene _).and lasts_quiet) fun x ↦ ?_
  have hstart : ∀ {log s}, (s = s₀ ∧ Quiet log) ∧ Runs R (readStep m.stepInstanceId) s (.ok x) s →
      (s.tables.step? x.uid = some x ∧ s = s₀ ∧ Quiet log) ∧ x.uid = m.stepInstanceId := by
    rintro log s ⟨hquiet, hread⟩
    have hx := runs_readStep hread
    have hu := (Store.Tables.mem_of_step? hx).2
    exact ⟨⟨hu ▸ hx, hquiet⟩, hu⟩
  by_cases hu : x.uid = m.stepInstanceId
  · refine .bind ((does_applyResult ho hu).mono (fun _ _ _ h ↦ (hstart h).1) fun _ _ _ h ↦ h)
      fun applied ↦ ?_
    cases applied with
    | none =>
      exact (does_processRepeated hR).mono (fun _ _ _ h ↦ ⟨h.2.1 rfl, h.1⟩) fun _ _ _ h ↦ h
    | some y =>
      refine .look (reads_readRun _).idles (lasts_quiet.and (lasts_of_scene _)) fun q ↦ ?_
      have hrun : ∀ {s : Scene}, Runs R (readRun y.workflowInstanceUid) s (.ok q) s →
          s.tables.run? y.workflowInstanceUid = some q ∧ q.uid = y.workflowInstanceUid :=
        fun h ↦ ⟨runs_readRun h, (Store.Tables.mem_of_run? (runs_readRun h)).2⟩
      refine .ite (fun _ ↦ .pure _) fun hgoes ↦ .ite (fun hpaused ↦ ?_) fun hpaused ↦ ?_
      · refine does_hold.mono (fun log s _ h ↦ ?_) fun _ _ _ h ↦ h
        obtain ⟨⟨hquiet, -, hy⟩, hread⟩ := h
        obtain ⟨hq, hqu⟩ := hrun hread
        refine ⟨⟨q, hqu ▸ hq, hpaused⟩, ⟨y, (hy y rfl).1, hqu.symm⟩, fun hG ↦ ?_⟩
        rw [hqu] at hG ⊢
        exact .inl ((hy y rfl).2.standing hG)
      · refine (does_advance hR).mono (fun log s hd h ↦ ?_) fun _ _ _ h ↦ h
        obtain ⟨⟨hquiet, -, hy⟩, hread⟩ := h
        obtain ⟨hq, hqu⟩ := hrun hread
        exact ⟨leaving_of_run hd.sound (hy y rfl).1 hq ⟨by simpa using hgoes, hpaused⟩
          (fun hG ↦ (hy y rfl).2.begun hG q (Store.Tables.mem_of_run? hq).1 hqu)
          fun hG ↦ .inl ((hy y rfl).2.standing hG), hquiet⟩
  · -- The step that is read is the one that the result names.
    intro log s l r s' _ h
    exact absurd (hstart h).2 hu

end Engine

end Orchestration
