import Orchestration.Proofs.DeedTriples
import Orchestration.Proofs.LaunchOutcome
import Orchestration.Proofs.Orderly
import Orchestration.Proofs.Pausing
import Orchestration.Proofs.Recording

/-!
# Resumptions that fail

A resumption moves its run on, takes away what the run holds, and only then leaves the step that was
held. Leaving a step may fail in many ways, as when a catalog or the queue cannot be reached. What
has been done by then is not undone.

So a resumption that fails never leaves its run paused (`failed_resume_cases`). The run was not
paused before, and nothing has happened; or it has come to its end; or it is abandoned: it runs, but
the step that it held has not been left, or not altogether, and nothing in the store says so. The
result of that step has been acknowledged long before, the resumption cannot be repeated, since the
run is not paused any more, and to pause and resume the run once again makes nobody leave the step
either (`retriable_iff_not_abandoned`).
-/

namespace Orchestration

namespace Engine

variable {R : Rule} {setup : Setup} {s s' : Scene} {x : StepInstance}
  {q : WorkflowInstance} {u : Uid} {r : Except EngineError Unit} {e : EngineError}

/-! ## What leaving a step does to its run -/

theorem exists_run_of_leavable {G : Uid → Prop} (hs : Standing setup G s)
    (hx : Leavable G s.tables x) : ∃ q, s.tables.run? x.workflowInstanceUid = some q := by
  obtain ⟨ds, hst, -⟩ := hs
  obtain ⟨q, hq, hqu⟩ := hst.keyed.owned x hx.mem
  exact ⟨q, hst.keyed.run?_iff.2 ⟨hq, hqu⟩⟩

theorem run_leave (hs : Standing setup (fun _ ↦ False) s) (hx : Leavable (fun _ ↦ False) s.tables x)
    (hsucc : x.runStatus = .completed ∨ x.runStatus = .skipped)
    (h : Runs R (setup.advance x) s r s') :
    s'.tables.run? x.workflowInstanceUid = s.tables.run? x.workflowInstanceUid ∨
      IsEnded s'.tables x.workflowInstanceUid := by
  have hrun := exists_run_of_leavable hs hx
  obtain ⟨ds, hst, hds⟩ := hs
  rw [advance_of_success hsucc] at h
  obtain ⟨o, hnext⟩ := reads_nextStep x s.tables
  have hrest := Finds.next (finds_attempt.2 ⟨o, hnext, rfl⟩) h
  rcases o with e | _ | n
  · rw [goOn] at hrest
    split at hrest
    · exact .inr (isEnded_of_terminate hst.keyed hrun rfl hrest)
    · rw [(runs_throw.1 hrest).2]
      exact .inl rfl
  · rw [goOn] at hrest
    split at hrest
    · exact .inr (isEnded_of_terminate hst.keyed hrun rfl hrest)
    · exact .inr (isEnded_of_terminate hst.keyed hrun rfl hrest)
  · obtain ⟨hn, hown⟩ := hst.own_next hx.mem hnext
    rw [← hown] at hrun ⊢
    exact run_launchStep ⟨ds, hst, hds⟩ (hst.keyed.step?_iff.2 ⟨hn, rfl⟩) hrun hrest

theorem run_retry (hs : Standing setup (fun _ ↦ False) s) (hx : Leavable (fun _ ↦ False) s.tables x)
    (hfailed : x.runStatus = .failed ∨ x.runStatus = .timedOut)
    (h : Runs R (setup.retry x) s r s') :
    s'.tables.run? x.workflowInstanceUid = s.tables.run? x.workflowInstanceUid ∨
      IsEnded s'.tables x.workflowInstanceUid := by
  have hrun := exists_run_of_leavable hs hx
  obtain ⟨ds, hst, hds⟩ := hs
  have hstep : s.tables.step? x.uid = some x := hst.keyed.step?_iff.2 ⟨hx.mem, rfl⟩
  have hsame := (sameStep_withRetryUsed x).1
  obtain ⟨hs₁, -⟩ := (hx.launchable_self hst hfailed).prepared ⟨ds, hst, hds⟩
    (c := .decrementRetry x.uid) Store.Tables.withRetryUsed rfl
      (fun y ↦ (sameStep_withRetryUsed y).1)
    (fun y ↦ (sameStep_withRetryUsed y).2.1) fun y ↦ (sameStep_withRetryUsed y).2.2
  have htables : (s.afterStore (.decrementRetry x.uid)).tables =
      s.tables.putStep (Store.Tables.withRetryUsed x).2 :=
    congrArg Prod.snd (Store.Tables.onStep_of_some hstep _)
  have hkept : (s.afterStore (.decrementRetry x.uid)).tables.run? x.workflowInstanceUid =
      s.tables.run? x.workflowInstanceUid := congrArg (·.run? x.workflowInstanceUid) htables
  rw [← hkept] at hrun ⊢
  rcases runs_bind.1 h with ⟨e, h₁, -⟩ | ⟨left, s₁, h₁, hrest⟩
  · obtain ⟨-, -, rfl⟩ := runs_store.1 h₁
    exact .inl rfl
  obtain ⟨-, -, rfl⟩ := runs_store.1 h₁
  cases left with
  | false =>
    have hterminal : x.runStatus.isTerminal = true := by
      rcases hfailed with hf | hf <;> rw [hf] <;> rfl
    rw [if_neg Bool.false_ne_true] at hrest
    exact .inr (isEnded_of_terminate hs₁.named.keyed hrun hterminal hrest)
  | true =>
    rcases runs_bind.1 hrest with ⟨e, h₂, -⟩ | ⟨y, s₂, h₂, hlaunch⟩
    · rw [still_readStep _ h₂]
      exact .inl rfl
    · rw [still_readStep _ h₂] at hlaunch h₂
      have hy := runs_readStep h₂
      have hown : y.workflowInstanceUid = x.workflowInstanceUid := by
        rw [htables, hst.keyed.step?_putStep hstep hsame.uid hsame.run] at hy
        exact Option.some.inj hy ▸ hsame.run
      rw [← hown] at hrun ⊢
      exact run_launchStep hs₁ (hs₁.named.keyed.step?_iff.2 ⟨(Store.Tables.mem_of_step? hy).1, rfl⟩)
        hrun hlaunch

/-- **Leaving a step ends its run, or leaves the record of the run as it is**, whatever fails on the
way. -/
theorem run_advance (hs : Standing setup (fun _ ↦ False) s)
    (hx : Leavable (fun _ ↦ False) s.tables x) (h : Runs R (setup.advance x) s r s') :
    s'.tables.run? x.workflowInstanceUid = s.tables.run? x.workflowInstanceUid ∨
      IsEnded s'.tables x.workflowInstanceUid := by
  have hkeyed := hs.named.keyed
  have hrun := exists_run_of_leavable hs hx
  cases hstatus : x.runStatus with
  | completed => exact run_leave hs hx (.inl hstatus) h
  | skipped => exact run_leave hs hx (.inr hstatus) h
  | failed =>
    rw [Setup.advance, hstatus] at h
    exact run_retry hs hx (.inl hstatus) h
  | timedOut =>
    rw [Setup.advance, hstatus] at h
    exact run_retry hs hx (.inr hstatus) h
  | canceled | failedWithTerminalError =>
    rw [Setup.advance, hstatus] at h
    exact .inr (isEnded_of_terminate hkeyed hrun rfl h)
  | new | deployingFunctions | running | paused | completedWithErrors | stopped =>
    rw [Setup.advance, hstatus] at h
    rw [(runs_throw.1 h).2]
    exact .inl rfl

/-! ## Resuming a run that is not paused -/

/-- A run is paused. -/
def IsPaused (t : Store.Tables) (u : Uid) : Prop := ∃ q, t.run? u = some q ∧ q.runStatus = .paused

theorem resume_of_not_paused (ht : s.tables.Keyed) (hnot : ¬IsPaused s.tables u)
    (h : Runs R ((Operation.resume u).action setup) s r s') : s' = s := by
  have hrefused : (s.tables.answer (.updateRunStatus u .running (some .paused))).1 ≠ .ok true := by
    intro hyes
    obtain ⟨q, hq, -, hexpected, -⟩ := Store.Tables.answer_moved hyes
    exact hnot ⟨q, hq, hexpected _ rfl⟩
  rw [resume_eq] at h
  rcases runs_bind.1 h with ⟨e, h₁, -⟩ | ⟨_, s₁, h₁, -⟩
  · rw [(runs_requireMove h₁).1, afterStore_of_unmoved ht hrefused]
  · exact absurd ((runs_requireMove h₁).2.1 rfl) hrefused

theorem resume_of_running (ht : s.tables.Keyed) (hq : s.tables.run? u = some q)
    (hrunning : q.runStatus = .running) (h : Runs R ((Operation.resume u).action setup) s r s') :
    r = .error (.runNotIn u .running .paused) ∧ s' = s := by
  have hnot : ¬IsPaused s.tables u := by
    rintro ⟨p, hp, hpaused⟩
    rw [← Option.some.inj (hq.symm.trans hp), hrunning] at hpaused
    cases hpaused
  refine ⟨?_, resume_of_not_paused ht hnot h⟩
  have hanswer : s.tables.answer (.updateRunStatus u .running (some .paused)) =
      (.ok false, s.tables) := by
    show s.tables.onRun u (Store.Tables.withStatus .running (some .paused)) = _
    rw [Store.Tables.onRun_of_some hq, Store.Tables.withStatus, if_pos (by simp [hrunning]),
      ht.putRun_self (Store.Tables.mem_of_run? hq).1]
  rw [resume_eq] at h
  rcases runs_bind.1 h with ⟨e, h₁, rfl⟩ | ⟨_, s₁, h₁, -⟩
  · have hrest := (writes_writeRunStatus hanswer).next h₁
    rw [if_neg Bool.false_ne_true] at hrest
    have hthrown := (finds_readRun hq).next hrest
    rw [(runs_throw.1 hthrown).1, hrunning]
  · have hmoved := (runs_requireMove h₁).2.1 rfl
    rw [hanswer] at hmoved
    cases hmoved

/-! ## Resuming a paused run -/

/-- A run was paused and held a step; it runs now, and holds nothing. Its record is the same
otherwise. -/
def Abandoned (u : Uid) (s s' : Scene) : Prop :=
  ∃ q k, s.tables.run? u = some q ∧ q.runStatus = .paused ∧ q.heldStepInstanceUid = some k ∧
    s'.tables.run? u = some (heldRun q .running none)

theorem resume_of_unheld (ht : s.tables.Keyed) (hq : s.tables.run? u = some q)
    (hpaused : q.runStatus = .paused) (hheld : q.heldStepInstanceUid = none)
    (h : Runs R ((Operation.resume u).action setup) s r s') :
    r = .ok () ∧ s' = { s with tables := s.tables.putRun (heldRun q .running none) } := by
  obtain ⟨hmem, hqu⟩ := Store.Tables.mem_of_run? hq
  have hrun : u ∈ (s.tables.putRun (heldRun q .running none)).runs.map (·.uid) :=
    List.mem_map.2 ⟨_, Store.mem_overwrite_self hmem rfl, hqu⟩
  obtain ⟨shown, hshown⟩ := finds_state hrun
  rw [resume_eq] at h
  have hrest := (writes_requireMove hq hpaused rfl).next h
  have hrest := (writes_takeHeldStep ht hq).next hrest
  rw [hheld, Setup.release, pure_bind, showing] at hrest
  have hdone :=
    Finds.next (s := { s with tables := s.tables.putRun (heldRun q .running none) }) hshown hrest
  exact runs_pure.1 hdone

/-- **A resumption that fails has done nothing, has ended its run, or has abandoned it.** -/
theorem failed_resume_cases (h : Reachable setup anyAnswer s)
    (hrun : Runs R ((Operation.resume u).action setup) s (.error e) s') :
    (¬IsPaused s.tables u ∧ s' = s) ∨ IsEnded s'.tables u ∨ Abandoned u s s' := by
  have hsound := sound_of_reachable (guiding_nobody _) h
  have ht := hsound.keyed
  by_cases hpaused : IsPaused s.tables u
  · obtain ⟨q, hq, hstatus⟩ := hpaused
    obtain ⟨hmem, hqu⟩ := Store.Tables.mem_of_run? hq
    cases hheld : q.heldStepInstanceUid with
    | none => cases (resume_of_unheld ht hq hstatus hheld hrun).1
    | some k =>
      obtain ⟨ds, hst, hds⟩ := hsound.standing
      obtain ⟨y, hy, rfl, hown⟩ := hst.holds q hmem k hheld
      have hresumed : heldRun q .running none =
          { q with runStatus := .running, heldStepInstanceUid := none } := rfl
      obtain ⟨hst₁, hleavable⟩ := hst.resumed hmem hstatus hresumed
      have hstep : (s.tables.putRun (heldRun q .running none)).step? y.uid = some y :=
        ht.step?_iff.2 ⟨hy, rfl⟩
      -- What is held is there to be left, so that only leaving it can fail.
      obtain ⟨r₁, hrelease⟩ := runs_resume ht hq hstatus hrun
      rw [hheld] at hrelease
      have hadvance := (finds_readStep hstep).next hrelease
      have hs₁ : Standing setup (fun _ ↦ False)
          { s with tables := s.tables.putRun (heldRun q .running none) } := ⟨ds, hst₁, hds⟩
      have hcases := run_advance hs₁ (hleavable _ hheld y hstep) hadvance
      rw [hown, hqu] at hcases
      rcases hcases with hsame | hended
      · exact .inr (.inr ⟨q, y.uid, hq, hstatus, hheld, hsame.trans (ht.run?_putRun hq hqu)⟩)
      · exact .inr (.inl hended)
  · exact .inl ⟨hpaused, resume_of_not_paused ht hpaused hrun⟩

/-- A resumption that has failed can be made up for: it has done nothing to a run that was not
paused, or it has ended the run, or the run is still paused and holds what it held. -/
def Retriable (u : Uid) (s s' : Scene) : Prop :=
  (¬IsPaused s.tables u ∧ s'.tables = s.tables) ∨ IsEnded s'.tables u ∨
    ∃ q q', s.tables.run? u = some q ∧ s'.tables.run? u = some q' ∧ q'.runStatus = .paused ∧
      q'.heldStepInstanceUid = q.heldStepInstanceUid

theorem inTurn_pause_resume (ht : s.tables.Keyed) (hq : s.tables.run? u = some q)
    (hrunning : q.runStatus = .running) (hheld : q.heldStepInstanceUid = none)
    (h : InTurn setup R [.pause u, .resume u] s s') : s' = s := by
  obtain ⟨hmem, rfl⟩ := Store.Tables.mem_of_run? hq
  cases h with
  | next hpause hothers =>
    obtain rfl := runs_pause hq hrunning hheld hpause
    obtain ⟨r, hresume⟩ := inTurn_single.1 hothers
    have hpaused : (s.tables.putRun (heldRun q .paused none)).run? q.uid =
        some (heldRun q .paused none) :=
      ht.run?_putRun hq rfl
    have hback : (s.tables.putRun (heldRun q .paused none)).putRun q = s.tables.putRun q :=
      Store.Tables.putRun_putRun rfl
    rw [(resume_of_unheld (ht.putRun _) hpaused rfl rfl hresume).2]
    dsimp only
    rw [heldRun_heldRun, heldRun_self hrunning hheld, hback, ht.putRun_self hmem]

/-- **A resumption that fails can be made up for unless it abandons its run.** It never leaves the
run paused. And a run that has been abandoned stays so for all that its operator can do: to resume
it once more is refused, and to pause and resume it changes nothing, whatever the collaborators
answer. -/
theorem retriable_iff_not_abandoned (h : Reachable setup anyAnswer s)
    (hrun : Runs R ((Operation.resume u).action setup) s (.error e) s') :
    (Retriable u s s' ↔ ¬Abandoned u s s') ∧
    (Abandoned u s s' →
      (∀ r s'', Runs R ((Operation.resume u).action setup) s' r s'' →
        r = .error (.runNotIn u .running .paused) ∧ s'' = s') ∧
      ∀ s'', InTurn setup R [.pause u, .resume u] s' s'' → s'' = s') := by
  have hkeyed : s'.tables.Keyed := by
    obtain ⟨_, -, hdeeds⟩ := (sound_of_reachable (guiding_nobody _) h).deeds (guiding_nobody R) hrun
    exact hdeeds.sound.keyed
  refine ⟨⟨?_, fun hnot ↦ ?_⟩, ?_⟩
  · rintro hretriable ⟨q, k, hq, hpaused, -, hq'⟩
    rcases hretriable with ⟨hnot, -⟩ | ⟨p, hp, hended⟩ | ⟨-, p, -, hp, hstatus, -⟩
    · exact hnot ⟨q, hq, hpaused⟩
    · rw [← Option.some.inj (hq'.symm.trans hp)] at hended
      cases hended
    · rw [← Option.some.inj (hq'.symm.trans hp)] at hstatus
      cases hstatus
  · rcases failed_resume_cases h hrun with ⟨hpaused, rfl⟩ | hended | habandoned
    · exact .inl ⟨hpaused, rfl⟩
    · exact .inr (.inl hended)
    · exact absurd habandoned hnot
  · rintro ⟨q, k, -, -, -, hq'⟩
    exact ⟨fun r s'' hagain ↦ resume_of_running hkeyed hq' rfl hagain,
      fun s'' hturn ↦ inTurn_pause_resume hkeyed hq' rfl rfl hturn⟩

/-- The run of `callThenLoop` was paused before its first step was answered. -/
def holdingScene : Scene :=
  (willing.performAll queueSetup
    [.start (.ofNat 1) [] none none, .pause (World.nthUid 0), .result firstAnswer] {}).get
    (by decide +kernel)

/-- The run is resumed while the catalog of functions is out of reach. -/
def vainResumption : Except EngineError Unit × Scene :=
  (willing.withoutFunctions.perform ((Operation.resume (World.nthUid 0)).action queueSetup).run
    holdingScene).get (by decide +kernel)

theorem abandoned_of_vainResumption :
    Reachable queueSetup anyAnswer holdingScene ∧
    Runs anyAnswer ((Operation.resume (World.nthUid 0)).action queueSetup) holdingScene
      (.error outOfReach) vainResumption.2 ∧
    Abandoned (World.nthUid 0) holdingScene vainResumption.2 ∧
    ¬Retriable (World.nthUid 0) holdingScene vainResumption.2 ∧
    (∀ r s'', Runs anyAnswer ((Operation.resume (World.nthUid 0)).action queueSetup)
      vainResumption.2 r s'' → r = .error (.runNotIn (World.nthUid 0) .running .paused) ∧ s'' =
      vainResumption.2) ∧
    ∀ s'', InTurn queueSetup anyAnswer [.pause (World.nthUid 0), .resume (World.nthUid 0)]
      vainResumption.2 s'' → s'' = vainResumption.2 := by
  have hreach : Reachable queueSetup anyAnswer holdingScene :=
    (Collaborators.reachable_get _).weaken fun _ _ _ ↦ trivial
  have herror : vainResumption.1 = .error outOfReach := by rfl
  have hrun : Runs anyAnswer ((Operation.resume (World.nthUid 0)).action queueSetup) holdingScene
      (.error outOfReach) vainResumption.2 := by
    rw [← herror]
    exact Leads.weaken (fun _ _ _ ↦ trivial) (Collaborators.leads_get willing.withoutFunctions _)
  have habandoned : Abandoned (World.nthUid 0) holdingScene vainResumption.2 :=
    ⟨(holdingScene.tables.run? (World.nthUid 0)).get (by decide +kernel), World.nthUid 1,
      by decide +kernel, by decide +kernel, by decide +kernel, by decide +kernel⟩
  obtain ⟨hiff, hlasting⟩ := retriable_iff_not_abandoned hreach hrun
  exact ⟨hreach, hrun, habandoned, fun hretriable ↦ hiff.1 hretriable habandoned,
    hlasting habandoned⟩

end Engine

end Orchestration
