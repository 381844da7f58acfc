import Orchestration.Proofs.Asking
import Orchestration.Proofs.RefusedResults
import Orchestration.Proofs.Replaying

/-!
# Results that make a run go on

A result makes its run leave a step in one of two ways. It answers the attempt that the step is in
and is written, or it repeats the last result of the step while what should have followed is not
there (`Drives`). Which of the two it is, and which step is left in which records, is said by the
steps alone. What is done then depends on the run: one that is running leaves the step, and one that
is paused holds it (`Setup.goFrom`).

So whoever handles a result of a run that is running or paused finds out that the run is to leave a
step, or does nothing.
-/

namespace Orchestration

namespace Engine

variable {R : Rule} {setup : Setup} {s s' : Scene} {t t' : Store.Tables} {m : StepResult}
variable {x y : StepInstance} {q : WorkflowInstance} {r : Except EngineError Unit}

/-- A result answers the attempt that a step is in. -/
def AnswersAttempt (m : StepResult) (x : StepInstance) : Prop :=
  x.runStatus = .running ∧ ∀ a ∈ m.attempt, a = attemptOf x

/-- A result makes its run leave a step, in the records that it leaves behind. -/
inductive Drives (t : Store.Tables) (m : StepResult) : StepInstance → Store.Tables → Prop where
  /-- The result answers the attempt of its step, and is written. -/
  | answered (x : StepInstance) (time : Instant) (hx : t.step? m.stepInstanceId = some x)
      (h : AnswersAttempt m x) :
      Drives t m (answeredStep x m time) (t.putStep (answeredStep x m time))
  /-- The result repeats the last one of its step, and what should have followed is not there. -/
  | repeated (x : StepInstance) (hx : t.step? m.stepInstanceId = some x) (h : ¬AnswersAttempt m x)
      (hrepeats : repeatsLast x m = true) (hopen : Unfollowed t x) : Drives t m x t

/-- A run goes on from a step, or holds it if it is paused. -/
def Setup.goFrom (setup : Setup) (q : WorkflowInstance) (y : StepInstance) : Action Unit :=
  if q.runStatus = .paused then Setup.hold q.uid y.uid else setup.advance y

theorem refused_of_not_answersAttempt (h : ¬AnswersAttempt m x) : x.runStatus ≠ .running ∨
    ∃ attempt, m.attempt = some attempt ∧ attempt ≠ x.runCount + 1 := by
  rcases not_and_or.1 h with hidle | hattempt
  · exact .inl hidle
  · push Not at hattempt
    obtain ⟨a, ha, hne⟩ := hattempt
    exact .inr ⟨a, ha, hne⟩

theorem Unfollowed.congr (hsteps : t'.steps = t.steps) (h : Unfollowed t x) : Unfollowed t' x :=
  finds_awaitsFollowUp.1 ((readsSteps_awaitsFollowUp x).finds hsteps (finds_awaitsFollowUp.2 h))

theorem Drives.putRun (h : Drives t m y t') (p : WorkflowInstance) :
    Drives (t.putRun p) m y (t'.putRun p) := by
  have hsteps : (t.putRun p).steps = t.steps := rfl
  cases h with
  | answered x time hx h => exact .answered x time hx h
  | repeated _ hx h hrepeats hopen => exact .repeated y hx h hrepeats (hopen.congr hsteps)

theorem Drives.step? (ht : t.Keyed) (h : Drives t m y t') : t'.step? y.uid = some y := by
  cases h with
  | answered x time hx h =>
    have hself : t.step? x.uid = some x := (Store.Tables.mem_of_step? hx).2.symm ▸ hx
    exact ht.step?_putStep hself rfl rfl
  | repeated _ hx => exact (Store.Tables.mem_of_step? hx).2.symm ▸ hx

theorem Drives.keyed (ht : t.Keyed) (h : Drives t m y t') : t'.Keyed := by
  cases h with
  | answered x time hx =>
    have hrun : (answeredStep x m time).workflowInstanceUid = x.workflowInstanceUid := rfl
    exact ht.putStep (Store.Tables.mem_of_step? hx).1 hrun
  | repeated => exact ht

theorem Drives.runs (h : Drives t m y t') : t'.runs = t.runs := by
  cases h with
  | answered | repeated => rfl

/-- A step that is left belongs to the run of the step that the result is for. -/
theorem Drives.run (h : Drives t m y t') (hx : t.step? m.stepInstanceId = some x) :
    y.workflowInstanceUid = x.workflowInstanceUid := by
  cases h with
  | answered z time hz =>
    obtain rfl := Option.some.inj (hz.symm.trans hx)
    rfl
  | repeated _ hz =>
    obtain rfl := Option.some.inj (hz.symm.trans hx)
    rfl

/-! ## Taking the handling of a result apart -/

/-- A result of a run that is running or paused makes it leave a step, or nothing comes of it. -/
theorem runs_processResult_cases (ht : s.tables.Keyed)
    (hx : s.tables.step? m.stepInstanceId = some x) (hcount : x.CanCount)
    (hq : s.tables.run? x.workflowInstanceUid = some q)
    (hstatus : q.runStatus = .running ∨ q.runStatus = .paused)
    (h : Runs R (setup.processResult m) s r s') :
    (∃ y t, Drives s.tables m y t ∧ Runs R (setup.goFrom q y) { s with tables := t } r s') ∨
      (∀ y t, ¬Drives s.tables m y t) ∧ s' = s := by
  have hself : s.tables.step? x.uid = some x := (Store.Tables.mem_of_step? hx).2.symm ▸ hx
  have hrest := (finds_readStep hx).next h
  by_cases hanswers : AnswersAttempt m x
  · rcases runs_bind.1 hrest with ⟨e, h₁, -⟩ | ⟨applied, s₁, h₁, hrest⟩
    · obtain ⟨_, he, -⟩ := runs_applyResult_accepted ht hself hanswers.1 hcount hanswers.2 h₁
      cases he
    obtain ⟨time, happlied, rfl⟩ :=
      runs_applyResult_accepted ht hself hanswers.1 hcount hanswers.2 h₁
    obtain rfl := Except.ok.inj happlied
    have hread : Finds (s.tables.putStep (answeredStep x m time)) (readRun x.workflowInstanceUid)
        (.ok q) := finds_readRun hq
    have hrest := Finds.next (s := { s with tables := s.tables.putStep (answeredStep x m time) })
      hread hrest
    refine .inl ⟨_, _, .answered x time hx hanswers, ?_⟩
    rw [if_neg (by rcases hstatus with hs | hs <;> simp [hs, RunStatus.isTerminal])] at hrest
    exact hrest
  -- The store refuses the result, so the follow-up of the last one is looked for.
  rcases runs_bind.1 hrest with ⟨e, h₁, -⟩ | ⟨applied, s₁, h₁, hrest⟩
  · cases (runs_applyResult_refused ht hself (refused_of_not_answersAttempt hanswers) h₁).1
  obtain ⟨happlied, rfl⟩ :=
    runs_applyResult_refused ht hself (refused_of_not_answersAttempt hanswers) h₁
  obtain rfl := Except.ok.inj happlied
  have hclosed : ¬(repeatsLast x m = true ∧ Unfollowed s₁.tables x) →
      ∀ y t, ¬Drives s₁.tables m y t := by
    intro hno y t hdrives
    cases hdrives with
    | answered z time hz hyes =>
      obtain rfl := Option.some.inj (hx.symm.trans hz)
      exact hanswers hyes
    | repeated _ hz _ hrepeats hopen =>
      obtain rfl := Option.some.inj (hx.symm.trans hz)
      exact hno ⟨hrepeats, hopen⟩
  have hrest : Runs R (setup.processRepeated x m) s₁ r s' := hrest
  unfold Setup.processRepeated at hrest
  by_cases hrepeats : repeatsLast x m = true
  swap
  · rw [if_neg hrepeats] at hrest
    exact .inr ⟨hclosed fun hboth ↦ hrepeats hboth.1, (runs_pure.1 hrest).2⟩
  rw [if_pos hrepeats] at hrest
  have hrest := (finds_readRun hq).next hrest
  have hgo : Runs R (awaitsFollowUp x >>= fun awaits ↦
      if awaits then setup.goFrom q x else pure ()) s₁ r s' := by
    unfold Setup.goFrom
    rcases hstatus with hs | hs
    · rw [hs] at hrest ⊢
      exact hrest
    · rw [hs] at hrest ⊢
      exact hrest
  obtain ⟨o, ho⟩ := reads_awaitsFollowUp x s₁.tables
  have hunopen : o ≠ .ok true → ¬(repeatsLast x m = true ∧ Unfollowed s₁.tables x) :=
    fun hne hboth ↦ hne (ho.unique (finds_awaitsFollowUp.2 hboth.2))
  rcases o with e | _ | _
  · exact .inr ⟨hclosed (hunopen (by simp)), (ho.fails hgo).2⟩
  · have hdone : Runs R (pure ()) s₁ r s' := ho.next hgo
    exact .inr ⟨hclosed (hunopen (by simp)), (runs_pure.1 hdone).2⟩
  · exact .inl ⟨x, s₁.tables, .repeated x hx hanswers hrepeats (finds_awaitsFollowUp.1 ho),
      ho.next hgo⟩

/-! ## Putting the handling of a result together -/

namespace Lenient

variable (hR : Lenient R)

include hR

theorem applied_none (ht : s.tables.Keyed) (hx : s.tables.step? x.uid = some x)
    (h : ¬AnswersAttempt m x) : Runs R (applyResult x m) s (.ok none) s := by
  have hfeasible : ∃ r s', Runs R (applyResult x m) s r s' := by
    unfold applyResult
    cases expectedRunCount x m with
    | none => exact ⟨_, _, runs_pure.2 ⟨rfl, rfl⟩⟩
    | some expected =>
      refine (Feasible.bind (R := R) (fun s ↦ ⟨_, s, hR.told default⟩) fun time ↦ .bind
        (fun s ↦ ⟨_, _, runs_store.2 ⟨rfl, hR.store _ _, rfl⟩⟩) fun applied ↦ ?_) s
      split
      · exact .bind (fun s ↦ ⟨_, s, hR.announced _⟩) fun _ ↦
          .bind ((reads_readStep _).feasible hR.store) fun _ ↦ .pure _
      · exact .pure _
  obtain ⟨r, s', hrun⟩ := hfeasible
  obtain ⟨rfl, rfl⟩ := runs_applyResult_refused ht hx (refused_of_not_answersAttempt h) hrun
  exact hrun

theorem driven (ht : s.tables.Keyed) (hx : s.tables.step? m.stepInstanceId = some x)
    (hcount : x.CanCount) (hq : s.tables.run? x.workflowInstanceUid = some q)
    (hstatus : q.runStatus = .running ∨ q.runStatus = .paused) (hdrives : Drives s.tables m y t)
    (h : Runs R (setup.goFrom q y) { s with tables := t } r s') :
    Runs R (setup.processResult m) s r s' := by
  have hself : s.tables.step? x.uid = some x := (Store.Tables.mem_of_step? hx).2.symm ▸ hx
  refine hR.found (finds_readStep hx) ?_
  cases hdrives with
  | answered z time hz hanswers =>
    obtain rfl := Option.some.inj (hx.symm.trans hz)
    refine (hR.applied ht hself hanswers.1 hcount hanswers.2 time).andThen ?_
    have hread : Finds (s.tables.putStep (answeredStep x m time)) (readRun x.workflowInstanceUid)
        (.ok q) := finds_readRun hq
    refine hR.found hread ?_
    rw [if_neg (by rcases hstatus with hs | hs <;> simp [hs, RunStatus.isTerminal])]
    exact h
  | repeated _ hz hanswers hrepeats hopen =>
    obtain rfl := Option.some.inj (hx.symm.trans hz)
    refine (hR.applied_none ht hself hanswers).andThen ?_
    show Runs R (setup.processRepeated x m) s r s'
    unfold Setup.processRepeated
    rw [if_pos hrepeats]
    refine hR.found (finds_readRun hq) ?_
    unfold Setup.goFrom at h
    have hawaits := finds_awaitsFollowUp.2 hopen
    rcases hstatus with hs | hs
    · rw [hs] at h ⊢
      exact hR.found hawaits h
    · rw [hs] at h ⊢
      exact hR.found hawaits h

/-- A result that makes its run leave no step may be handled without any effect. -/
theorem undriven (ht : s.tables.Keyed) (hx : s.tables.step? m.stepInstanceId = some x)
    (hq : s.tables.run? x.workflowInstanceUid = some q)
    (hstatus : q.runStatus = .running ∨ q.runStatus = .paused)
    (hnone : ∀ y t, ¬Drives s.tables m y t) : ∃ r, Runs R (setup.processResult m) s r s := by
  have hself : s.tables.step? x.uid = some x := (Store.Tables.mem_of_step? hx).2.symm ▸ hx
  have hanswers : ¬AnswersAttempt m x := fun h ↦ hnone _ _ (.answered x default hx h)
  have hrest : ∃ r, Runs R (setup.processRepeated x m) s r s := by
    unfold Setup.processRepeated
    by_cases hrepeats : repeatsLast x m = true
    swap
    · exact ⟨_, by rw [if_neg hrepeats]; exact runs_pure.2 ⟨rfl, rfl⟩⟩
    rw [if_pos hrepeats]
    obtain ⟨o, ho⟩ := reads_awaitsFollowUp x s.tables
    have hgo : ∀ f : Bool → Action Unit, f false = pure () →
        ∃ r, Runs R (awaitsFollowUp x >>= f) s r s := by
      intro f hf
      rcases o with e | _ | _
      · exact ⟨_, runs_bind.2 (.inl ⟨e, ho.runs hR.store, rfl⟩)⟩
      · exact ⟨_, hR.found ho (hf ▸ runs_pure.2 ⟨rfl, rfl⟩)⟩
      · exact absurd (.repeated x hx hanswers hrepeats (finds_awaitsFollowUp.1 ho))
          (hnone x s.tables)
    rcases hstatus with hs | hs
    · obtain ⟨r, h⟩ := hgo (fun awaits ↦ if awaits then setup.advance x else pure ()) rfl
      exact ⟨r, hR.found (finds_readRun hq) (by rw [hs]; exact h)⟩
    · obtain ⟨r, h⟩ := hgo (fun awaits ↦ if awaits then Setup.hold q.uid x.uid else pure ()) rfl
      exact ⟨r, hR.found (finds_readRun hq) (by rw [hs]; exact h)⟩
  obtain ⟨r, h⟩ := hrest
  exact ⟨r, hR.found (finds_readStep hx) ((hR.applied_none ht hself hanswers).andThen h)⟩

end Lenient

end Engine

end Orchestration
