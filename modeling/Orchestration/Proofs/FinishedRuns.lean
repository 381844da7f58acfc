import Orchestration.Proofs.Collaborators
import Orchestration.Proofs.Effects

/-!
# Finished runs

A run that has come to its end is frozen. Only its status is guarded by the store; its end time, its
errors, its output, what it holds and its steps are written without a question. But whoever writes
them has made sure that the run goes on, which is what deeds presuppose.

So an operation leaves the record of a finished run as it is, or removes the run with its steps. Of
its steps at most one changes: one that was still running takes its result. Nothing of the run is
launched, and no work is dispatched for it.
-/

namespace Orchestration

namespace Engine

open Chain

variable {R : Rule} {setup : Setup} {G : Uid → Prop} {o : Operation} {s₀ s s' : Scene}
variable {log l : List Moment} {u : Uid}

/-! ## What a deed hands over -/

theorem Scene.handOvers_send (s : Scene) (p : Parcel) (accepted : Bool) :
    (s.send p accepted).handOvers = s.handOvers ++ if p.handsOver then [p] else [] := by
  unfold Scene.handOvers Scene.send
  rw [List.map_append, List.filter_append]
  cases hp : p.handsOver with
  | false => simp [hp]
  | true => simp [hp]

theorem Told.handOvers {q : WorkflowInstance} (h : Told q s l s') : s'.handOvers = s.handOvers := by
  cases h with
  | told parent step x a => exact (s.handOvers_send _ _).trans (List.append_nil _)
  | untold => rfl

theorem Deed.handOvers (h : Deed setup G o s₀ log s l s') :
    s'.handOvers = s.handOvers ∨ ∃ d q, s'.handOvers = s.handOvers ++ [setup.parcelOf d] ∧
      s.tables.run? d.step.workflowInstanceUid = some q ∧ GoesOn q := by
  cases h with
  | dispatch q d m _ _ _ _ hq hgoes accepted =>
    refine .inr ⟨d, q, ?_, hq, hgoes⟩
    rw [Scene.handOvers_send, if_pos (handsOver_parcelOf setup d)]
  | cancel | outcome => exact .inl ((s.handOvers_send _ _).trans (List.append_nil _))
  | again q told s' _ _ _ htold => exact .inl htold.handOvers
  | finish q _ _ _ _ _ told s' _ _ _ _ htold => exact .inl htold.handOvers
  | make _ _ _ _ _ _ _ _ _ _ _ s₁ _ _ _ _ _ _ _ _ _ hs₁ => exact .inl (by rw [hs₁]; rfl)
  | _ => exact .inl rfl

/-! ## The fate of a finished run -/

/-- What becomes of a finished run and its steps in an operation. -/
inductive Fate (o : Operation) (u : Uid) (s s' : Scene) : Prop where
  | kept (hrun : s'.tables.run? u = s.tables.run? u)
      (hsteps : s'.tables.chainOf u = s.tables.chainOf u)
  /-- A step that was still running takes its result. -/
  | answered (m : StepResult) (x : StepInstance) (time : Instant) (expected : Int)
      (ho : o = .result m) (hu : x.uid = m.stepInstanceId) (hx : x ∈ s.tables.chainOf u)
      (hrunning : x.runStatus = .running) (hcount : x.runCount = expected)
      (hrun : s'.tables.run? u = s.tables.run? u)
      (hsteps : s'.tables.chainOf u = Store.overwrite (·.uid)
        (Store.Tables.withResult (updateOf m time expected) x).2 (s.tables.chainOf u))
  | removed (ho : ∃ keepDays maxCount, o = .sweep keepDays maxCount)
      (hrun : s'.tables.run? u = none) (hsteps : s'.tables.chainOf u = [])

theorem Fate.run? (h : Fate o u s s') :
    s'.tables.run? u = s.tables.run? u ∨ s'.tables.run? u = none := by
  cases h with
  | kept hrun | answered _ _ _ _ _ _ _ _ _ hrun => exact .inl hrun
  | removed _ hrun => exact .inr hrun

theorem Fate.of_same (h : Fate o u s₀ s) (hrun : s'.tables.run? u = s.tables.run? u)
    (hsteps : s'.tables.chainOf u = s.tables.chainOf u) : Fate o u s₀ s' := by
  cases h with
  | kept h₁ h₂ => exact .kept (hrun.trans h₁) (hsteps.trans h₂)
  | answered m x time expected ho hu hx hrunning hcount h₁ h₂ =>
    exact .answered m x time expected ho hu hx hrunning hcount (hrun.trans h₁) (hsteps.trans h₂)
  | removed ho h₁ h₂ => exact .removed ho (hrun.trans h₁) (hsteps.trans h₂)

/-- A change of the records leaves a finished run as it is, unless it writes the first result of the
operation or removes the run. -/
theorem Fate.after (h : Fate o u s₀ s) (hs : Sound setup G s) (hu : u ∈ s.issued)
    (hend : ∀ q, s.tables.run? u = some q → q.runStatus.isTerminal = true)
    (hchanges : Changes o s₀ s s'.tables) : Fate o u s₀ s' := by
  obtain ⟨ds, hst, -⟩ := hs.standing
  generalize ht : s'.tables = t at hchanges
  have hgoes : ∀ {q : WorkflowInstance}, s.tables.run? u = some q →
      q.runStatus.isTerminal = false → False := fun hq hno ↦ by simp [hend _ hq] at hno
  cases hchanges with
  | nothing => exact h.of_same (by rw [ht]) (by rw [ht])
  | run q p hq hno hsame =>
    have hne : p.uid ≠ u := by
      rintro rfl
      exact hgoes (hsame.uid ▸ hq) hno
    exact h.of_same (by rw [ht, Store.Tables.run?_putRun_of_ne hne]) (by rw [ht]; rfl)
  | step q x y hx hq hno hsame =>
    have hne : u ≠ x.workflowInstanceUid := by
      rintro rfl
      exact hgoes hq hno.1
    refine h.of_same (by rw [ht]; rfl) ?_
    rw [ht, hst.keyed.chainOf_putStep_of_ne (Store.Tables.mem_of_step? hx).1
      hsame.uid hsame.run hne]
  | result m x time expected hfirst ho hstep hx hrunning hcount =>
    have hsame := sameStep_withResult (updateOf m time expected) x
    have hmem := (Store.Tables.mem_of_step? hx).1
    by_cases hown : u = x.workflowInstanceUid
    · subst hfirst hown
      refine .answered m x time expected ho hstep (Store.Tables.mem_chainOf.2 ⟨hmem, rfl⟩) hrunning
        hcount (by rw [ht]; rfl) ?_
      rw [ht, hst.keyed.chainOf_putStep hmem hsame.uid hsame.run]
    · refine h.of_same (by rw [ht]; rfl) ?_
      rw [ht, hst.keyed.chainOf_putStep_of_ne hmem hsame.uid hsame.run hown]
  | making new instances hnew hinst =>
    have hne : u ≠ new.uid := fun hun ↦ hnew (hun ▸ hu)
    refine h.of_same ?_ ?_
    · rw [ht]
      refine Store.find?_append_of_ne fun r hr hru ↦ hne ?_
      rw [← hru, List.mem_singleton.1 hr]
    · rw [ht, chainOf_withRun_of_ne (fun x hx ↦ (hinst x hx).2) hne]
  | removal uids ho =>
    by_cases hdoomed : u ∈ s.tables.below uids
    · refine .removed ho ?_ ?_
      · rw [ht, run?_remove, if_pos hdoomed]
      · rw [ht, chainOf_remove_of_mem hdoomed]
    · refine h.of_same ?_ ?_
      · rw [ht, run?_remove, if_neg hdoomed]
      · rw [ht, chainOf_remove hdoomed]

/-- Whatever an operation does, a finished run fares so, and no work is dispatched for it. -/
theorem Deeds.fate (h : Deeds setup G o s₀ log s) (hu : u ∈ s₀.issued)
    (hend : ∀ q, s₀.tables.run? u = some q → q.runStatus.isTerminal = true) :
    Fate o u s₀ s ∧ u ∈ s.issued ∧ ∃ ds : List Dispatch,
      s.handOvers = s₀.handOvers ++ ds.map setup.parcelOf ∧
        ∀ d ∈ ds, d.step.workflowInstanceUid ≠ u := by
  induction h with
  | none _ => exact ⟨.kept rfl rfl, hu, [], (List.append_nil _).symm, fun d hd ↦ nomatch hd⟩
  | more before deed _ ih =>
    obtain ⟨hfate, hus, ds, hds, hne⟩ := ih
    have hends : ∀ q : WorkflowInstance, _ → q.runStatus.isTerminal = true := fun q hq ↦
      hfate.run?.elim (fun hsame ↦ hend q (hsame ▸ hq)) fun hnone ↦ nomatch hnone.symm.trans hq
    refine ⟨hfate.after before.sound hus hends deed.changes, deed.issued_subset hus, ?_⟩
    rcases deed.handOvers with hsame | ⟨d, q, hd, hq, hgoes⟩
    · exact ⟨ds, hsame.trans hds, hne⟩
    · refine ⟨ds ++ [d], by rw [hd, hds, List.map_append, List.append_assoc]; rfl, fun e he ↦ ?_⟩
      rcases List.mem_append.1 he with he | he
      · exact hne e he
      · rw [List.mem_singleton.1 he]
        rintro rfl
        have hno := hgoes.1
        rw [hends q hq] at hno
        cases hno

/-! ## Later operations -/

/-- A scene to which further operations lead, each carried out to its end. -/
inductive Later (setup : Setup) (R : Rule) (s : Scene) : Scene → Prop where
  | refl : Later setup R s s
  | step {s₁ s₂ : Scene} {r : Except EngineError Unit} (o : Operation)
      (before : Later setup R s s₁) (run : Runs R (o.action setup) s₁ r s₂) : Later setup R s s₂

theorem Later.sound (h : Later setup R s s') (hs : Sound setup (fun _ ↦ False) s) :
    Sound setup (fun _ ↦ False) s' := by
  induction h with
  | refl => exact hs
  | step o _ hrun ih =>
    obtain ⟨_, -, hdeeds⟩ := ih.deeds (guiding_nobody R) hrun
    exact hdeeds.sound

theorem Later.run?_of_ended (hlater : Later setup anyAnswer s s') (h : Reachable setup anyAnswer s)
    {q : WorkflowInstance} (hq : s.tables.run? q.uid = some q)
    (hend : q.runStatus.isTerminal = true) :
    q.uid ∈ s'.issued ∧ (s'.tables.run? q.uid = some q ∨ s'.tables.run? q.uid = none) := by
  have hs := sound_of_reachable (guiding_nobody _) h
  induction hlater with
  | refl =>
    obtain ⟨ds, hst, -⟩ := hs.standing
    exact ⟨hst.runsIssued q (Store.Tables.mem_of_run? hq).1, .inl hq⟩
  | @step s₁ _ _ o before hrun ih =>
    obtain ⟨hissued, hq₁⟩ := ih
    obtain ⟨log, -, hdeeds⟩ := (before.sound hs).deeds (guiding_nobody _) hrun
    have hends : ∀ p, s₁.tables.run? q.uid = some p → p.runStatus.isTerminal = true := fun p hp ↦
      hq₁.elim (fun hsome ↦ Option.some.inj (hsome.symm.trans hp) ▸ hend) fun hnone ↦
        nomatch hnone.symm.trans hp
    obtain ⟨hfate, hissued', -⟩ := hdeeds.fate hissued hends
    exact ⟨hissued', hfate.run?.elim (fun hsame ↦ hsame ▸ hq₁) .inr⟩

/-- **A finished run is frozen.** Once a run has come to its end, whatever happens before and
whatever fails, every later operation leaves its record as it is or removes it with its steps; of
its steps none begins to run, and at most one changes, which was running and takes its result; and
no work is dispatched for it. -/
theorem frozen_of_ended (h : Reachable setup anyAnswer s) {q : WorkflowInstance}
    (hq : s.tables.run? q.uid = some q) (hend : q.runStatus.isTerminal = true) {s₁ s₂ : Scene}
    (hlater : Later setup anyAnswer s s₁) {o : Operation} {r : Except EngineError Unit}
    (hrun : Runs anyAnswer (o.action setup) s₁ r s₂) :
    (s₁.tables.run? q.uid = some q ∨ s₁.tables.run? q.uid = none) ∧ Fate o q.uid s₁ s₂ ∧
      (∀ x ∈ s₂.tables.chainOf q.uid, x.runStatus = .running →
        ∃ y ∈ s₁.tables.chainOf q.uid, y.uid = x.uid ∧ y.runStatus = .running) ∧
      ∃ ds : List Dispatch, s₂.handOvers = s₁.handOvers ++ ds.map setup.parcelOf ∧
        ∀ d ∈ ds, d.step.workflowInstanceUid ≠ q.uid := by
  obtain ⟨hissued, hq₁⟩ := hlater.run?_of_ended h hq hend
  obtain ⟨log, -, hdeeds⟩ :=
    (hlater.sound (sound_of_reachable (guiding_nobody _) h)).deeds (guiding_nobody _) hrun
  have hends : ∀ p, s₁.tables.run? q.uid = some p → p.runStatus.isTerminal = true := fun p hp ↦
    hq₁.elim (fun hsome ↦ Option.some.inj (hsome.symm.trans hp) ▸ hend) fun hnone ↦
      nomatch hnone.symm.trans hp
  obtain ⟨hfate, -, hwork⟩ := hdeeds.fate hissued hends
  refine ⟨hq₁, hfate, fun x hx hr ↦ ?_, hwork⟩
  cases hfate with
  | kept _ hsteps => exact ⟨x, hsteps ▸ hx, rfl, hr⟩
  | answered m y time expected _ _ hy hrunning _ _ hsteps =>
    rw [hsteps] at hx
    rcases Store.mem_overwrite hx with rfl | ⟨hx, -⟩
    · exact ⟨y, hy, (sameStep_withResult _ y).uid.symm, hrunning⟩
    · exact ⟨x, hx, rfl, hr⟩
  | removed _ _ hsteps =>
    rw [hsteps] at hx
    cases hx

/-- The run of `callThenLoop` after it has been stopped. -/
def stoppedScene : Scene :=
  ((Collaborators.single deployedFunction callThenLoop).performAll queueSetup
    [.start (.ofNat 1) [] none none, .stop (World.nthUid 0)] {}).get (by decide +kernel)

def stoppedRun : WorkflowInstance :=
  (stoppedScene.tables.run? (World.nthUid 0)).get (by decide +kernel)

/-- What becomes of it when its first step is answered after all. -/
def answeredScene : Except EngineError Unit × Scene :=
  ((Collaborators.single deployedFunction callThenLoop).perform
    (queueSetup.processResult firstAnswer).run stoppedScene).get (by decide +kernel)

theorem frozen_of_stoppedScene :
    (Reachable queueSetup anyAnswer stoppedScene ∧
      stoppedScene.tables.run? stoppedRun.uid = some stoppedRun ∧
      stoppedRun.runStatus.isTerminal = true ∧
      Runs anyAnswer ((Operation.result firstAnswer).action queueSetup) stoppedScene
        answeredScene.1 answeredScene.2) ∧
    (stoppedScene.tables.chainOf stoppedRun.uid).map (·.runStatus) = [.running, .new] ∧
    (answeredScene.2.tables.chainOf stoppedRun.uid).map (·.runStatus) = [.completed, .new] ∧
    (stoppedScene.tables.run? stoppedRun.uid = some stoppedRun ∨
      stoppedScene.tables.run? stoppedRun.uid = none) ∧
    Fate (.result firstAnswer) stoppedRun.uid stoppedScene answeredScene.2 ∧
    (∀ x ∈ answeredScene.2.tables.chainOf stoppedRun.uid, x.runStatus = .running →
      ∃ y ∈ stoppedScene.tables.chainOf stoppedRun.uid, y.uid = x.uid ∧ y.runStatus = .running) ∧
    ∃ ds : List Dispatch,
      answeredScene.2.handOvers = stoppedScene.handOvers ++ ds.map queueSetup.parcelOf ∧
        ∀ d ∈ ds, d.step.workflowInstanceUid ≠ stoppedRun.uid := by
  have hreach : Reachable queueSetup anyAnswer stoppedScene :=
    (Collaborators.reachable_get _).weaken fun _ _ _ ↦ trivial
  have hstopped : stoppedScene.tables.run? stoppedRun.uid = some stoppedRun := by decide +kernel
  have hended : stoppedRun.runStatus.isTerminal = true := by decide +kernel
  have hruns : Runs anyAnswer ((Operation.result firstAnswer).action queueSetup) stoppedScene
      answeredScene.1 answeredScene.2 :=
    (Collaborators.leads_get _ _).weaken fun _ _ _ ↦ trivial
  exact ⟨⟨hreach, hstopped, hended, hruns⟩, by decide +kernel, by decide +kernel,
    frozen_of_ended hreach hstopped hended .refl hruns⟩

end Engine

end Orchestration
