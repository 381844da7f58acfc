import Orchestration.Proofs.Statuses

/-!
# Records that are alike for some runs

Two stores may hold the same of some runs and differ in all others (`Alike`). A call of the store
that is confined to those runs, because it names one of them or one of their steps, cannot tell the
two from each other: it gets the same answer from both, and leaves them alike (`Confined.agree`).
For all other runs it leaves each store as it is (`Confined.frame`).

The order in which runs were put in is not compared, nor is that of steps of different runs. No call
that is confined to some runs ever sees it.
-/

namespace Orchestration

namespace Engine

variable {α : Type} {P Q : Uid → Prop} {t t' t'' : Store.Tables} {u v k : Uid}

/-- Two stores hold the same of some runs: the record of each, and its steps in their order. -/
structure Alike (P : Uid → Prop) (t t' : Store.Tables) : Prop where
  run : ∀ u, P u → t'.run? u = t.run? u
  chain : ∀ u, P u → t'.chainOf u = t.chainOf u

namespace Alike

theorem refl (t : Store.Tables) : Alike P t t := ⟨fun _ _ ↦ rfl, fun _ _ ↦ rfl⟩

theorem symm (h : Alike P t t') : Alike P t' t :=
  ⟨fun u hu ↦ (h.run u hu).symm, fun u hu ↦ (h.chain u hu).symm⟩

theorem trans (h : Alike P t t') (h' : Alike P t' t'') : Alike P t t'' :=
  ⟨fun u hu ↦ (h'.run u hu).trans (h.run u hu), fun u hu ↦ (h'.chain u hu).trans (h.chain u hu)⟩

theorem mono (h : Alike P t t') (hQ : ∀ u, Q u → P u) : Alike Q t t' :=
  ⟨fun u hu ↦ h.run u (hQ u hu), fun u hu ↦ h.chain u (hQ u hu)⟩

variable (h : Alike P t t')

include h

/-- A step of such a run is in the one store if it is in the other. -/
theorem mem_steps {x : StepInstance} (hx : x ∈ t.steps) (hP : P x.workflowInstanceUid) :
    x ∈ t'.steps := by
  have hmem : x ∈ t'.chainOf x.workflowInstanceUid := by
    rw [h.chain _ hP]
    exact Store.Tables.mem_chainOf.2 ⟨hx, rfl⟩
  exact (Store.Tables.mem_chainOf.1 hmem).1

theorem mem_runs (ht : t.Keyed) (ht' : t'.Keyed) {q : WorkflowInstance} (hq : q ∈ t.runs)
    (hP : P q.uid) : q ∈ t'.runs := by
  have hfound : t'.run? q.uid = some q := (h.run _ hP).trans (ht.run?_iff.2 ⟨hq, rfl⟩)
  exact (ht'.run?_iff.1 hfound).1

/-- An identifier that only steps of such runs may have names the same step in both. -/
theorem step? (ht : t.Keyed) (ht' : t'.Keyed)
    (hk : ∀ x ∈ t.steps, x.uid = k → P x.workflowInstanceUid)
    (hk' : ∀ x ∈ t'.steps, x.uid = k → P x.workflowInstanceUid) : t'.step? k = t.step? k := by
  cases hx : t.step? k with
  | some x =>
    obtain ⟨hmem, hu⟩ := Store.Tables.mem_of_step? hx
    exact ht'.step?_iff.2 ⟨h.mem_steps hmem (hk x hmem hu), hu⟩
  | none =>
    rw [Option.eq_none_iff_forall_ne_some]
    intro y hy
    obtain ⟨hmem, hu⟩ := Store.Tables.mem_of_step? hy
    have hfound := ht.step?_iff.2 ⟨h.symm.mem_steps hmem (hk' y hmem hu), hu⟩
    cases hx.symm.trans hfound

end Alike

/-! ## Changing one record -/

section OnRun

variable {change : WorkflowInstance → α × WorkflowInstance}

theorem keyed_onRun (ht : t.Keyed) (v : Uid) : (t.onRun v change).2.Keyed := by
  cases hq : t.run? v with
  | none => rwa [Store.Tables.onRun_of_none hq]
  | some q =>
    rw [Store.Tables.onRun_of_some hq]
    exact ht.putRun _

variable (hchange : ∀ q, (change q).2.uid = q.uid)

include hchange

theorem alike_onRun (hv : ¬ P v) : Alike P t (t.onRun v change).2 := by
  cases hq : t.run? v with
  | none =>
    rw [Store.Tables.onRun_of_none hq]
    exact .refl t
  | some q =>
    rw [Store.Tables.onRun_of_some hq]
    refine ⟨fun u hu ↦ Store.Tables.run?_putRun_of_ne fun hne ↦ hv ?_, fun _ _ ↦ rfl⟩
    rw [← (Store.Tables.mem_of_run? hq).2, ← hchange q, hne]
    exact hu

theorem Alike.onRun (h : Alike P t t') (ht : t.Keyed) (ht' : t'.Keyed) (hv : P v) :
    (t'.onRun v change).1 = (t.onRun v change).1 ∧
      Alike P (t.onRun v change).2 (t'.onRun v change).2 := by
  cases hq : t.run? v with
  | none =>
    rw [Store.Tables.onRun_of_none hq, Store.Tables.onRun_of_none ((h.run v hv).trans hq)]
    exact ⟨rfl, h⟩
  | some q =>
    have hq' : t'.run? v = some q := (h.run v hv).trans hq
    have hu : (change q).2.uid = v := (hchange q).trans (Store.Tables.mem_of_run? hq).2
    rw [Store.Tables.onRun_of_some hq, Store.Tables.onRun_of_some hq']
    refine ⟨rfl, fun u hP ↦ ?_, h.chain⟩
    by_cases hne : (change q).2.uid = u
    · obtain rfl := hne.symm.trans hu
      rw [ht.run?_putRun hq hu, ht'.run?_putRun hq' hu]
    · rw [Store.Tables.run?_putRun_of_ne hne, Store.Tables.run?_putRun_of_ne hne]
      exact h.run u hP

end OnRun

section OnStep

variable {change : StepInstance → α × StepInstance} (hchange : ∀ x, SameStep x (change x).2)

include hchange

theorem keyed_onStep (ht : t.Keyed) (k : Uid) : (t.onStep k change).2.Keyed := by
  cases hx : t.step? k with
  | none => rwa [Store.Tables.onStep_of_none hx]
  | some x =>
    rw [Store.Tables.onStep_of_some hx]
    exact ht.putStep (Store.Tables.mem_of_step? hx).1 (hchange x).run

theorem alike_onStep (ht : t.Keyed) (hk : ∀ x ∈ t.steps, x.uid = k → ¬ P x.workflowInstanceUid) :
    Alike P t (t.onStep k change).2 := by
  cases hx : t.step? k with
  | none =>
    rw [Store.Tables.onStep_of_none hx]
    exact .refl t
  | some x =>
    rw [Store.Tables.onStep_of_some hx]
    obtain ⟨hmem, hu⟩ := Store.Tables.mem_of_step? hx
    refine ⟨fun _ _ ↦ rfl, fun u hP ↦ ?_⟩
    exact ht.chainOf_putStep_of_ne hmem (hchange x).uid (hchange x).run fun hne ↦
      hk x hmem hu (hne ▸ hP)

theorem Alike.onStep (h : Alike P t t') (ht : t.Keyed) (ht' : t'.Keyed)
    (hk : ∀ x ∈ t.steps, x.uid = k → P x.workflowInstanceUid)
    (hk' : ∀ x ∈ t'.steps, x.uid = k → P x.workflowInstanceUid) :
    (t'.onStep k change).1 = (t.onStep k change).1 ∧
      Alike P (t.onStep k change).2 (t'.onStep k change).2 := by
  have hstep := h.step? ht ht' hk hk'
  cases hx : t.step? k with
  | none =>
    rw [Store.Tables.onStep_of_none hx, Store.Tables.onStep_of_none (hstep.trans hx)]
    exact ⟨rfl, h⟩
  | some x =>
    obtain ⟨hmem, -⟩ := Store.Tables.mem_of_step? hx
    obtain ⟨hmem', -⟩ := Store.Tables.mem_of_step? (hstep.trans hx)
    rw [Store.Tables.onStep_of_some hx, Store.Tables.onStep_of_some (hstep.trans hx)]
    refine ⟨rfl, h.run, fun u hP ↦ ?_⟩
    rw [ht.chainOf_putStep hmem (hchange x).uid (hchange x).run,
      ht'.chainOf_putStep hmem' (hchange x).uid (hchange x).run, h.chain u hP]

end OnStep

/-! ## Putting a run in -/

/-- A run with its steps may be put in: nothing has its identifier, or that of one of its steps. -/
structure Insertable (t : Store.Tables) (new : WorkflowInstance)
    (steps : List StepInstance) : Prop where
  run : ∀ q ∈ t.runs, q.uid ≠ new.uid
  distinct : (steps.map (·.uid)).Nodup
  unused : ∀ x ∈ steps, ∀ y ∈ t.steps, y.uid ≠ x.uid
  own : ∀ x ∈ steps, x.workflowInstanceUid = new.uid

namespace Insertable

variable {new : WorkflowInstance} {steps : List StepInstance} (h : Insertable t new steps)

include h

theorem answer : t.answer (.insertRun new steps) = (.ok (), withRun t new steps) :=
  answer_insertRun h.run h.distinct h.unused

theorem keyed (ht : t.Keyed) : (withRun t new steps).Keyed :=
  keyed_withRun ht h.run h.distinct h.unused h.own

omit h in
theorem run?_withRun_of_ne (hu : new.uid ≠ u) : (withRun t new steps).run? u = t.run? u :=
  Store.find?_append_of_ne fun _ hq ↦ List.mem_singleton.1 hq ▸ hu

theorem run?_withRun_self : (withRun t new steps).run? new.uid = some new := by
  have hnone : t.runs.find? (fun q ↦ decide (q.uid = new.uid)) = none :=
    List.find?_eq_none.2 fun _ hq ↦ by simpa using h.run _ hq
  rw [Store.Tables.run?, withRun, List.find?_append, hnone, Option.none_or]
  exact List.find?_cons_of_pos (decide_eq_true rfl)

theorem alike (hnew : ¬ P new.uid) : Alike P t (withRun t new steps) where
  run _ hu := run?_withRun_of_ne fun hne ↦ hnew (hne ▸ hu)
  chain _ hu := chainOf_withRun_of_ne h.own fun hne ↦ hnew (hne ▸ hu)

end Insertable

theorem Alike.withRun {new : WorkflowInstance} {steps : List StepInstance} (h : Alike P t t')
    (ht : t.Keyed) (ht' : t'.Keyed) (hnew : Insertable t new steps)
    (hnew' : Insertable t' new steps) :
    Alike P (withRun t new steps) (withRun t' new steps) := by
  constructor
  · intro u hu
    by_cases hne : new.uid = u
    · obtain rfl := hne
      rw [hnew.run?_withRun_self, hnew'.run?_withRun_self]
    · rw [Insertable.run?_withRun_of_ne hne, Insertable.run?_withRun_of_ne hne]
      exact h.run u hu
  · intro u hu
    by_cases hne : u = new.uid
    · obtain rfl := hne
      rw [chainOf_withRun_self ht hnew.run hnew.own, chainOf_withRun_self ht' hnew'.run hnew'.own]
    · rw [chainOf_withRun_of_ne hnew.own hne, chainOf_withRun_of_ne hnew'.own hne]
      exact h.chain u hu

/-! ## Calls that are confined to some runs -/

/-- A call of the store reads and changes the records of some runs only: it names one of them, or a
step that only they may have, or puts one in. -/
def Confined (P : Uid → Prop) (t : Store.Tables) : Store.Call → Prop
  | .getRun u | .listSteps u | .findStep u _ | .updateRunStatus u .. | .setRunStartTime u _
  | .setRunEndTime u _ | .recordRunError u .. | .setRunOutput u _ | .setHeldStep u _
  | .takeHeldStep u => P u
  | .getStep k | .updateStepStatus k _ | .launchStep k .. | .setStepStartTime k _
  | .setStepEndTime k _ | .setSelectedCase k _ | .decrementRetry k | .applyStepResult k _ =>
    ∀ x ∈ t.steps, x.uid = k → P x.workflowInstanceUid
  | .insertRun new steps => P new.uid ∧ Insertable t new steps
  | .listTopLevelRuns | .deleteRuns _ => False

namespace Confined

variable {c : Store.Call}

theorem mono (h : Confined P t c) (hQ : ∀ u, P u → Q u) : Confined Q t c := by
  cases c with
  | insertRun => exact ⟨hQ _ h.1, h.2⟩
  | getStep | updateStepStatus | launchStep | setStepStartTime | setStepEndTime | setSelectedCase
  | decrementRetry | applyStepResult => exact fun x hx hu ↦ hQ _ (h x hx hu)
  | listTopLevelRuns | deleteRuns => exact h
  | _ => exact hQ _ h

theorem keyed (h : Confined P t c) (ht : t.Keyed) : (t.answer c).2.Keyed := by
  cases c with
  | getRun | getStep | listSteps | findStep => exact ht
  | insertRun new steps =>
    rw [h.2.answer]
    exact h.2.keyed ht
  | updateRunStatus u status expected => exact keyed_onRun ht u
  | setRunStartTime | setRunEndTime | recordRunError | setRunOutput | setHeldStep | takeHeldStep =>
    exact keyed_onRun ht _
  | updateStepStatus | launchStep | setStepStartTime | setStepEndTime | setSelectedCase =>
    exact keyed_onStep (fun _ ↦ ⟨rfl, rfl, rfl, rfl, rfl⟩) ht _
  | decrementRetry k => exact keyed_onStep (fun x ↦ (sameStep_withRetryUsed x).1) ht k
  | applyStepResult k update =>
    exact Store.Tables.answer_applyStepResult_elim (P := Store.Tables.Keyed) ht
      (keyed_onStep (sameStep_withResult update) ht k)
  | listTopLevelRuns | deleteRuns => exact h.elim

/-- **A confined call leaves all other runs as they are.** -/
theorem frame (h : Confined P t c) (ht : t.Keyed) (hQ : ∀ u, P u → ¬ Q u) :
    Alike Q t (t.answer c).2 := by
  cases c with
  | getRun | getStep | listSteps | findStep => exact .refl t
  | insertRun new steps =>
    rw [h.2.answer]
    exact h.2.alike (hQ _ h.1)
  | updateRunStatus u status expected => exact alike_onRun (withStatus_uid status expected) (hQ u h)
  | setRunStartTime | setRunEndTime | recordRunError | setRunOutput | setHeldStep | takeHeldStep =>
    exact alike_onRun (fun _ ↦ rfl) (hQ _ h)
  | updateStepStatus | launchStep | setStepStartTime | setStepEndTime | setSelectedCase =>
    exact alike_onStep (fun _ ↦ ⟨rfl, rfl, rfl, rfl, rfl⟩) ht fun x hx hu ↦ hQ _ (h x hx hu)
  | decrementRetry =>
    exact alike_onStep (fun x ↦ (sameStep_withRetryUsed x).1) ht fun x hx hu ↦ hQ _ (h x hx hu)
  | applyStepResult k update =>
    exact Store.Tables.answer_applyStepResult_elim (P := Alike Q t) (.refl t)
      (alike_onStep (sameStep_withResult update) ht fun x hx hu ↦ hQ _ (h x hx hu))
  | listTopLevelRuns | deleteRuns => exact h.elim

/-- **A confined call cannot tell stores that are alike from each other.** -/
theorem agree (h : Confined P t c) (h' : Confined P t' c) (ht : t.Keyed) (ht' : t'.Keyed)
    (halike : Alike P t t') :
    (t'.answer c).1 = (t.answer c).1 ∧ Alike P (t.answer c).2 (t'.answer c).2 := by
  cases c with
  | getRun u => exact ⟨congrArg Except.ok (halike.run u h), halike⟩
  | getStep k => exact ⟨congrArg Except.ok (halike.step? ht ht' h h'), halike⟩
  | listSteps u => exact ⟨congrArg (Except.ok ∘ inExecutionOrder) (halike.chain u h), halike⟩
  | findStep u name =>
    refine ⟨congrArg Except.ok ?_, halike⟩
    have hfind : ∀ t : Store.Tables,
        (t.steps.find? fun s ↦ decide (s.workflowInstanceUid = u) && decide (s.name = name)) =
          (t.chainOf u).find? fun s ↦ decide (s.name = name) := fun t ↦ by
      simp [Store.Tables.chainOf, List.find?_filter]
    exact (hfind t').trans ((congrArg _ (halike.chain u h)).trans (hfind t).symm)
  | insertRun new steps =>
    rw [h.2.answer, h'.2.answer]
    exact ⟨rfl, halike.withRun ht ht' h.2 h'.2⟩
  | updateRunStatus u status expected =>
    exact halike.onRun (withStatus_uid status expected) ht ht' h
  | setRunStartTime | setRunEndTime | recordRunError | setRunOutput | setHeldStep | takeHeldStep =>
    exact halike.onRun (fun _ ↦ rfl) ht ht' h
  | updateStepStatus | launchStep | setStepStartTime | setStepEndTime | setSelectedCase =>
    exact halike.onStep (fun _ ↦ ⟨rfl, rfl, rfl, rfl, rfl⟩) ht ht' h h'
  | decrementRetry => exact halike.onStep (fun x ↦ (sameStep_withRetryUsed x).1) ht ht' h h'
  | applyStepResult k update =>
    have hbeyond : t'.isBeyondCount k update = t.isBeyondCount k update := by
      rw [Store.Tables.isBeyondCount, halike.step? ht ht' h h']
      rfl
    cases hb : t.isBeyondCount k update with
    | true =>
      rw [Store.Tables.answer_of_isBeyondCount hb,
        Store.Tables.answer_of_isBeyondCount (hbeyond.trans hb)]
      exact ⟨rfl, halike⟩
    | false =>
      rw [Store.Tables.answer_applyStepResult hb,
        Store.Tables.answer_applyStepResult (hbeyond.trans hb)]
      exact halike.onStep (sameStep_withResult update) ht ht' h h'
  | listTopLevelRuns | deleteRuns => exact h.elim

end Confined

end Engine

end Orchestration
