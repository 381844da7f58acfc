import Orchestration.Store.Tables
import Mathlib.Data.List.Nodup
import Mathlib.Logic.Function.Basic

/-!
# Records by their identifiers

Both tables of the store are lists of records that carry an identifier. Writing a record over the
one with its identifier is described once for any list of records with a key, and then for the two
tables.

The steps of a run, in the order in which they were put in, are its chain (`Tables.chainOf`). A step
that is written over changes the chain of its own run in one place and no other chain.
-/

namespace Orchestration

/-- A step that has counted its results from zero and can count one more. -/
structure StepInstance.CanCount (x : StepInstance) : Prop where
  nonneg : 0 ≤ x.runCount
  room : x.runCount < greatestInt

namespace Store

/-! ## Records with a key -/

section Keyed

variable {ρ : Type} {key : ρ → Uid} {l : List ρ} {x y : ρ}

/-- A list of records with one of them written over that has the same key. -/
def overwrite (key : ρ → Uid) (x : ρ) (l : List ρ) : List ρ :=
  l.map fun r ↦ if key r = key x then x else r

theorem mem_overwrite (h : y ∈ overwrite key x l) : y = x ∨ y ∈ l ∧ key y ≠ key x := by
  obtain ⟨r, hr, rfl⟩ := List.mem_map.1 h
  by_cases hk : key r = key x
  · simp [hk]
  · simp [hk, hr]

theorem mem_overwrite_self (h : y ∈ l) (hk : key y = key x) : x ∈ overwrite key x l :=
  List.mem_map.2 ⟨y, h, by simp [hk]⟩

theorem mem_overwrite_of_ne (h : y ∈ l) (hk : key y ≠ key x) : y ∈ overwrite key x l :=
  List.mem_map.2 ⟨y, h, by simp [hk]⟩

theorem overwrite_of_forall_ne (h : ∀ y ∈ l, key y ≠ key x) : overwrite key x l = l := by
  rw [overwrite]
  conv_rhs => rw [← List.map_id l]
  exact List.map_congr_left fun r hr ↦ by simp [h r hr]

theorem map_overwrite {α : Type} {f : ρ → α} (h : ∀ y ∈ l, key y = key x → f x = f y) :
    (overwrite key x l).map f = l.map f := by
  rw [overwrite, List.map_map]
  refine List.map_congr_left fun y hy ↦ ?_
  by_cases hk : key y = key x
  · simp [hk, h y hy hk]
  · simp [hk]

theorem map_key_overwrite : (overwrite key x l).map key = l.map key :=
  map_overwrite fun _ _ hk ↦ hk.symm

theorem overwrite_append (l l' : List ρ) :
    overwrite key x (l ++ l') = overwrite key x l ++ overwrite key x l' := List.map_append

theorem overwrite_overwrite (h : key x = key y) :
    overwrite key y (overwrite key x l) = overwrite key y l := by
  rw [overwrite, overwrite, overwrite, List.map_map]
  refine List.map_congr_left fun r _ ↦ ?_
  by_cases hk : key r = key x
  · simp [hk, h]
  · have hy : key r ≠ key y := h ▸ hk
    simp [hk, hy]

/-- Where only records that fare alike under a test take each other's place, the test sees no
difference. -/
theorem filter_overwrite {p : ρ → Bool} (h : ∀ y ∈ l, key y = key x → p y = p x) :
    (overwrite key x l).filter p = overwrite key x (l.filter p) := by
  induction l with
  | nil => rfl
  | cons r rest ih =>
    have ih := ih fun y hy ↦ h y (List.mem_cons_of_mem _ hy)
    have hr := h r List.mem_cons_self
    simp only [overwrite, List.map_cons] at ih ⊢
    by_cases hk : key r = key x
    · rw [if_pos hk, List.filter_cons, List.filter_cons, hr hk, ih]
      by_cases hp : p x
      · simp [hp, hk]
      · simp [hp]
    · rw [if_neg hk, List.filter_cons, List.filter_cons, ih]
      by_cases hp : p r
      · simp [hp, hk]
      · simp [hp]

theorem find?_key_iff (hl : (l.map key).Nodup) {u : Uid} :
    l.find? (fun r ↦ key r = u) = some x ↔ x ∈ l ∧ key x = u := by
  constructor
  · intro h
    exact ⟨List.mem_of_find?_eq_some h, by simpa using List.find?_some h⟩
  · rintro ⟨hx, rfl⟩
    cases h : l.find? fun r ↦ key r = key x with
    | none =>
      have hne := List.find?_eq_none.1 h x hx
      exact absurd (decide_eq_true rfl) hne
    | some y =>
      have hk : key y = key x := by simpa using List.find?_some h
      rw [List.inj_on_of_nodup_map hl (List.mem_of_find?_eq_some h) hx hk]

theorem countP_eq_one {p : ρ → Bool} (hl : (l.map key).Nodup) (hx : x ∈ l)
    (hp : ∀ y ∈ l, p y = decide (key y = key x)) : l.countP p = 1 := by
  have hcount : (l.map key).count (key x) = 1 :=
    List.count_eq_one_of_mem hl (List.mem_map_of_mem hx)
  rw [List.count, List.countP_map] at hcount
  rw [← hcount]
  refine List.countP_congr fun y hy ↦ ?_
  rw [hp y hy, Function.comp_apply, decide_eq_true_iff, beq_iff_eq]

theorem filter_eq_singleton (hl : (l.map key).Nodup) (hx : x ∈ l) :
    l.filter (fun y ↦ key y = key x) = [x] := by
  have hlength : (l.filter fun y ↦ key y = key x).length = 1 := by
    rw [← List.countP_eq_length_filter]
    exact countP_eq_one hl hx fun y _ ↦ rfl
  refine List.eq_replicate_iff.2 ⟨hlength, fun y hy ↦ ?_⟩
  obtain ⟨hyl, hkey⟩ := List.mem_filter.1 hy
  exact List.inj_on_of_nodup_map hl hyl hx (of_decide_eq_true hkey)

/-- A record that is there is written over, even where its key is not the only one of its kind. -/
theorem find?_overwrite {u : Uid} (hu : key x = u) (h : l.find? (fun r ↦ key r = u) = some y) :
    (overwrite key x l).find? (fun r ↦ key r = u) = some x := by
  subst hu
  induction l with
  | nil => cases h
  | cons r rest ih =>
    simp only [overwrite, List.map_cons] at ih ⊢
    by_cases hk : key r = key x
    · rw [if_pos hk, List.find?_cons_of_pos (by simp)]
    · rw [List.find?_cons_of_neg (by simpa using hk)] at h
      rw [if_neg hk, List.find?_cons_of_neg (by simpa using hk)]
      exact ih h

/-- Writing over a record is not seen by whoever asks for another one. -/
theorem find?_overwrite_of_ne {u : Uid} (hu : key x ≠ u) :
    (overwrite key x l).find? (fun r ↦ key r = u) = l.find? fun r ↦ key r = u := by
  induction l with
  | nil => rfl
  | cons r rest ih =>
    simp only [overwrite, List.map_cons] at ih ⊢
    by_cases hk : key r = key x
    · have hru : key r ≠ u := fun h ↦ hu (hk.symm.trans h)
      rw [if_pos hk, List.find?_cons_of_neg (by simpa using hu),
        List.find?_cons_of_neg (by simpa using hru), ih]
    · rw [if_neg hk, List.find?_cons, List.find?_cons, ih]

/-- Records behind the others are not seen by whoever asks for none of them. -/
theorem find?_append_of_ne {l' : List ρ} {u : Uid} (h : ∀ y ∈ l', key y ≠ u) :
    (l ++ l').find? (fun y ↦ key y = u) = l.find? fun y ↦ key y = u := by
  have hnone : l'.find? (fun y ↦ key y = u) = none :=
    List.find?_eq_none.2 fun y hy ↦ by simpa using h y hy
  rw [List.find?_append, hnone, Option.or_none]

end Keyed

/-! ## The two tables -/

namespace Tables

variable {t : Tables}

/-- The steps of a run in the order in which they were put in. -/
def chainOf (t : Tables) (run : Uid) : List StepInstance :=
  t.steps.filter fun s ↦ s.workflowInstanceUid = run

theorem mem_chainOf {run : Uid} {s : StepInstance} :
    s ∈ t.chainOf run ↔ s ∈ t.steps ∧ s.workflowInstanceUid = run := by
  simp [chainOf]

/-- No two records share an identifier, and every step is one of a run that is there. -/
structure Keyed (t : Tables) : Prop where
  runs : (t.runs.map (·.uid)).Nodup
  steps : (t.steps.map (·.uid)).Nodup
  owned : ∀ s ∈ t.steps, ∃ r ∈ t.runs, r.uid = s.workflowInstanceUid

theorem mem_of_run? {u : Uid} {r : WorkflowInstance} (h : t.run? u = some r) :
    r ∈ t.runs ∧ r.uid = u :=
  ⟨List.mem_of_find?_eq_some h, by simpa using List.find?_some h⟩

theorem mem_of_step? {u : Uid} {s : StepInstance} (h : t.step? u = some s) :
    s ∈ t.steps ∧ s.uid = u :=
  ⟨List.mem_of_find?_eq_some h, by simpa using List.find?_some h⟩

namespace Keyed

theorem run?_iff (ht : t.Keyed) {u : Uid} {r : WorkflowInstance} :
    t.run? u = some r ↔ r ∈ t.runs ∧ r.uid = u := find?_key_iff ht.runs

theorem step?_iff (ht : t.Keyed) {u : Uid} {s : StepInstance} :
    t.step? u = some s ↔ s ∈ t.steps ∧ s.uid = u := find?_key_iff ht.steps

theorem eq_of_run (ht : t.Keyed) {r r' : WorkflowInstance} (h : r ∈ t.runs) (h' : r' ∈ t.runs)
    (hu : r.uid = r'.uid) : r = r' := List.inj_on_of_nodup_map ht.runs h h' hu

theorem eq_of_step (ht : t.Keyed) {s s' : StepInstance} (h : s ∈ t.steps) (h' : s' ∈ t.steps)
    (hu : s.uid = s'.uid) : s = s' := List.inj_on_of_nodup_map ht.steps h h' hu

theorem nodup_chainOf (ht : t.Keyed) (run : Uid) : ((t.chainOf run).map (·.uid)).Nodup :=
  ht.steps.sublist (List.filter_sublist.map _)

end Keyed

/-! ## Changing one record -/

theorem onRun_of_some {α : Type} {u : Uid} {r : WorkflowInstance} (h : t.run? u = some r)
    (change : WorkflowInstance → α × WorkflowInstance) :
    t.onRun u change = (.ok (change r).1, t.putRun (change r).2) := by
  rw [onRun, h]

theorem onRun_of_none {α : Type} {u : Uid} (h : t.run? u = none)
    (change : WorkflowInstance → α × WorkflowInstance) :
    t.onRun u change = (.error (.runNotFound u), t) := by
  rw [onRun, h]

theorem onStep_of_some {α : Type} {u : Uid} {s : StepInstance} (h : t.step? u = some s)
    (change : StepInstance → α × StepInstance) :
    t.onStep u change = (.ok (change s).1, t.putStep (change s).2) := by
  rw [onStep, h]

theorem onStep_of_none {α : Type} {u : Uid} (h : t.step? u = none)
    (change : StepInstance → α × StepInstance) :
    t.onStep u change = (.error (.stepInstanceNotFound u), t) := by
  rw [onStep, h]

theorem steps_onRun {α : Type} (u : Uid) (change : WorkflowInstance → α × WorkflowInstance) :
    (t.onRun u change).2.steps = t.steps := by
  cases h : t.run? u with
  | none => rw [onRun_of_none h]
  | some r =>
    rw [onRun_of_some h]
    rfl

theorem runs_putRun (r : WorkflowInstance) :
    (t.putRun r).runs = overwrite (·.uid) r t.runs := rfl

theorem putRun_putRun {r r' : WorkflowInstance} (h : r.uid = r'.uid) :
    (t.putRun r).putRun r' = t.putRun r' := by
  have hruns : overwrite WorkflowInstance.uid r' (overwrite WorkflowInstance.uid r t.runs) =
      overwrite WorkflowInstance.uid r' t.runs := overwrite_overwrite h
  exact congrArg (fun runs ↦ Tables.mk runs t.steps) hruns

theorem chainOf_putRun (r : WorkflowInstance) (run : Uid) :
    (t.putRun r).chainOf run = t.chainOf run := rfl

theorem steps_putStep (s : StepInstance) :
    (t.putStep s).steps = overwrite (·.uid) s t.steps := rfl

theorem Keyed.putRun (ht : t.Keyed) (r : WorkflowInstance) : (t.putRun r).Keyed where
  runs := by
    rw [runs_putRun, map_key_overwrite]
    exact ht.runs
  steps := ht.steps
  owned := by
    intro s hs
    obtain ⟨q, hq, hu⟩ := ht.owned s hs
    by_cases hk : q.uid = r.uid
    · exact ⟨r, mem_overwrite_self hq hk, hk ▸ hu⟩
    · exact ⟨q, mem_overwrite_of_ne hq hk, hu⟩

/-- Writing a step over one of its own run changes the chain of that run in one place. -/
theorem Keyed.chainOf_putStep (ht : t.Keyed) {s s' : StepInstance} (hs : s ∈ t.steps)
    (hu : s'.uid = s.uid) (hw : s'.workflowInstanceUid = s.workflowInstanceUid) (run : Uid) :
    (t.putStep s').chainOf run = overwrite (·.uid) s' (t.chainOf run) := by
  refine filter_overwrite fun y hy hk ↦ ?_
  rw [ht.eq_of_step hy hs (hk.trans hu), hw]

/-- Writing a step over one of its own run leaves the chains of all other runs as they are. -/
theorem Keyed.chainOf_putStep_of_ne (ht : t.Keyed) {s s' : StepInstance} (hs : s ∈ t.steps)
    (hu : s'.uid = s.uid) (hw : s'.workflowInstanceUid = s.workflowInstanceUid) {run : Uid}
    (hne : run ≠ s.workflowInstanceUid) : (t.putStep s').chainOf run = t.chainOf run := by
  rw [ht.chainOf_putStep hs hu hw]
  refine overwrite_of_forall_ne fun y hy hk ↦ hne ?_
  obtain ⟨hmem, hrun⟩ := mem_chainOf.1 hy
  rw [← hrun, ht.eq_of_step hmem hs (hk.trans hu)]

theorem Keyed.putStep (ht : t.Keyed) {s s' : StepInstance} (hs : s ∈ t.steps)
    (hw : s'.workflowInstanceUid = s.workflowInstanceUid) : (t.putStep s').Keyed where
  runs := ht.runs
  steps := by
    rw [steps_putStep, map_key_overwrite]
    exact ht.steps
  owned := by
    intro y hy
    rcases mem_overwrite hy with rfl | ⟨hy, -⟩
    · obtain ⟨r, hr, hu⟩ := ht.owned s hs
      exact ⟨r, hr, hu.trans hw.symm⟩
    · exact ht.owned y hy

theorem overwrite_self {ρ : Type} {key : ρ → Uid} {l : List ρ} {x : ρ} (hl : (l.map key).Nodup)
    (hx : x ∈ l) : overwrite key x l = l := by
  rw [overwrite]
  conv_rhs => rw [← List.map_id l]
  refine List.map_congr_left fun y hy ↦ ?_
  by_cases hk : key y = key x
  · rw [if_pos hk, List.inj_on_of_nodup_map hl hy hx hk, id]
  · rw [if_neg hk, id]

theorem Keyed.putStep_self (ht : t.Keyed) {s : StepInstance} (hs : s ∈ t.steps) :
    t.putStep s = t := by
  rw [Tables.mk.injEq]
  exact ⟨rfl, overwrite_self ht.steps hs⟩

theorem Keyed.putRun_self (ht : t.Keyed) {r : WorkflowInstance} (hr : r ∈ t.runs) :
    t.putRun r = t := by
  rw [Tables.mk.injEq]
  exact ⟨overwrite_self ht.runs hr, rfl⟩

theorem Keyed.run?_putRun (ht : t.Keyed) {r r' : WorkflowInstance} {u : Uid}
    (hr : t.run? u = some r) (hu : r'.uid = u) : (t.putRun r').run? u = some r' := by
  subst hu
  obtain ⟨hmem, hu⟩ := mem_of_run? hr
  exact (ht.putRun r').run?_iff.2 ⟨mem_overwrite_self hmem hu, rfl⟩

theorem run?_putRun_of_ne {r : WorkflowInstance} {u : Uid} (h : r.uid ≠ u) :
    (t.putRun r).run? u = t.run? u := find?_overwrite_of_ne h

theorem step?_putStep_of_ne {s : StepInstance} {u : Uid} (h : s.uid ≠ u) :
    (t.putStep s).step? u = t.step? u := find?_overwrite_of_ne h

theorem Keyed.onRun_putRun {α : Type} (ht : t.Keyed) {r p : WorkflowInstance} {u : Uid}
    (hr : t.run? u = some r) (hu : p.uid = u) (change : WorkflowInstance → α × WorkflowInstance)
    (huid : (change p).2.uid = u) :
    (t.putRun p).onRun u change = (.ok (change p).1, t.putRun (change p).2) := by
  subst hu
  rw [onRun_of_some (ht.run?_putRun hr rfl), putRun_putRun huid.symm]

theorem Keyed.step?_putStep (ht : t.Keyed) {s s' : StepInstance} {u : Uid}
    (hs : t.step? u = some s) (hu : s'.uid = u)
    (hw : s'.workflowInstanceUid = s.workflowInstanceUid) : (t.putStep s').step? u = some s' := by
  subst hu
  obtain ⟨hmem, hu⟩ := mem_of_step? hs
  exact (ht.putStep hmem hw).step?_iff.2 ⟨mem_overwrite_self hmem hu, rfl⟩

theorem putStep_putStep {s s' : StepInstance} (h : s.uid = s'.uid) :
    (t.putStep s).putStep s' = t.putStep s' := by
  have hsteps : overwrite StepInstance.uid s' (overwrite StepInstance.uid s t.steps) =
      overwrite StepInstance.uid s' t.steps := overwrite_overwrite h
  exact congrArg (Tables.mk t.runs) hsteps

/-- A run that has got another status had not come to its end, and had the status that was
expected. -/
theorem answer_moved {u : Uid} {status : RunStatus} {expected : Option RunStatus}
    (h : (t.answer (.updateRunStatus u status expected)).1 = .ok true) :
    ∃ r, t.run? u = some r ∧ r.runStatus.isTerminal = false ∧ (∀ e ∈ expected, r.runStatus = e) ∧
      (t.answer (.updateRunStatus u status expected)).2 =
        t.putRun { r with runStatus := status } := by
  have h : (t.onRun u (withStatus status expected)).1 = .ok true := h
  cases hr : t.run? u with
  | none =>
    rw [onRun_of_none hr] at h
    cases h
  | some r =>
    rw [onRun_of_some hr] at h
    by_cases hno : (r.runStatus.isTerminal || expected.any (· ≠ r.runStatus)) = true
    · rw [withStatus, if_pos hno] at h
      cases h
    · have hboth := hno
      rw [Bool.or_eq_true, not_or] at hboth
      refine ⟨r, rfl, by simpa using hboth.1, fun e he ↦ ?_, ?_⟩
      · obtain rfl : expected = some e := he
        have hexp : e = r.runStatus := by simpa using hboth.2
        exact hexp.symm
      · show (t.onRun u (withStatus status expected)).2 = _
        rw [onRun_of_some hr, withStatus, if_neg hno]

theorem Keyed.answer_unmoved (ht : t.Keyed) {u : Uid} {status : RunStatus}
    {expected : Option RunStatus}
    (h : (t.answer (.updateRunStatus u status expected)).1 ≠ .ok true) :
    (t.answer (.updateRunStatus u status expected)).2 = t := by
  show (t.onRun u (withStatus status expected)).2 = t
  have h : (t.onRun u (withStatus status expected)).1 ≠ .ok true := h
  cases hr : t.run? u with
  | none => rw [onRun_of_none hr]
  | some r =>
    rw [onRun_of_some hr] at h ⊢
    obtain ⟨hmem, -⟩ := mem_of_run? hr
    unfold withStatus at h ⊢
    split
    · exact ht.putRun_self hmem
    · next hno => exact absurd (by rw [if_neg hno]) h

/-- A result for which there is room is written as its step says. -/
theorem answer_applyStepResult {u : Uid} {update : StepUpdate}
    (h : t.isBeyondCount u update = false) :
    t.answer (.applyStepResult u update) = t.onStep u (withResult update) :=
  if_neg (by rw [h]; exact Bool.false_ne_true)

theorem answer_of_isBeyondCount {u : Uid} {update : StepUpdate}
    (h : t.isBeyondCount u update = true) :
    t.answer (.applyStepResult u update) = (.error .countOverflow, t) := if_pos h

/-- What holds of the records before a result and of the records with it holds after it. -/
theorem answer_applyStepResult_elim {P : Tables → Prop} {u : Uid} {update : StepUpdate}
    (hself : P t) (hwritten : P (t.onStep u (withResult update)).2) :
    P (t.answer (.applyStepResult u update)).2 := by
  cases hbeyond : t.isBeyondCount u update with
  | true => rwa [answer_of_isBeyondCount hbeyond]
  | false => rwa [answer_applyStepResult hbeyond]

theorem isBeyondCount_of_canCount {u : Uid} {s : StepInstance} (hs : t.step? u = some s)
    (h : s.CanCount) (update : StepUpdate) : t.isBeyondCount u update = false := by
  rw [isBeyondCount, hs, Option.any_some, decide_eq_false (Int.ne_of_lt h.room), Bool.and_false]

theorem isBeyondCount_of_unexpected {u : Uid} {s : StepInstance} {update : StepUpdate}
    (hs : t.step? u = some s) (h : s.runStatus ≠ .running ∨ s.runCount ≠ update.expectedRunCount) :
    t.isBeyondCount u update = false := by
  have hno : expects update s = false := by
    rw [expects, ← Bool.decide_and, decide_eq_false (not_and_or.2 h)]
  rw [isBeyondCount, hs, Option.any_some, hno, Bool.false_and]

theorem Keyed.answer_refused (ht : t.Keyed) {u : Uid} {update : StepUpdate}
    (h : (t.answer (.applyStepResult u update)).1 ≠ .ok true) :
    (t.answer (.applyStepResult u update)).2 = t := by
  cases hbeyond : t.isBeyondCount u update with
  | true => rw [answer_of_isBeyondCount hbeyond]
  | false =>
    rw [answer_applyStepResult hbeyond] at h ⊢
    cases hs : t.step? u with
    | none => rw [onStep_of_none hs]
    | some s =>
      rw [onStep_of_some hs] at h ⊢
      obtain ⟨hmem, -⟩ := mem_of_step? hs
      unfold withResult at h ⊢
      split
      · exact ht.putStep_self hmem
      · next hno => exact absurd (by rw [if_neg hno]) h

theorem answer_of_accepted {u : Uid} {update : StepUpdate}
    (h : (t.answer (.applyStepResult u update)).1 = .ok true) :
    t.answer (.applyStepResult u update) = t.onStep u (withResult update) := by
  cases hbeyond : t.isBeyondCount u update with
  | true =>
    rw [answer_of_isBeyondCount hbeyond] at h
    cases h
  | false => exact answer_applyStepResult hbeyond

/-- A result that the store accepts is one of the attempt that the step is in, and is written. -/
theorem answer_accepted {u : Uid} {update : StepUpdate}
    (h : (t.answer (.applyStepResult u update)).1 = .ok true) :
    ∃ s, t.step? u = some s ∧ s.runStatus = .running ∧ s.runCount = update.expectedRunCount ∧
      (t.answer (.applyStepResult u update)).2 = t.putStep (withResult update s).2 := by
  have hanswer := answer_of_accepted h
  rw [hanswer] at h ⊢
  cases hs : t.step? u with
  | none =>
    rw [onStep_of_none hs] at h
    cases h
  | some s =>
    rw [onStep_of_some hs] at h
    have hno : ¬(s.runStatus ≠ .running ∨ s.runCount ≠ update.expectedRunCount) := by
      intro hyes
      rw [withResult, if_pos hyes] at h
      cases h
    obtain ⟨hr, hc⟩ := not_or.1 hno
    refine ⟨s, rfl, not_not.1 hr, not_not.1 hc, ?_⟩
    rw [onStep_of_some hs]

end Tables

end Store

end Orchestration
