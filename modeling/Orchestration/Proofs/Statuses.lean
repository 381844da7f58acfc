import Orchestration.Proofs.Effects
import Orchestration.Proofs.Naming

/-!
# How statuses are come by

Statuses are given by four calls of the store, and each of them calls for an announcement
(`Moment.announces?`). A call that the store refuses calls for none.

Whatever is found after a call has its status in one of three ways. It has kept the status that it
had before, and then no announcement of it is called for; it has got the status that is to be
announced; or the call has put it in (`run_after`, `step_after`).
-/

namespace Orchestration

namespace Engine

variable {α : Type} {s : Scene}

/-! ## Announcements -/

/-- The announcement that a run has got a status. -/
def runNotification (run : Uid) (status : RunStatus) : RunNotification :=
  { isStepUpdate := false, workflowInstanceUid := run, status }

/-- The announcement that a step has got a status. -/
def stepNotification (x : StepInstance) (status : RunStatus) : RunNotification :=
  { isStepUpdate := true
    workflowInstanceUid := x.workflowInstanceUid
    workflowStepInstanceUid := some x.uid
    status }

/-- The announcement that a call calls for, if it has written a status. -/
def Moment.announces? : Moment → Option RunNotification
  | ⟨_, .store (.updateRunStatus u status _), .ok true⟩ => some (runNotification u status)
  | ⟨s, .store (.launchStep u _ _), .ok _⟩ => (s.tables.step? u).map (stepNotification · .running)
  | ⟨s, .store (.applyStepResult u update), .ok true⟩ =>
    (s.tables.step? u).map (stepNotification · update.runStatus)
  | ⟨s, .store (.updateStepStatus u status), .ok _⟩ =>
    (s.tables.step? u).map (stepNotification · status)
  | _ => none

/-- The announcement that is to be made next. -/
def due (log : List Moment) : Option RunNotification := log.getLast?.bind Moment.announces?

theorem due_concat (log : List Moment) (m : Moment) : due (log ++ [m]) = m.announces? := by
  rw [due, List.getLast?_concat]
  rfl

theorem announces?_of_isIdle {m : Moment} (h : m.call.isIdle = true) : m.announces? = none := by
  obtain ⟨t, c, a⟩ := m
  cases c with
  | store c =>
    cases c with
    | updateRunStatus | launchStep | applyStepResult | updateStepStatus => cases h
    | _ => rfl
  | _ => rfl

/-! ## What a call leaves -/

/-- How a run that is found after a call has come by its status. -/
inductive RunAfter (m : Moment) (p : WorkflowInstance) : Prop where
  | kept (q : WorkflowInstance) (hq : q ∈ m.scene.tables.runs) (hsame : SameRun q p)
      (hstatus : p.runStatus = q.runStatus)
      (hquiet : ∀ status, m.announces? ≠ some (runNotification p.uid status))
  | written (q : WorkflowInstance) (status : RunStatus) (expected : Option RunStatus)
      (hq : m.scene.tables.run? p.uid = some q) (hsame : SameRun q p)
      (hcall : m.call = .store (.updateRunStatus p.uid status expected))
      (hannounced : m.announces? = some (runNotification p.uid status))
      (hexpected : ∀ e ∈ expected, q.runStatus = e) (hstatus : p.runStatus = status)
  | made (steps : List StepInstance) (hcall : m.call = .store (.insertRun p steps))

/-- How a step that is found after a call has come by its status. -/
inductive StepAfter (m : Moment) (y : StepInstance) : Prop where
  | kept (x : StepInstance) (hx : x ∈ m.scene.tables.steps) (hsame : SameStep x y)
      (hstatus : y.runStatus = x.runStatus)
      (hquiet : ∀ x' status, m.announces? = some (stepNotification x' status) → x'.uid ≠ y.uid)
  | written (x : StepInstance) (hx : m.scene.tables.step? y.uid = some x) (hsame : SameStep x y)
      (hannounced : m.announces? = some (stepNotification x y.runStatus))
  | made (new : WorkflowInstance) (steps : List StepInstance)
      (hcall : m.call = .store (.insertRun new steps)) (hy : y ∈ steps)

section After

variable {t : Store.Tables} {v : Uid}

/-- A run that is found after a change of one run was there before, or is the one that was
changed. -/
theorem mem_onRun {change : WorkflowInstance → α × WorkflowInstance} (hk : t.Keyed)
    (hchange : ∀ q, (change q).2.uid = q.uid) {p : WorkflowInstance}
    (hp : p ∈ (t.onRun v change).2.runs) :
    (p ∈ t.runs ∧ p.uid ≠ v) ∨ ∃ q, t.run? v = some q ∧ p = (change q).2 := by
  cases hq : t.run? v with
  | none =>
    rw [Store.Tables.onRun_of_none hq] at hp
    exact .inl ⟨hp, fun hu ↦ nomatch hq.symm.trans (hk.run?_iff.2 ⟨hp, hu⟩)⟩
  | some q =>
    rw [Store.Tables.onRun_of_some hq] at hp
    rcases Store.mem_overwrite hp with rfl | ⟨hp, hne⟩
    · exact .inr ⟨q, rfl, rfl⟩
    · exact .inl ⟨hp, fun hu ↦ hne (hu.trans
        ((hchange q).trans (Store.Tables.mem_of_run? hq).2).symm)⟩

/-- A step that is found after a change of one step was there before, or is the one that was
changed. -/
theorem mem_onStep {change : StepInstance → α × StepInstance} (hk : t.Keyed)
    (hchange : ∀ x, (change x).2.uid = x.uid) {y : StepInstance}
    (hy : y ∈ (t.onStep v change).2.steps) :
    (y ∈ t.steps ∧ y.uid ≠ v) ∨ ∃ x, t.step? v = some x ∧ y = (change x).2 := by
  cases hx : t.step? v with
  | none =>
    rw [Store.Tables.onStep_of_none hx] at hy
    exact .inl ⟨hy, fun hu ↦ nomatch hx.symm.trans (hk.step?_iff.2 ⟨hy, hu⟩)⟩
  | some x =>
    rw [Store.Tables.onStep_of_some hx] at hy
    rcases Store.mem_overwrite hy with rfl | ⟨hy, hne⟩
    · exact .inr ⟨x, rfl, rfl⟩
    · exact .inl ⟨hy, fun hu ↦ hne (hu.trans
        ((hchange x).trans (Store.Tables.mem_of_step? hx).2).symm)⟩

end After

theorem map_stepNotification_ne {x : Option StepInstance} {status : RunStatus} {run : Uid}
    {status' : RunStatus} :
    x.map (stepNotification · status) ≠ some (runNotification run status') := by
  intro h
  obtain ⟨y, -, hy⟩ := Option.map_eq_some_iff.1 h
  cases congrArg RunNotification.isStepUpdate hy

theorem call_of_announces_run {m : Moment} {run : Uid} {status : RunStatus}
    (h : m.announces? = some (runNotification run status)) :
    ∃ expected, m.call = .store (.updateRunStatus run status expected) := by
  obtain ⟨t, c, a⟩ := m
  cases c with
  | store c =>
    cases c with
    | updateRunStatus v status' expected =>
      rcases a with e | _ | _
      · cases h
      · cases h
      · have hsame := Option.some.inj h
        have hrun := congrArg RunNotification.workflowInstanceUid hsame
        have hstatus := congrArg RunNotification.status hsame
        obtain rfl : v = run := hrun
        obtain rfl : status' = status := hstatus
        exact ⟨expected, rfl⟩
    | launchStep | updateStepStatus =>
      cases a with
      | error => cases h
      | ok => exact absurd h map_stepNotification_ne
    | applyStepResult =>
      rcases a with e | _ | _
      · cases h
      · cases h
      · exact absurd h map_stepNotification_ne
    | _ => cases h
  | _ => cases h

/-- Whether a call asks for a status of a step. -/
def Call.asksStatus (u : Uid) : Call → Prop
  | .store (.launchStep v ..) | .store (.applyStepResult v _) | .store (.updateStepStatus v _) =>
    v = u
  | _ => False

theorem asksStatus_of_announces {m : Moment} {x : StepInstance} {status : RunStatus}
    (h : m.announces? = some (stepNotification x status)) : m.call.asksStatus x.uid := by
  have hfound : ∀ {t : Store.Tables} {v status'},
      (t.step? v).map (stepNotification · status') = some (stepNotification x status) → v =
        x.uid := by
    intro t v status' h
    obtain ⟨y, hy, hsame⟩ := Option.map_eq_some_iff.1 h
    rw [← (Store.Tables.mem_of_step? hy).2]
    exact Option.some.inj (congrArg RunNotification.workflowStepInstanceUid hsame)
  obtain ⟨t, c, a⟩ := m
  cases c with
  | store c =>
    cases c with
    | updateRunStatus =>
      rcases a with e | _ | _
      · cases h
      · cases h
      · cases congrArg RunNotification.isStepUpdate (Option.some.inj h)
    | launchStep | updateStepStatus =>
      cases a with
      | error => cases h
      | ok => exact hfound h
    | applyStepResult =>
      rcases a with e | _ | _
      · cases h
      · cases h
      · exact hfound h
    | _ => cases h
  | _ => cases h

private theorem runAfter_store (hk : s.tables.Keyed) {c : Store.Call} {p : WorkflowInstance}
    (hp : p ∈ (s.tables.answer c).2.runs) : RunAfter ⟨s, .store c, (s.tables.answer c).1⟩ p := by
  have hkept : ∀ {q}, q ∈ s.tables.runs → SameRun q p → p.runStatus = q.runStatus →
      (∀ status expected, c ≠ .updateRunStatus p.uid status expected) →
        RunAfter ⟨s, .store c, (s.tables.answer c).1⟩ p := by
    refine fun hq hsame hstatus hother ↦ .kept _ hq hsame hstatus fun status h ↦ ?_
    obtain ⟨expected, hcall⟩ := call_of_announces_run h
    exact hother status expected (Call.store.inj hcall)
  have hself : SameRun p p := ⟨rfl, rfl, rfl, rfl, rfl⟩
  have honRun : ∀ {α : Type} {v : Uid} {change : WorkflowInstance → α × WorkflowInstance},
      p ∈ (s.tables.onRun v change).2.runs →
      (∀ q, SameRun q (change q).2 ∧ (change q).2.runStatus = q.runStatus) →
        ∃ q ∈ s.tables.runs, SameRun q p ∧ p.runStatus = q.runStatus := by
    intro α v change hp hchange
    rcases mem_onRun hk (fun q ↦ (hchange q).1.uid) hp with ⟨hp, -⟩ | ⟨q, hq, rfl⟩
    · exact ⟨p, hp, hself, rfl⟩
    · exact ⟨q, (Store.Tables.mem_of_run? hq).1, hchange q⟩
  cases c with
  | getRun | getStep | listSteps | findStep | listTopLevelRuns =>
    exact hkept hp hself rfl fun _ _ h ↦ by cases h
  | insertRun new steps =>
    have hp : p ∈ (if _ then _ else _ : Except EngineError Unit × Store.Tables).2.runs := hp
    split at hp
    · exact hkept hp hself rfl fun _ _ h ↦ by cases h
    · rw [runs_foldl_insertStep] at hp
      rcases List.mem_append.1 hp with hp | hp
      · exact hkept hp hself rfl fun _ _ h ↦ by cases h
      · obtain rfl := List.mem_singleton.1 hp
        exact .made steps rfl
  | updateRunStatus v status expected =>
    rcases mem_onRun hk (withStatus_uid status expected) hp with ⟨hp, hne⟩ | ⟨q, hq, rfl⟩
    · exact hkept hp hself rfl fun _ _ h ↦ hne (Store.Call.updateRunStatus.inj h).1.symm
    obtain ⟨hqm, rfl⟩ := Store.Tables.mem_of_run? hq
    have hanswer : (s.tables.answer (.updateRunStatus q.uid status expected)).1 =
        .ok (Store.Tables.withStatus status expected q).1 :=
      congrArg Prod.fst (Store.Tables.onRun_of_some hq (Store.Tables.withStatus status expected))
    by_cases hno : (q.runStatus.isTerminal || expected.any (· ≠ q.runStatus)) = true
    · rw [hanswer, Store.Tables.withStatus, if_pos hno]
      exact .kept q hqm ⟨rfl, rfl, rfl, rfl, rfl⟩ rfl fun _ h ↦ by cases h
    · rw [hanswer, Store.Tables.withStatus, if_neg hno]
      rw [Bool.or_eq_true, not_or] at hno
      refine .written q status expected hq ⟨rfl, rfl, rfl, rfl, rfl⟩ rfl rfl (fun e he ↦ ?_) rfl
      obtain rfl : expected = some e := he
      have hexp : e = q.runStatus := by simpa using hno.2
      exact hexp.symm
  | setRunStartTime | setRunEndTime | recordRunError | setRunOutput | setHeldStep | takeHeldStep =>
    obtain ⟨q, hq, hsame, hstatus⟩ := honRun hp fun _ ↦ ⟨⟨rfl, rfl, rfl, rfl, rfl⟩, rfl⟩
    exact hkept hq hsame hstatus fun _ _ h ↦ by cases h
  | launchStep | updateStepStatus | setSelectedCase | decrementRetry | setStepStartTime
  | setStepEndTime =>
    exact hkept (runs_onStep _ _ ▸ hp) hself rfl fun _ _ h ↦ by cases h
  | applyStepResult v update =>
    have hruns : (s.tables.answer (.applyStepResult v update)).2.runs = s.tables.runs :=
      Store.Tables.answer_applyStepResult_elim (P := fun t ↦ t.runs = s.tables.runs) rfl
        (runs_onStep _ _)
    exact hkept (hruns ▸ hp) hself rfl fun _ _ h ↦ by cases h
  | deleteRuns => exact hkept (List.mem_filter.1 hp).1 hself rfl fun _ _ h ↦ by cases h

private theorem stepAfter_store (hk : s.tables.Keyed) {c : Store.Call} {y : StepInstance}
    (hy : y ∈ (s.tables.answer c).2.steps) : StepAfter ⟨s, .store c, (s.tables.answer c).1⟩ y := by
  have hkept : ∀ {x}, x ∈ s.tables.steps → SameStep x y → y.runStatus = x.runStatus →
      ¬(Call.store c).asksStatus y.uid → StepAfter ⟨s, .store c, (s.tables.answer c).1⟩ y :=
    fun hx hsame hstatus hother ↦ .kept _ hx hsame hstatus fun x' status h hu ↦
      hother (hu ▸ asksStatus_of_announces h)
  have hself : SameStep y y := ⟨rfl, rfl, rfl, rfl, rfl⟩
  -- A change of a step that leaves its status.
  have honStep : ∀ {α : Type} {v : Uid} {change : StepInstance → α × StepInstance},
      y ∈ (s.tables.onStep v change).2.steps →
      (∀ x, SameStep x (change x).2 ∧ (change x).2.runStatus = x.runStatus) →
        ∃ x ∈ s.tables.steps, SameStep x y ∧ y.runStatus = x.runStatus := by
    intro α v change hy hchange
    rcases mem_onStep hk (fun x ↦ (hchange x).1.uid) hy with ⟨hy, -⟩ | ⟨x, hx, rfl⟩
    · exact ⟨y, hy, hself, rfl⟩
    · exact ⟨x, (Store.Tables.mem_of_step? hx).1, hchange x⟩
  cases c with
  | getRun | getStep | listSteps | findStep | listTopLevelRuns => exact hkept hy hself rfl id
  | insertRun new steps =>
    rcases mem_of_mem_insertRun hy with hy | hy
    · exact hkept hy hself rfl id
    · exact .made new steps rfl hy
  | updateRunStatus | setRunStartTime | setRunEndTime | recordRunError | setRunOutput | setHeldStep
  | takeHeldStep =>
    exact hkept (Store.Tables.steps_onRun _ _ ▸ hy) hself rfl id
  | launchStep v input time =>
    rcases mem_onStep hk (fun _ ↦ rfl) hy with ⟨hy, hne⟩ | ⟨x, hx, rfl⟩
    · exact hkept hy hself rfl fun h ↦ hne h.symm
    obtain ⟨-, rfl⟩ := Store.Tables.mem_of_step? hx
    have hanswer : (s.tables.answer (.launchStep x.uid input time)).1 = .ok () :=
      congrArg Prod.fst (Store.Tables.onStep_of_some hx _)
    rw [hanswer]
    exact .written x hx ⟨rfl, rfl, rfl, rfl, rfl⟩ (congrArg (Option.map _) hx)
  | updateStepStatus v status =>
    rcases mem_onStep hk (fun _ ↦ rfl) hy with ⟨hy, hne⟩ | ⟨x, hx, rfl⟩
    · exact hkept hy hself rfl fun h ↦ hne h.symm
    obtain ⟨-, rfl⟩ := Store.Tables.mem_of_step? hx
    have hanswer : (s.tables.answer (.updateStepStatus x.uid status)).1 = .ok () :=
      congrArg Prod.fst (Store.Tables.onStep_of_some hx _)
    rw [hanswer]
    exact .written x hx ⟨rfl, rfl, rfl, rfl, rfl⟩ (congrArg (Option.map _) hx)
  | applyStepResult v update =>
    cases hbeyond : s.tables.isBeyondCount v update with
    | true =>
      rw [Store.Tables.answer_of_isBeyondCount hbeyond] at hy ⊢
      exact .kept y hy hself rfl fun _ _ h ↦ by cases h
    | false =>
    have hanswered := Store.Tables.answer_applyStepResult hbeyond
    rw [hanswered] at hy
    rcases mem_onStep hk (fun x ↦ (sameStep_withResult update x).uid)
      hy with ⟨hy, hne⟩ | ⟨x, hx, rfl⟩
    · exact hkept hy hself rfl fun h ↦ hne h.symm
    obtain ⟨hxm, rfl⟩ := Store.Tables.mem_of_step? hx
    have hanswer : (s.tables.answer (.applyStepResult x.uid update)).1 =
        .ok (Store.Tables.withResult update x).1 :=
      congrArg Prod.fst (hanswered.trans (Store.Tables.onStep_of_some hx _))
    rw [hanswer, Store.Tables.withResult]
    split
    · exact .kept x hxm ⟨rfl, rfl, rfl, rfl, rfl⟩ rfl fun _ _ h ↦ by cases h
    · exact .written x hx ⟨rfl, rfl, rfl, rfl, rfl⟩ (congrArg (Option.map _) hx)
  | setSelectedCase | setStepStartTime | setStepEndTime =>
    obtain ⟨x, hx, hsame, hstatus⟩ := honStep hy fun _ ↦ ⟨⟨rfl, rfl, rfl, rfl, rfl⟩, rfl⟩
    exact hkept hx hsame hstatus id
  | decrementRetry =>
    obtain ⟨x, hx, hsame, hstatus⟩ := honStep hy fun x ↦
      ⟨(sameStep_withRetryUsed x).1, (sameStep_withRetryUsed x).2.1⟩
    exact hkept hx hsame hstatus id
  | deleteRuns => exact hkept (List.mem_filter.1 hy).1 hself rfl id

theorem tables_publish (s : Scene) (channel : Channel) (payload : String) (accepted : Bool) :
    (s.publish channel payload accepted).tables = s.tables := by
  unfold Scene.publish
  split <;> rfl

/-- **What a call leaves of the runs.** -/
theorem run_after (hk : s.tables.Keyed) {c : Call} {a : c.Answer} (ha : s.Admits c a)
    {p : WorkflowInstance} (hp : p ∈ (s.after c a).tables.runs) : RunAfter ⟨s, c, a⟩ p := by
  have hself : SameRun p p := ⟨rfl, rfl, rfl, rfl, rfl⟩
  cases c with
  | store c =>
    obtain rfl := ha
    exact runAfter_store hk hp
  | publish => exact .kept p (tables_publish s _ _ _ ▸ hp) hself rfl fun _ ↦ nofun
  | getFunction | deployFunction | getWorkflow | getStepList | post | now | newUid | spawn =>
    exact .kept p hp hself rfl fun _ ↦ nofun

/-- **What a call leaves of the steps.** -/
theorem step_after (hk : s.tables.Keyed) {c : Call} {a : c.Answer} (ha : s.Admits c a)
    {y : StepInstance} (hy : y ∈ (s.after c a).tables.steps) : StepAfter ⟨s, c, a⟩ y := by
  have hself : SameStep y y := ⟨rfl, rfl, rfl, rfl, rfl⟩
  cases c with
  | store c =>
    obtain rfl := ha
    exact stepAfter_store hk hy
  | publish => exact .kept y (tables_publish s _ _ _ ▸ hy) hself rfl fun _ _ ↦ nofun
  | getFunction | deployFunction | getWorkflow | getStepList | post | now | newUid | spawn =>
    exact .kept y hy hself rfl fun _ _ ↦ nofun

end Engine

end Orchestration
