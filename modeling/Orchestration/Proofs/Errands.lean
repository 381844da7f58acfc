import Orchestration.Proofs.ChainShape
import Orchestration.Proofs.Naming

/-!
# Stages of the handling of a result

The handling of a result goes through stages. The step is read, the result is offered to the store,
and if it has been taken the step is read again. From there the run is moved on: a repetition is
granted, a step is launched and its work handed over, or the run comes to its end. Which stage has
been reached is told by the calls and their answers alone (`Errand.after`), and at each stage only
some calls may be made (`Errand.allows`).

Whatever is allowed keeps the ground that all of this stands on: the steps of the run are the ones
that were there, no other step becomes one of them, and the run goes on until it comes to its end
(`Errand.Ground.after`). So the ground is firm however many handlings of the result are under way.
-/

namespace Orchestration

namespace Engine

open StepInstance (SelfGuided)

/-! ## Stages -/

/-- A result that is handled, with the run that it is for and the steps of that run. -/
structure Errand where
  result : StepResult
  run : Uid
  own : List Uid
  mem : result.stepInstanceId ∈ own

/-- How far a result has been handled. -/
inductive Errand.Stage where
  | unread
  /-- The step has been read, and the store may have refused the result. -/
  | read (step : StepInstance)
  | written
  /-- The step has been read again after the result was written. -/
  | reread (step : StepInstance)
  /-- The step may be repeated. -/
  | granted
  /-- A step has been launched, and its work may have been handed over. -/
  | launched (step : Uid) (handedOver : Bool)
  /-- The run has come to its end. -/
  | ended
deriving DecidableEq, Repr, Inhabited

/-- A successful step is followed by a step: by itself, or by the one that it names if it is not a
loop that goes on. -/
structure LeadsTo (x : StepInstance) (v : Uid) : Prop where
  status : x.runStatus = .completed ∨ x.runStatus = .skipped
  target : v = x.uid ∨ x.nextStepId = some v ∧ x.Stops

namespace Errand.Stage

/-- The stage after a step has been looked up. -/
def find (x : StepInstance) : Stage → Stage
  | .unread => .read x
  | .written => .reread x
  | st => st

/-- The stage after work has been handed over. -/
def handOver : Stage → Stage
  | .launched v _ => .launched v true
  | st => st

def Seeks : Stage → Prop
  | .unread | .written => True
  | _ => False

def Launched : Stage → Prop
  | .launched .. => True
  | _ => False

/-- The run may be moved on. A step that has only been read must have had the result before. -/
def Ready (m : StepResult) : Stage → Prop
  | .read x => repeatsLast x m = true
  | .reread _ | .granted | .launched .. => True
  | _ => False

/-- The step may be repeated if a repetition is left. -/
def MayRepeat (m : StepResult) : Stage → Prop
  | .read x => repeatsLast x m = true
  | .reread _ => True
  | _ => False

/-- A step of the run may be launched. -/
def MayLaunch (m : StepResult) (v : Uid) : Stage → Prop
  | .read x => repeatsLast x m = true ∧ LeadsTo x v
  | .reread x => LeadsTo x v
  | .granted => v = m.stepInstanceId
  | _ => False

/-- The case of a step of the run may be chosen. -/
def MaySelect (m : StepResult) (v : Uid) : Stage → Prop
  | .read _ | .reread _ => v ≠ m.stepInstanceId
  | .granted => True
  | _ => False

variable {st : Stage} {m : StepResult} {v : Uid} {x : StepInstance}

theorem ne_unread_of_not_seeks (h : ¬st.Seeks) : st ≠ .unread := fun hst ↦ h (hst ▸ trivial)

theorem find_of_not_seeks (h : ¬st.Seeks) : st.find x = st := by
  cases st with
  | unread | written => exact absurd trivial h
  | _ => rfl

theorem MayLaunch.ready (h : st.MayLaunch m v) : st.Ready m := by
  cases st with
  | read => exact h.1
  | reread | granted => trivial
  | unread | written | launched | ended => exact h.elim

theorem Ready.not_seeks (h : st.Ready m) : ¬st.Seeks := by
  cases st with
  | unread | written => exact fun _ ↦ h
  | _ => exact id

theorem Launched.ready (h : st.Launched) : st.Ready m := by
  cases st with
  | launched => trivial
  | _ => exact h.elim

theorem Launched.handOver (h : st.Launched) : st.handOver.Launched := by
  cases st with
  | launched => trivial
  | _ => exact h

end Errand.Stage

namespace Errand

variable (e : Errand)

abbrev step : Uid := e.result.stepInstanceId

def after (st : Stage) : (c : Call) → c.Answer → Stage
  | .store (.getStep _), .ok (some x) => st.find x
  | .store (.applyStepResult ..), .ok true => .written
  | .store (.launchStep v ..), _ => if v ∈ e.own then .launched v false else st
  | .store (.decrementRetry _), .ok true => .granted
  | .store (.updateRunStatus v ..), _ => if v = e.run then .ended else st
  | .publish .work _, _ | .post .., _ => st.handOver
  | _, _ => st

def permits (st : Stage) : Call → Prop
  | .store (.getStep v) => st.Seeks → v = e.step
  | .store (.updateRunStatus v status expected) =>
    v = e.run → status.isTerminal = true ∧ expected = none ∧ st.Ready e.result
  | .store (.insertRun q steps) =>
    q.uid ≠ e.run ∧ ∀ x ∈ steps, x.uid ∉ e.own ∧ x.workflowInstanceUid ≠ e.run
  | .store (.launchStep v ..) => v ∈ e.own → st.MayLaunch e.result v
  | .store (.setSelectedCase v _) => v ∈ e.own → st.MaySelect e.result v
  | .store (.decrementRetry v) => v = e.step ∧ st.MayRepeat e.result
  | .store (.applyStepResult v update) =>
    v = e.step ∧ ∃ x, st = .read x ∧ expectedRunCount x e.result = some update.expectedRunCount
  | .store (.setHeldStep ..) | .store (.takeHeldStep _) | .store (.updateStepStatus ..)
  | .store (.setStepStartTime ..) | .store (.setStepEndTime ..) | .store (.deleteRuns _) => False
  | .publish channel _ => channel = .work → ∃ v, st = .launched v false
  | .post .. => ∃ v, st = .launched v false
  | _ => True

/-- A call may be made at a stage. Nothing is done before the step has been read. -/
def allows (st : Stage) (c : Call) : Prop :=
  (st = .unread → c = .store (.getStep e.step)) ∧ e.permits st c

/-! ## The ground -/

/-- A step is one of the run if it has the run as its own. It then names another step of the run as
the next one, if any, and the step that the result is for is guided by itself. -/
structure Fits (x : StepInstance) : Prop where
  own : x.workflowInstanceUid = e.run ↔ x.uid ∈ e.own
  next : x.workflowInstanceUid = e.run → ∀ v ∈ x.nextStepId, v ∈ e.own ∧ v ≠ x.uid
  guided : x.uid = e.step → SelfGuided x.shape

/-- The steps of the run are those that it had, and the run is running or has come to its end. -/
structure Ground (s : Scene) : Prop where
  known : e.run ∈ s.issued ∧ ∀ v ∈ e.own, v ∈ s.issued
  steps : ∀ x ∈ s.tables.steps, e.Fits x
  there : ∀ v ∈ e.own, ∃ x, s.tables.step? v = some x
  run : ∃ q, s.tables.run? e.run = some q ∧
    (q.runStatus = .running ∨ q.runStatus.isTerminal = true)

end Errand

/-! ## What one call does to one record -/

/-- What nobody ever changes about a step: its run, the step that it names, and its shape. -/
def fixedPart (x : StepInstance) : Uid × Option Uid × StepStructure :=
  (x.workflowInstanceUid, x.nextStepId, x.shape)

/-- A change of a step leaves alone what nobody changes, and takes no result back. -/
structure Mild {α : Type} (change : StepInstance → α × StepInstance) : Prop where
  uid : ∀ x, (change x).2.uid = x.uid
  fixed : ∀ x, fixedPart (change x).2 = fixedPart x
  count : ∀ x, x.runCount ≤ (change x).2.runCount

theorem mild_withResult (update : Store.StepUpdate) : Mild (Store.Tables.withResult update) := by
  refine ⟨fun x ↦ ?_, fun x ↦ ?_, fun x ↦ ?_⟩
  all_goals
    unfold Store.Tables.withResult
    split
  · rfl
  · rfl
  · rfl
  · rfl
  · exact Int.le_refl _
  · exact Int.le_add_one (Int.le_refl _)

theorem mild_withRetryUsed : Mild Store.Tables.withRetryUsed := by
  refine ⟨fun x ↦ ?_, fun x ↦ ?_, fun x ↦ ?_⟩
  all_goals
    unfold Store.Tables.withRetryUsed
    split
  · rfl
  · rfl
  · rfl
  · rfl
  · exact Int.le_refl _
  · exact Int.le_refl _

theorem mild_of_rfl {α : Type} {change : StepInstance → α × StepInstance}
    (hchange : ∀ x, (change x).2.uid = x.uid ∧ fixedPart (change x).2 = fixedPart x ∧
      (change x).2.runCount = x.runCount) : Mild change :=
  ⟨fun x ↦ (hchange x).1, fun x ↦ (hchange x).2.1, fun x ↦ Int.le_of_eq (hchange x).2.2.symm⟩

section Records

variable {α : Type} {t : Store.Tables} {v w : Uid}

theorem step?_onStep {change : StepInstance → α × StepInstance} (hchange : Mild change) (w : Uid) :
    (t.onStep v change).2.step? w =
      if w = v then (t.step? v).map fun x ↦ (change x).2 else t.step? w := by
  cases hv : t.step? v with
  | none =>
    rw [Store.Tables.onStep_of_none hv]
    split
    · next h => rw [h, hv, Option.map_none]
    · rfl
  | some x =>
    rw [Store.Tables.onStep_of_some hv]
    have hxv : (change x).2.uid = v := (hchange.uid x).trans (Store.Tables.mem_of_step? hv).2
    split
    · next h => exact h ▸ Store.find?_overwrite hxv hv
    · next h => exact Store.Tables.step?_putStep_of_ne fun hw ↦ h (hw.symm.trans hxv)

theorem step?_onStep_of_refused {change : StepInstance → Bool × StepInstance}
    (hchange : Mild change) (hsame : ∀ x, (change x).1 = false → (change x).2 = x)
    (hno : (t.onStep v change).1 ≠ .ok true) (w : Uid) :
    (t.onStep v change).2.step? w = t.step? w := by
  rw [step?_onStep hchange]
  split
  · next hw =>
    subst hw
    cases hx : t.step? w with
    | none => rfl
    | some x =>
      rw [Store.Tables.onStep_of_some hx] at hno
      have hfalse : (change x).1 = false := Bool.eq_false_iff.2 fun h ↦ hno (congrArg _ h)
      rw [Option.map_some, hsame x hfalse]
  · rfl

theorem step?_of_refused {update : Store.StepUpdate}
    (hno : (t.answer (.applyStepResult v update)).1 ≠ .ok true) (w : Uid) :
    (t.answer (.applyStepResult v update)).2.step? w = t.step? w := by
  cases hbeyond : t.isBeyondCount v update with
  | true => rw [Store.Tables.answer_of_isBeyondCount hbeyond]
  | false =>
  rw [Store.Tables.answer_applyStepResult hbeyond] at hno ⊢
  refine step?_onStep_of_refused (mild_withResult update) (fun x hx ↦ ?_) hno w
  unfold Store.Tables.withResult at hx ⊢
  split at hx
  · next h => rw [if_pos h]
  · cases hx

theorem step?_onStep_withRetryUsed (hno : (t.onStep v Store.Tables.withRetryUsed).1 ≠ .ok true)
    (w : Uid) : (t.onStep v Store.Tables.withRetryUsed).2.step? w = t.step? w := by
  refine step?_onStep_of_refused mild_withRetryUsed (fun x hx ↦ ?_) hno w
  unfold Store.Tables.withRetryUsed at hx ⊢
  split at hx
  · next h => rw [if_pos h]
  · cases hx

theorem run?_onRun_eq {change : WorkflowInstance → α × WorkflowInstance}
    (hchange : ∀ q, (change q).2.uid = q.uid) (w : Uid) :
    (t.onRun v change).2.run? w =
      if w = v then (t.run? v).map fun q ↦ (change q).2 else t.run? w := by
  cases hv : t.run? v with
  | none =>
    rw [Store.Tables.onRun_of_none hv]
    split
    · next h => rw [h, hv, Option.map_none]
    · rfl
  | some q =>
    rw [Store.Tables.onRun_of_some hv]
    have hqv : (change q).2.uid = v := (hchange q).trans (Store.Tables.mem_of_run? hv).2
    split
    · next h => exact h ▸ Store.find?_overwrite hqv hv
    · next h => exact Store.Tables.run?_putRun_of_ne fun hw ↦ h (hw.symm.trans hqv)

/-- Putting other steps in is not seen by whoever asks for a step. -/
theorem step?_foldl_insertStep {steps : List StepInstance} (h : ∀ x ∈ steps, x.uid ≠ w) :
    (steps.foldl Store.Tables.insertStep t).step? w = t.step? w := by
  induction steps generalizing t with
  | nil => rfl
  | cons x rest ih =>
    have hx : x.uid ≠ w := h x List.mem_cons_self
    rw [List.foldl_cons, ih fun y hy ↦ h y (List.mem_cons_of_mem _ hy), Store.Tables.insertStep]
    split
    · exact Store.Tables.step?_putStep_of_ne hx
    · exact Store.find?_append_of_ne fun y hy ↦ List.mem_singleton.1 hy ▸ hx

theorem step?_insertRun {q : WorkflowInstance} {steps : List StepInstance}
    (h : ∀ x ∈ steps, x.uid ≠ w) : (t.answer (.insertRun q steps)).2.step? w = t.step? w := by
  show (if _ then _ else _ : Except EngineError Unit × Store.Tables).2.step? w = _
  split
  · rfl
  · exact step?_foldl_insertStep (t := { t with runs := t.runs ++ [q] }) h

theorem run?_insertRun {q : WorkflowInstance} {steps : List StepInstance} (h : q.uid ≠ w) :
    (t.answer (.insertRun q steps)).2.run? w = t.run? w := by
  show (if _ then _ else _ : Except EngineError Unit × Store.Tables).2.run? w = _
  split
  · rfl
  · show ((steps.foldl Store.Tables.insertStep _).runs.find? _) = _
    rw [runs_foldl_insertStep]
    exact Store.find?_append_of_ne fun y hy ↦ List.mem_singleton.1 hy ▸ h

end Records

namespace Errand

variable {e : Errand} {s : Scene} {st : Stage} {c : Call} {v w : Uid} {x : StepInstance}

theorem allows_of_ne (hst : st ≠ .unread) (hc : e.permits st c) : e.allows st c :=
  ⟨fun h ↦ absurd h hst, hc⟩

/-! ## What stays -/

/-- A call does not change the record of a step of the run. -/
def Spares (e : Errand) : Call → Prop
  | .store (.launchStep v ..) | .store (.setSelectedCase v _) | .store (.decrementRetry v)
  | .store (.applyStepResult v _) | .store (.updateStepStatus v _) | .store (.setStepStartTime v _)
  | .store (.setStepEndTime v _) => v ∉ e.own
  | .store (.insertRun _ steps) => ∀ x ∈ steps, x.uid ∉ e.own
  | .store (.deleteRuns _) => False
  | _ => True

theorem step?_of_spares (hc : e.Spares c) (answer : c.Answer) (hw : w ∈ e.own) :
    (s.after c answer).tables.step? w = s.tables.step? w := by
  have honRun : ∀ {α : Type} (v : Uid) (change : WorkflowInstance → α × WorkflowInstance),
      (s.tables.onRun v change).2.step? w = s.tables.step? w := fun v change ↦
    congrArg (List.find? _) (Store.Tables.steps_onRun v change)
  have honStep : ∀ {α : Type} {v : Uid} {change : StepInstance → α × StepInstance}, v ∉ e.own →
      Mild change → (s.tables.onStep v change).2.step? w = s.tables.step? w := by
    intro α v change hv hchange
    rw [step?_onStep hchange, if_neg fun hwv : w = v ↦ hv (hwv ▸ hw)]
  -- What changes runs does not touch steps, and what changes another step does not touch this one.
  cases c with
  | store c =>
    cases c with
    | getRun | getStep | listSteps | findStep | listTopLevelRuns => rfl
    | insertRun q steps => exact step?_insertRun fun x hx hxw ↦ hc x hx (hxw ▸ hw)
    | updateRunStatus v | setRunStartTime v | setRunEndTime v | recordRunError v | setRunOutput v
    | setHeldStep v | takeHeldStep v => exact honRun v _
    | launchStep | setSelectedCase | updateStepStatus | setStepStartTime | setStepEndTime =>
      exact honStep hc (mild_of_rfl fun _ ↦ ⟨rfl, rfl, rfl⟩)
    | decrementRetry => exact honStep hc mild_withRetryUsed
    | applyStepResult =>
      exact Store.Tables.answer_applyStepResult_elim (P := fun t ↦ t.step? w = s.tables.step? w) rfl
        (honStep hc (mild_withResult _))
    | deleteRuns => exact hc.elim
  | publish channel payload =>
    show (s.publish channel payload (Except.isOk answer)).tables.step? w = _
    unfold Scene.publish
    split
    · rfl
    · rfl
  | getFunction | deployFunction | getWorkflow | getStepList | post | now | newUid | spawn => rfl

/-- A call keeps the ground: it ends the run if it gives it a status, and puts in no step of the
run. -/
def Serves (e : Errand) : Call → Prop
  | .store (.insertRun q steps) =>
    q.uid ≠ e.run ∧ ∀ x ∈ steps, x.uid ∉ e.own ∧ x.workflowInstanceUid ≠ e.run
  | .store (.updateRunStatus v status _) => v = e.run → status.isTerminal = true
  | .store (.setHeldStep ..) | .store (.takeHeldStep _) | .store (.updateStepStatus ..)
  | .store (.setStepStartTime ..) | .store (.setStepEndTime ..) | .store (.deleteRuns _) => False
  | _ => True

theorem serves_of_allows (hc : e.allows st c) : e.Serves c := by
  have hc := hc.2
  cases c with
  | store c =>
    cases c with
    | updateRunStatus => exact fun hv ↦ (hc hv).1
    | insertRun | setHeldStep | takeHeldStep | updateStepStatus | setStepStartTime | setStepEndTime
    | deleteRuns => exact hc
    | _ => trivial
  | _ => trivial

theorem exists_step?_after (hc : e.Serves c) (answer : c.Answer) (hw : w ∈ e.own)
    (hx : s.tables.step? w = some x) :
    ∃ y, (s.after c answer).tables.step? w = some y ∧ x.runCount ≤ y.runCount := by
  have hsame : e.Spares c → ∃ y, (s.after c answer).tables.step? w = some y ∧
      x.runCount ≤ y.runCount := fun h ↦
    ⟨x, (step?_of_spares h answer hw).trans hx, Int.le_refl _⟩
  have honStep : ∀ {α : Type} {v : Uid} {change : StepInstance → α × StepInstance}, Mild change →
      ∃ y, (s.tables.onStep v change).2.step? w = some y ∧ x.runCount ≤ y.runCount := by
    intro α v change hchange
    rw [step?_onStep hchange]
    split
    · next hwv => exact ⟨_, by rw [← hwv, hx, Option.map_some], hchange.count x⟩
    · exact ⟨x, hx, Int.le_refl _⟩
  -- Only a result that is written changes the count, and adds one to it.
  cases c with
  | store c =>
    cases c with
    | insertRun q steps => exact hsame fun x hx ↦ (hc.2 x hx).1
    | launchStep | setSelectedCase => exact honStep (mild_of_rfl fun _ ↦ ⟨rfl, rfl, rfl⟩)
    | decrementRetry => exact honStep mild_withRetryUsed
    | applyStepResult =>
      exact Store.Tables.answer_applyStepResult_elim
        (P := fun t ↦ ∃ y, t.step? w = some y ∧ x.runCount ≤ y.runCount) ⟨x, hx, Int.le_refl _⟩
        (honStep (mild_withResult _))
    | setHeldStep | takeHeldStep | updateStepStatus | setStepStartTime | setStepEndTime
    | deleteRuns => exact hc.elim
    | _ => exact hsame trivial
  | _ => exact hsame trivial

/-- A step that is found after a call was there before, or is none of the run. -/
theorem mem_steps_after (hc : e.Serves c) (answer : c.Answer)
    (hx : x ∈ (s.after c answer).tables.steps) :
    (∃ y ∈ s.tables.steps, y.uid = x.uid ∧ fixedPart y = fixedPart x) ∨
      (x.uid ∉ e.own ∧ x.workflowInstanceUid ≠ e.run) := by
  have hsame : ∀ {P : Prop}, x ∈ s.tables.steps →
      (∃ y ∈ s.tables.steps, y.uid = x.uid ∧ fixedPart y = fixedPart x) ∨ P :=
    fun h ↦ .inl ⟨x, h, rfl, rfl⟩
  have honStep : ∀ {P : Prop} {α : Type} {v : Uid} {change : StepInstance → α × StepInstance},
      Mild change → x ∈ (s.tables.onStep v change).2.steps →
        (∃ y ∈ s.tables.steps, y.uid = x.uid ∧ fixedPart y = fixedPart x) ∨ P := fun hchange hx ↦
    .inl (exists_of_mem_onStep fixedPart (fun y ↦ ⟨hchange.uid y, hchange.fixed y⟩) hx)
  cases c with
  | store c =>
    cases c with
    | insertRun q steps => exact (mem_of_mem_insertRun hx).elim hsame fun h ↦ .inr (hc.2 x h)
    | getRun | getStep | listSteps | findStep | listTopLevelRuns => exact hsame hx
    | updateRunStatus v | setRunStartTime v | setRunEndTime v | recordRunError v | setRunOutput v =>
      exact hsame (Store.Tables.steps_onRun v _ ▸ hx)
    | launchStep | setSelectedCase => exact honStep (mild_of_rfl fun _ ↦ ⟨rfl, rfl, rfl⟩) hx
    | decrementRetry => exact honStep mild_withRetryUsed hx
    | applyStepResult v update =>
      exact Store.Tables.answer_applyStepResult_elim
        (P := fun t ↦ x ∈ t.steps → _) hsame (honStep (mild_withResult _)) hx
    | setHeldStep | takeHeldStep | updateStepStatus | setStepStartTime | setStepEndTime
    | deleteRuns => exact hc.elim
  | publish channel payload =>
    have hx : x ∈ (s.publish channel payload (Except.isOk answer)).tables.steps := hx
    unfold Scene.publish at hx
    split at hx
    · exact hsame hx
    · exact hsame hx
  | getFunction | deployFunction | getWorkflow | getStepList | post | now | newUid | spawn =>
    exact hsame hx

/-- A call asks for a status of the run. -/
def Concludes (e : Errand) : Call → Prop
  | .store (.updateRunStatus v ..) => v = e.run
  | _ => False

/-- The run keeps its status, or comes to its end because it is asked to. -/
theorem exists_run?_after (hc : e.Serves c) (answer : c.Answer) {q : WorkflowInstance}
    (hq : s.tables.run? e.run = some q) :
    ∃ p, (s.after c answer).tables.run? e.run = some p ∧
      (p.runStatus = q.runStatus ∨ e.Concludes c ∧ p.runStatus.isTerminal = true) := by
  have hsame : ∀ {P : WorkflowInstance → Prop},
      (s.after c answer).tables.run? e.run = s.tables.run? e.run →
        ∃ p, (s.after c answer).tables.run? e.run = some p ∧ (p.runStatus = q.runStatus ∨ P p) :=
    fun h ↦ ⟨q, h.trans hq, .inl rfl⟩
  have honRun : ∀ {P : WorkflowInstance → Prop} {α : Type} {v : Uid}
      {change : WorkflowInstance → α × WorkflowInstance},
      (∀ p, (change p).2.uid = p.uid ∧ (change p).2.runStatus = p.runStatus) →
        ∃ p, (s.tables.onRun v change).2.run? e.run = some p ∧
          (p.runStatus = q.runStatus ∨ P p) := by
    intro P α v change hchange
    rw [run?_onRun_eq fun p ↦ (hchange p).1]
    split
    · next hv => exact ⟨_, by rw [← hv, hq, Option.map_some], .inl (hchange q).2⟩
    · exact ⟨q, hq, .inl rfl⟩
  -- Whatever changes the run, only one call changes its status.
  cases c with
  | store c =>
    cases c with
    | insertRun p steps => exact hsame (run?_insertRun hc.1)
    | getRun | getStep | listSteps | findStep | listTopLevelRuns => exact hsame rfl
    | setRunStartTime | setRunEndTime | recordRunError | setRunOutput =>
      exact honRun fun _ ↦ ⟨rfl, rfl⟩
    | updateRunStatus v status expected =>
      show ∃ p, (s.tables.onRun v _).2.run? e.run = some p ∧ _
      rw [run?_onRun_eq (withStatus_uid status expected)]
      split
      · next hv =>
        subst hv
        refine ⟨_, by rw [hq, Option.map_some], ?_⟩
        unfold Store.Tables.withStatus
        split
        · exact .inl rfl
        · exact .inr ⟨rfl, hc rfl⟩
      · exact ⟨q, hq, .inl rfl⟩
    | launchStep | setSelectedCase | decrementRetry =>
      exact hsame (congrArg (List.find? _) (runs_onStep _ _))
    | applyStepResult =>
      exact hsame (Store.Tables.answer_applyStepResult_elim
        (P := fun t ↦ t.run? e.run = s.tables.run? e.run) rfl
        (congrArg (List.find? _) (runs_onStep _ _)))
    | setHeldStep | takeHeldStep | updateStepStatus | setStepStartTime | setStepEndTime
    | deleteRuns => exact hc.elim
  | publish channel payload =>
    refine hsame ?_
    show (s.publish channel payload (Except.isOk answer)).tables.run? _ = _
    unfold Scene.publish
    split
    · rfl
    · rfl
  | getFunction | deployFunction | getWorkflow | getStepList | post | now | newUid | spawn =>
    exact hsame rfl

theorem Ground.after (h : e.Ground s) (hc : e.Serves c) (answer : c.Answer) :
    e.Ground (s.after c answer) where
  known := by
    have hissued : ∀ {u}, u ∈ s.issued → u ∈ (s.after c answer).issued := by
      intro u hu
      by_cases hnew : c = .newUid
      · subst hnew
        exact List.mem_append_left _ hu
      · exact (c.issued_after answer hnew).symm ▸ hu
    exact ⟨hissued h.known.1, fun v hv ↦ hissued (h.known.2 v hv)⟩
  steps := by
    intro x hx
    rcases mem_steps_after hc answer hx with ⟨y, hy, hyx, hsame⟩ | ⟨hown, hrun⟩
    · unfold fixedPart at hsame
      obtain ⟨hwi, hrest⟩ := Prod.mk.inj hsame
      obtain ⟨hnext, hshape⟩ := Prod.mk.inj hrest
      obtain ⟨hown, hlink, hguided⟩ := h.steps y hy
      rw [hyx, hwi] at hown
      rw [hyx, hwi, hnext] at hlink
      rw [hyx, hshape] at hguided
      exact ⟨hown, hlink, hguided⟩
    · exact ⟨⟨fun hyes ↦ absurd hyes hrun, fun hyes ↦ absurd hyes hown⟩,
        fun hyes ↦ absurd hyes hrun, fun hu ↦ absurd (hu ▸ e.mem) hown⟩
  there := by
    intro v hv
    obtain ⟨x, hx⟩ := h.there v hv
    obtain ⟨y, hy, -⟩ := exists_step?_after hc answer hv hx
    exact ⟨y, hy⟩
  run := by
    obtain ⟨q, hq, hstatus⟩ := h.run
    obtain ⟨p, hp, hsame | ⟨-, hterm⟩⟩ := exists_run?_after hc answer hq
    · exact ⟨p, hp, hsame ▸ hstatus⟩
    · exact ⟨p, hp, .inr hterm⟩

end Errand

end Engine

end Orchestration
