import Orchestration.Proofs.Habits
import Orchestration.Proofs.Interleaving
import Orchestration.Proofs.NewChain

/-!
# How steps get their identifiers

The store does not know whether a step that is put in is a new one: it would write it over a step
with the same identifier. That this does not happen is up to those who make runs. They ask for
identifiers, use each of them for one step at most, and put the step in without any result. A
program that keeps to this, and writes no result onto a step either, is careful of the step with a
given identifier.

As long as everybody is careful of a step, its record is made once, and nobody changes how many
results it has had. All operations are, except for the one thing that results are there for
(`careful_operation`).
-/

namespace Orchestration

namespace Engine

variable {α β : Type} {u : Uid} {b : Bool} {p : Rest α}

/-! ## Being careful of a step -/

/-- Whether a program that has, or has not, an identifier to use has it after a call. -/
def Call.leaves (u : Uid) (b : Bool) : (c : Call) → c.Answer → Bool
  | .newUid, v => b || v == u
  | .store (.insertRun ..), _ => false
  | _, _ => b

/-- A call writes no result, and puts a step in under an identifier only if the identifier is there
to be used. The step has had no results then. -/
def Call.careful (u : Uid) (b : Bool) : Call → Prop
  | .store (.insertRun _ steps) => ∀ x ∈ steps, x.uid = u → b = true ∧ x.runCount = 0
  | .store (.applyStepResult ..) => False
  | _ => True

/-- A program is careful of a step, whether or not it begins with an identifier to use, and comes to
an end of a kind. -/
def Minds (u : Uid) (Q : Bool → α → Prop) : Bool → Rest α → Prop
  | b, .done a => Q b a
  | b, .call c next => c.careful u b ∧ ∀ answer, Minds u Q (c.leaves u b answer) (next answer)

/-- An action is careful of a step, and has no identifier left to use when it comes to its end. -/
abbrev Careful (u : Uid) (a : Action α) : Prop := Minds u (fun b _ ↦ b = false) false a.run

theorem Minds.bind {Q : Bool → α → Prop} {Q' : Bool → β → Prop} {k : α → Rest β}
    (hp : Minds u Q b p) (hk : ∀ b a, Q b a → Minds u Q' b (k a)) : Minds u Q' b (p >>= k) := by
  induction p generalizing b with
  | done a => exact hk b a hp
  | call c next ih => exact ⟨hp.1, fun answer ↦ ih answer (hp.2 answer)⟩

theorem Minds.andThen {a : Action α} {f : α → Action β} {Q : Bool → Except EngineError α → Prop}
    {Q' : Bool → Except EngineError β → Prop} (ha : Minds u Q b a.run)
    (hf : ∀ b o, Q b o → Minds u Q' b (ExceptT.bindCont f o)) : Minds u Q' b (a >>= f).run :=
  Minds.bind ha hf

theorem minds_newUid {f : Uid → Action β} {Q : Bool → Except EngineError β → Prop}
    (hf : ∀ v, Minds u Q (b || v == u) (f v).run) : Minds u Q b (Action.newUid >>= f).run :=
  ⟨trivial, hf⟩

theorem Call.careful_of_isPlain {c : Call} (hc : c.isPlain) (u : Uid) (b : Bool) :
    c.careful u b ∧ ∀ answer, c.leaves u b answer = b := by
  cases c with
  | store c =>
    cases c with
    | insertRun | applyStepResult => exact hc.elim
    | _ => exact ⟨trivial, fun _ ↦ rfl⟩
  | newUid => exact hc.elim
  | _ => exact ⟨trivial, fun _ ↦ rfl⟩

theorem Asked.minds (h : Asked Call.isPlain p) : Minds u (fun b' _ ↦ b' = b) b p := by
  induction p with
  | done a => exact rfl
  | call c next ih =>
    obtain ⟨hcareful, hleaves⟩ := Call.careful_of_isPlain h.1 u b
    refine ⟨hcareful, fun answer ↦ ?_⟩
    rw [hleaves answer]
    exact ih answer (h.2 answer)

/-! ## The making of a run -/

theorem mem_buildStepInstances {run : Uid} {definitions : List StepDefinition} {input : Json.Object}
    {uids : List Uid} {x : StepInstance} (hx : x ∈ buildStepInstances run definitions input uids) :
    x.uid ∈ uids ∧ x.runCount = 0 ∧ x.workflowInstanceUid = run := by
  obtain ⟨i, hi, rfl⟩ := List.mem_mapIdx.1 hx
  exact ⟨(List.of_mem_zip (List.getElem_mem hi)).2, rfl, rfl⟩

/-- Whoever asks for identifiers has an identifier to use if it is one of them, or was there
before. -/
theorem minds_newUids (n : Nat) (b : Bool) :
    Minds u (fun b' (o : Except EngineError (List Uid)) ↦
      (b = true → b' = true) ∧ ∃ vs, o = .ok vs ∧ (u ∈ vs → b' = true))
        b (Action.newUids n).run := by
  induction n generalizing b with
  | zero => exact ⟨id, [], rfl, fun hu ↦ nomatch hu⟩
  | succ n ih =>
    refine minds_newUid fun v ↦ (ih (b || v == u)).andThen ?_
    rintro b' _ ⟨hkept, vs, rfl, hall⟩
    refine ⟨fun hb ↦ hkept (by simp [hb]), v :: vs, rfl, fun hu ↦ ?_⟩
    rcases List.mem_cons.1 hu with rfl | hu
    · exact hkept (by simp)
    · exact hall hu

theorem careful_generate (definition : WorkflowDefinition) (steps : List StepDefinition)
    (input : Json.Object) (parent parentStep : Option Uid) :
    Careful u (generate definition steps input parent parentStep) := by
  unfold generate
  split
  · exact rfl
  refine minds_newUid fun uid ↦ (minds_newUids _ _).andThen ?_
  rintro b _ ⟨-, uids, rfl, hall⟩
  refine ⟨trivial, fun time ↦ ⟨fun x hx hu ↦ ?_, fun made ↦ ?_⟩⟩
  · obtain ⟨hmem, hcount, -⟩ := mem_buildStepInstances hx
    exact ⟨hall (hu ▸ hmem), hcount⟩
  · cases made with
    | error e => exact rfl
    | ok _ => exact rfl

/-! ## Operations -/

theorem habit_careful (u : Uid) : Habit.Steady fun _ a ↦ Careful u a where
  bind := by
    intro α β a f ha hf
    refine Minds.andThen ha ?_
    rintro b (e | x) rfl
    · exact rfl
    · exact hf x
  attempt := by
    intro α a ha
    refine Minds.bind ha ?_
    rintro b o rfl
    exact rfl
  plain := Asked.minds
  publishWork := fun _ ↦ ⟨trivial, fun _ ↦ rfl⟩
  post := fun _ _ ↦ ⟨trivial, fun _ ↦ rfl⟩
  getFunction := fun _ ↦ ⟨trivial, fun _ ↦ rfl⟩
  deployFunction := fun _ ↦ ⟨trivial, fun _ ↦ rfl⟩
  getWorkflow := fun _ ↦ ⟨trivial, fun _ ↦ rfl⟩
  getStepList := fun _ ↦ ⟨trivial, fun _ ↦ rfl⟩
  generate := careful_generate
  setHeldStep := fun _ _ ↦ ⟨trivial, fun _ ↦ rfl⟩
  takeHeldStep := fun _ ↦ ⟨trivial, fun _ ↦ rfl⟩

section Records

variable {s : Scene} {t : Store.Tables} {x : StepInstance}

/-- A step that is found after a change of one step was there before, with what the change keeps. -/
theorem exists_of_mem_onStep {γ δ : Type} (f : StepInstance → δ) {v : Uid}
    {change : StepInstance → γ × StepInstance}
    (hchange : ∀ y, (change y).2.uid = y.uid ∧ f (change y).2 = f y)
    (hx : x ∈ (t.onStep v change).2.steps) : ∃ y ∈ t.steps, y.uid = x.uid ∧ f y = f x := by
  cases hv : t.step? v with
  | none =>
    rw [Store.Tables.onStep_of_none hv] at hx
    exact ⟨x, hx, rfl, rfl⟩
  | some y =>
    rw [Store.Tables.onStep_of_some hv] at hx
    rcases Store.mem_overwrite hx with rfl | ⟨hx, -⟩
    · exact ⟨y, (Store.Tables.mem_of_step? hv).1, (hchange y).1.symm, (hchange y).2.symm⟩
    · exact ⟨x, hx, rfl, rfl⟩

theorem mem_of_mem_foldl_insertStep {steps : List StepInstance}
    (hx : x ∈ (steps.foldl Store.Tables.insertStep t).steps) : x ∈ t.steps ∨ x ∈ steps := by
  induction steps generalizing t with
  | nil => exact .inl hx
  | cons y rest ih =>
    rcases ih hx with hx | hx
    · unfold Store.Tables.insertStep at hx
      split at hx
      · rcases Store.mem_overwrite hx with rfl | ⟨hx, -⟩
        · exact .inr List.mem_cons_self
        · exact .inl hx
      · rcases List.mem_append.1 hx with hx | hx
        · exact .inl hx
        · exact .inr (List.mem_singleton.1 hx ▸ List.mem_cons_self)
    · exact .inr (List.mem_cons_of_mem _ hx)

theorem mem_of_mem_insertRun {run : WorkflowInstance} {steps : List StepInstance}
    (hx : x ∈ (t.answer (.insertRun run steps)).2.steps) : x ∈ t.steps ∨ x ∈ steps := by
  have hx : x ∈ (if _ then _ else _ : Except EngineError Unit × Store.Tables).2.steps := hx
  split at hx
  · exact .inl hx
  · exact mem_of_mem_foldl_insertStep (t := { t with runs := t.runs ++ [run] }) hx

/-- A step that is found after a careful call was there before, and has had as many results. Or it
is made now, and has had none. -/
theorem Call.steps_of_careful {c : Call} (hc : c.careful u b) (answer : c.Answer)
    (hx : x ∈ (s.after c answer).tables.steps) (hu : x.uid = u) :
    (∃ y ∈ s.tables.steps, y.uid = u ∧ y.runCount = x.runCount) ∨
      (b = true ∧ c.leaves u b answer = false ∧ x.runCount = 0) := by
  have hsame : ∀ {P : Prop}, x ∈ s.tables.steps →
      (∃ y ∈ s.tables.steps, y.uid = u ∧ y.runCount = x.runCount) ∨ P :=
    fun hx ↦ .inl ⟨x, hx, hu, rfl⟩
  have hstep : ∀ {P : Prop} {γ : Type} {v : Uid} {change : StepInstance → γ × StepInstance},
      (∀ y, (change y).2.uid = y.uid ∧ (change y).2.runCount = y.runCount) →
      x ∈ (s.tables.onStep v change).2.steps →
      (∃ y ∈ s.tables.steps, y.uid = u ∧ y.runCount = x.runCount) ∨ P := by
    intro P γ v change hchange hx
    obtain ⟨y, hy, hyx, hcount⟩ := exists_of_mem_onStep StepInstance.runCount hchange hx
    exact .inl ⟨y, hy, hyx.trans hu, hcount⟩
  cases c with
  | store c =>
    cases c with
    | insertRun run steps =>
      rcases mem_of_mem_insertRun hx with hx | hx
      · exact hsame hx
      · exact .inr ⟨(hc x hx hu).1, rfl, (hc x hx hu).2⟩
    | getRun | getStep | listSteps | findStep | listTopLevelRuns => exact hsame hx
    | updateRunStatus v | setRunStartTime v | setRunEndTime v | recordRunError v | setRunOutput v
    | setHeldStep v | takeHeldStep v =>
      rw [show (s.after _ answer).tables.steps = (s.tables.onRun v _).2.steps from rfl,
        Store.Tables.steps_onRun] at hx
      exact hsame hx
    | updateStepStatus | launchStep | setStepStartTime | setStepEndTime | setSelectedCase =>
      exact hstep (fun y ↦ ⟨rfl, rfl⟩) hx
    | decrementRetry =>
      refine hstep (fun y ↦ ?_) hx
      unfold Store.Tables.withRetryUsed
      split
      · exact ⟨rfl, rfl⟩
      · exact ⟨rfl, rfl⟩
    | applyStepResult => exact hc.elim
    | deleteRuns => exact hsame (List.mem_filter.1 hx).1
  | publish channel payload =>
    have hx : x ∈ (s.publish channel payload (Except.isOk answer)).tables.steps := hx
    unfold Scene.publish at hx
    split at hx
    · exact hsame hx
    · exact hsame hx
  | getFunction | deployFunction | getWorkflow | getStepList | post | now | newUid | spawn =>
    exact hsame hx

theorem Call.leaves_cases (c : Call) (answer : c.Answer) (hc : c ≠ .newUid) (u : Uid) (b : Bool) :
    c.leaves u b answer = b ∨ c.leaves u b answer = false := by
  cases c with
  | newUid => exact absurd rfl hc
  | store c =>
    cases c with
    | insertRun => exact .inr rfl
    | _ => exact .inl rfl
  | _ => exact .inl rfl

theorem Call.issued_after (c : Call) (answer : c.Answer) (hc : c ≠ .newUid) :
    (s.after c answer).issued = s.issued := by
  cases c with
  | newUid => exact absurd rfl hc
  | publish channel payload =>
    show (s.publish channel payload (Except.isOk answer)).issued = _
    unfold Scene.publish
    split
    · rfl
    · rfl
  | _ => rfl

end Records

end Engine

end Orchestration
