import Orchestration.Proofs.StopCondition
import Orchestration.Proofs.Ending

/-!
# What an action may ask

The calls of an action can be told from its tree, without any execution: `Asks φ a` says that every
call in the tree of `a` is of the kind `φ`, whatever the calls before it are answered. Unlike a
statement about executions this does not depend on who else changes the records while the action is
carried out.

The first use is to actions that read the records of steps and nothing else. They find the same
wherever the steps are the same, so it makes no difference to them in which status a run is.
-/

namespace Orchestration

namespace Engine

variable {α β : Type}

/-- Every call in the tree of a program is of one kind. -/
def Asked (φ : Call → Prop) : Program Call.Answer α → Prop
  | .done _ => True
  | .call c next => φ c ∧ ∀ answer, Asked φ (next answer)

/-- Every call in the tree of an action is of one kind. -/
def Asks (φ : Call → Prop) (a : Action α) : Prop := Asked φ a.run

variable {φ : Call → Prop} {R : Rule} {s s' : Scene}

theorem Asked.bind {p : Program Call.Answer α} {k : α → Program Call.Answer β} (hp : Asked φ p)
    (hk : ∀ a, Asked φ (k a)) : Asked φ (p >>= k) := by
  induction p with
  | done a => exact hk a
  | call c next ih => exact ⟨hp.1, fun answer ↦ ih answer (hp.2 answer)⟩

theorem Asked.mono {ψ : Call → Prop} (h : ∀ c, φ c → ψ c) {p : Program Call.Answer α}
    (hp : Asked φ p) : Asked ψ p := by
  induction p with
  | done a => trivial
  | call c next ih => exact ⟨h c hp.1, fun answer ↦ ih answer (hp.2 answer)⟩

theorem Asked.first {p : Program Call.Answer α} {k : α → Program Call.Answer β}
    (h : Asked φ (p >>= k)) : Asked φ p := by
  induction p with
  | done a => trivial
  | call c next ih => exact ⟨h.1, fun answer ↦ ih answer (h.2 answer)⟩

theorem Asked.rest {p : Program Call.Answer α} {k : α → Program Call.Answer β}
    (h : Asked φ (p >>= k)) {x : α} (hp : Leads R p s x s') : Asked φ (k x) := by
  induction p generalizing s with
  | done a =>
    obtain ⟨rfl, -⟩ := hp
    exact h
  | call c next ih =>
    obtain ⟨answer, -, -, hnext⟩ := hp
    exact ih answer (h.2 answer) hnext

theorem Asked.keeps {I : Scene → Prop} (hI : ∀ ⦃c s⦄, φ c → ∀ answer, I s → I (s.after c answer))
    {p : Program Call.Answer α} (hp : Asked φ p) {x : α} (hs : I s) (h : Leads R p s x s') :
    I s' := by
  induction p generalizing s with
  | done a =>
    obtain ⟨-, rfl⟩ := h
    exact hs
  | call c next ih =>
    obtain ⟨answer, -, -, hnext⟩ := h
    exact ih answer (hp.2 answer) (hI hp.1 answer hs) hnext

namespace Asks

theorem mono {ψ : Call → Prop} {a : Action α} (ha : Asks φ a) (h : ∀ c, φ c → ψ c) : Asks ψ a :=
  Asked.mono h ha

theorem pure (x : α) : Asks φ (Pure.pure x : Action α) := trivial

theorem throw (e : EngineError) : Asks φ (throw e : Action α) := trivial

theorem ofExcept (e : Except EngineError α) : Asks φ (Action.ofExcept e) := trivial

theorem bind {a : Action α} {f : α → Action β} (ha : Asks φ a) (hf : ∀ x, Asks φ (f x)) :
    Asks φ (a >>= f) := by
  refine Asked.bind ha fun o ↦ ?_
  cases o with
  | error e => trivial
  | ok x => exact hf x

theorem attempt {a : Action α} (ha : Asks φ a) : Asks φ (Action.attempt a) :=
  Asked.bind ha fun _ ↦ trivial

theorem ite {p : Prop} [Decidable p] {a b : Action α} (ha : Asks φ a) (hb : Asks φ b) :
    Asks φ (if p then a else b) := by
  split
  · exact ha
  · exact hb

theorem store {c : Store.Call} (hc : φ (.store c)) : Asks φ (Action.store c) :=
  ⟨hc, fun _ ↦ trivial⟩

theorem first {a : Action α} {f : α → Action β} (h : Asks φ (a >>= f)) : Asks φ a :=
  Asked.first h

theorem rest {a : Action α} {f : α → Action β} (h : Asks φ (a >>= f)) {x : α}
    (ha : Runs R a s (.ok x) s') : Asks φ (f x) := Asked.rest h ha

theorem of_attempt {a : Action α} (h : Asks φ (Action.attempt a)) : Asks φ a := Asked.first h

theorem keeps {I : Scene → Prop} {a : Action α} (ha : Asks φ a)
    (hI : ∀ ⦃c s⦄, φ c → ∀ answer, I s → I (s.after c answer)) : Keeps R I a :=
  fun _ _ _ hs h ↦ Asked.keeps hI ha hs h

end Asks

/-! ## Reading the records of steps -/

/-- Whether a call reads the records of steps, and nothing else. -/
def Call.readsSteps : Call → Bool
  | .store (.getStep _) | .store (.listSteps _) | .store (.findStep ..) => true
  | _ => false

/-- An action reads the records of steps, and nothing else. -/
abbrev ReadsSteps (a : Action α) : Prop := Asks (fun c ↦ c.readsSteps = true) a

/-- Records with the same steps give the same answers about steps. -/
theorem answer_of_readsSteps {t t' : Store.Tables} (h : t'.steps = t.steps) {c : Store.Call}
    (hc : (Call.store c).readsSteps = true) :
    isReading c = true ∧ (t'.answer c).1 = (t.answer c).1 := by
  obtain ⟨runs, steps⟩ := t
  obtain rfl : t'.steps = steps := h
  cases c with
  | getStep | listSteps | findStep => exact ⟨rfl, rfl⟩
  | _ => cases hc

/-- What an action that reads steps finds depends on the steps alone. -/
theorem ReadsSteps.finds {t t' : Store.Tables} (h : t'.steps = t.steps) {a : Action α}
    (ha : ReadsSteps a) {o : Except EngineError α} (ho : Finds t a o) : Finds t' a o := by
  have hvalue : ∀ {p : Program Call.Answer (Except EngineError α)},
      Asked (fun c ↦ c.readsSteps = true) p → valueIn? t' p = valueIn? t p := by
    intro p hp
    induction p with
    | done _ => rfl
    | call c next ih =>
      cases c with
      | store c =>
        obtain ⟨hreading, hanswer⟩ := answer_of_readsSteps h hp.1
        unfold valueIn?
        rw [if_pos hreading, if_pos hreading, hanswer]
        exact ih _ (hp.2 _)
      | _ => cases hp.1
  exact (hvalue ha).trans ho

/-! ### What the parts of a run ask -/

section Asking

variable {run u : Uid} {current : Option StepInstance} {step : StepInstance}

theorem asks_readRun (h : φ (.store (.getRun run))) : Asks φ (readRun run) := by
  refine .bind (.store h) fun found ↦ ?_
  split
  · exact .pure _
  · exact .throw _

theorem asks_readStep (h : φ (.store (.getStep u))) : Asks φ (readStep u) := by
  refine .bind (.store h) fun found ↦ ?_
  split
  · exact .pure _
  · exact .throw _

theorem asks_firstStep (h : φ (.store (.listSteps run))) : Asks φ (firstStep run) := by
  refine .bind (.store h) fun steps ↦ ?_
  split
  · exact .pure _
  · exact .throw _

theorem asks_state (hrun : φ (.store (.getRun run))) (hsteps : φ (.store (.listSteps run))) :
    Asks φ (state run) :=
  .bind (asks_readRun hrun) fun _ ↦ .bind (.store hsteps) fun _ ↦ .pure _

theorem asks_fetchStep (h : ∀ name, φ (.store (.findStep run name))) (name : String) :
    Asks φ (fetchStep run current name) := by
  unfold fetchStep
  split
  · split
    · exact .pure _
    · exact .throw _
  · refine .bind (.store (h name)) fun found ↦ ?_
    split
    · exact .pure _
    · exact .throw _

theorem asks_fetchSteps (h : ∀ name, φ (.store (.findStep run name))) (names : List String)
    (steps : NamedSteps) : Asks φ (fetchSteps run current names steps) := by
  induction names generalizing steps with
  | nil => exact .pure _
  | cons name rest ih =>
    unfold fetchSteps
    split
    · exact ih steps
    · exact .bind (asks_fetchStep h name) fun _ ↦ ih _

theorem asks_normalize (h : ∀ name, φ (.store (.findStep run name))) (input : Json.Object) :
    Asks φ (normalize input run current) :=
  .bind (.ofExcept _) fun _ ↦ .ite (.pure _) <|
    .bind (asks_fetchSteps h _ _) fun _ ↦ .bind (.ofExcept _) fun _ ↦ .pure _

theorem asks_evaluateSwitch (h : ∀ name, φ (.store (.findStep step.workflowInstanceUid name)))
    (text : String) : Asks φ (evaluateSwitch step text) :=
  .bind (.bind (.ofExcept _) fun source ↦
    .bind (asks_fetchSteps h (stepNames source) []) fun _ ↦
      .bind (.ofExcept _) fun _ ↦ .ofExcept _) fun _ ↦ .pure _

theorem asks_evaluateStop (h : ∀ name, φ (.store (.findStep step.workflowInstanceUid name)))
    (text : String) : Asks φ (evaluateStop step text) :=
  .bind (.ofExcept _) fun source ↦
    .bind (asks_fetchSteps h (stepNames source) []) fun _ ↦
      .bind (.ofExcept _) fun _ ↦ .ofExcept _

theorem asks_followLink (h : ∀ next, step.nextStepId = some next → φ (.store (.getStep next))) :
    Asks φ (followLink step) := by
  unfold followLink
  split
  · next next hnext => exact .store (h next hnext)
  · exact .pure _

theorem asks_nextStep (hfind : ∀ name, φ (.store (.findStep step.workflowInstanceUid name)))
    (hnext : ∀ next, step.nextStepId = some next → φ (.store (.getStep next))) :
    Asks φ (nextStep step) := by
  by_cases h : ∃ f text, step.shape = .doWhile f text
  · obtain ⟨f, text, h⟩ := h
    rw [nextStep_of_loop h]
    exact .bind (asks_evaluateStop hfind _) fun _ ↦ .ite (asks_followLink hnext) (.pure _)
  · rw [nextStep_of_not_loop fun f text hs ↦ h ⟨f, text, hs⟩]
    exact asks_followLink hnext

theorem asks_awaitsFollowUp (hfind : ∀ name, φ (.store (.findStep step.workflowInstanceUid name)))
    (hnext : ∀ next, step.nextStepId = some next → φ (.store (.getStep next))) :
    Asks φ (awaitsFollowUp step) := by
  unfold awaitsFollowUp
  split
  iterate 2
    · refine .bind (.attempt (asks_nextStep hfind hnext)) fun o ↦ ?_
      split
      · exact .pure _
      · exact .pure _
      · exact .ite (.pure _) (.throw _)
  all_goals exact .pure _

end Asking

theorem readsSteps_readStep (step : Uid) : ReadsSteps (readStep step) := asks_readStep rfl

theorem readsSteps_nextStep (step : StepInstance) : ReadsSteps (nextStep step) :=
  asks_nextStep (fun _ ↦ rfl) fun _ _ ↦ rfl

theorem readsSteps_awaitsFollowUp (step : StepInstance) : ReadsSteps (awaitsFollowUp step) :=
  asks_awaitsFollowUp (fun _ ↦ rfl) fun _ _ ↦ rfl

end Engine

end Orchestration
