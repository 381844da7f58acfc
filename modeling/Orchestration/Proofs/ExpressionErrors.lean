import Orchestration.Proofs.Ending

/-!
# What can be wrong with an expression

An expression within a run has no value for one of many reasons: it cannot be read, it refers to a
step or to data that is not there, it cannot be evaluated, or its value is none of the kind that is
asked for. All of these are errors of the configuration. There is one other reason: the value is
there but has no document, as an integer that no document can hold (`OfExpression`).

So this is all that can come of looking for the input of a step, for the value that a decision falls
by, or for what follows a step (`failsWith_normalize` and those after it).
-/

namespace Orchestration

namespace Engine

open Expression (parseSource Source)

variable {α β : Type} {φ : EngineError → Prop} {e : EngineError}

/-- An error of an expression: it lies in the configuration, or a value has no document. -/
def OfExpression (e : EngineError) : Prop := e.isConfiguration = true ∨ e = .undecodable

/-! ## Expressions by themselves -/

theorem ofExpression_parseSource {text : String} (h : parseSource text = .error e) :
    OfExpression e := by
  unfold parseSource at h
  split at h
  · cases h
  · obtain rfl := Except.error.inj h
    exact .inl rfl

theorem ofExpression_document {text : String} {v : Expression.Value}
    (h : Expression.document text v = .error e) : OfExpression e := by
  unfold Expression.document at h
  split at h
  · obtain rfl := Except.error.inj h
    exact .inl rfl
  · split at h
    · cases h
    · obtain rfl := Except.error.inj h
      exact .inr rfl

theorem ofExpression_evaluate {source : Source} {bindings : Dict Json}
    (h : source.evaluate bindings = .error e) : OfExpression e := by
  unfold Source.evaluate at h
  split at h
  · obtain rfl := Except.error.inj h
    exact .inl rfl
  · split at h
    · obtain rfl := Except.error.inj h
      exact .inl rfl
    · exact ofExpression_document h

theorem ofExpression_asBool {text : String} {j : Json} (h : Expression.asBool text j = .error e) :
    OfExpression e := by
  unfold Expression.asBool at h
  split at h
  · cases h
  · split at h
    · cases h
    · obtain rfl := Except.error.inj h
      exact .inl rfl
  · obtain rfl := Except.error.inj h
    exact .inl rfl

/-! ## References -/

private theorem exists_error_of_mapM {f : α → Except EngineError β} {xs : List α}
    (h : xs.mapM f = .error e) : ∃ x ∈ xs, f x = .error e := by
  induction xs with
  | nil => cases h
  | cons x rest ih =>
    rw [List.mapM_cons] at h
    cases hx : f x with
    | error d =>
      rw [hx] at h
      obtain rfl : d = e := Except.error.inj h
      exact ⟨x, List.mem_cons_self, hx⟩
    | ok y =>
      rw [hx] at h
      cases hrest : rest.mapM f with
      | error d =>
        rw [hrest] at h
        obtain rfl : d = e := Except.error.inj h
        obtain ⟨z, hz, he⟩ := ih hrest
        exact ⟨z, List.mem_cons_of_mem _ hz, he⟩
      | ok ys =>
        rw [hrest] at h
        cases h

theorem ofExpression_bindReferences {steps : NamedSteps} {source : Source}
    (h : bindReferences steps source = .error e) : OfExpression e := by
  unfold bindReferences at h
  cases hm : source.references.mapM (bindReference steps) with
  | ok _ =>
    rw [hm] at h
    cases h
  | error d =>
    rw [hm] at h
    obtain rfl : d = e := Except.error.inj h
    obtain ⟨r, -, hr⟩ := exists_error_of_mapM hm
    unfold bindReference at hr
    split at hr
    · next step _ =>
      cases hv : r.target.resolve (step.data r.target.side) with
      | ok _ =>
        rw [hv] at hr
        cases hr
      | error c =>
        rw [hv] at hr
        obtain rfl : c = d := Except.error.inj hr
        unfold Expression.DataPath.resolve at hv
        split at hv
        · cases hv
        · obtain rfl := Except.error.inj hv
          exact .inl rfl
    · obtain rfl := Except.error.inj hr
      exact .inl rfl

theorem ofExpression_evaluateFormula {steps : NamedSteps} {source : Source}
    (h : evaluateFormula steps source = .error e) : OfExpression e := by
  unfold evaluateFormula at h
  cases hb : bindReferences steps source with
  | error d =>
    rw [hb] at h
    obtain rfl : d = e := Except.error.inj h
    exact ofExpression_bindReferences hb
  | ok bindings =>
    rw [hb] at h
    cases hv : source.evaluate bindings with
    | error d =>
      replace h : (source.evaluate bindings >>= fun v ↦ Except.ok (source.text, v)) = .error e := h
      rw [hv] at h
      obtain rfl : d = e := Except.error.inj h
      exact ofExpression_evaluate hv
    | ok v =>
      replace h : (source.evaluate bindings >>= fun v ↦ Except.ok (source.text, v)) = .error e := h
      rw [hv] at h
      cases h

/-! ## Expressions of a run -/

/-- Whatever the records are, an action that only reads fails with no errors but some. -/
def FailsWith (φ : EngineError → Prop) (a : Action α) : Prop :=
  ∀ ⦃t e⦄, Finds t a (.error e) → φ e

namespace FailsWith

theorem pure (x : α) : FailsWith φ (Pure.pure x : Action α) :=
  fun _ _ h ↦ nomatch finds_pure.1 h

theorem throw (he : φ e) : FailsWith φ (throw e : Action α) := by
  intro t d h
  obtain rfl := Except.error.inj (finds_throw.1 h)
  exact he

theorem ofExcept {x : Except EngineError α} (hx : ∀ e, x = .error e → φ e) :
    FailsWith φ (Action.ofExcept x) :=
  fun _ e h ↦ hx e (finds_ofExcept.1 h).symm

theorem bind {a : Action α} {f : α → Action β} (ha : FailsWith φ a) (hf : ∀ x, FailsWith φ (f x)) :
    FailsWith φ (a >>= f) := by
  intro t e h
  rcases finds_bind.1 h with ⟨d, hd, he⟩ | ⟨x, -, hx⟩
  · obtain rfl := Except.error.inj he
    exact ha hd
  · exact hf x hx

theorem ite {p : Prop} [Decidable p] {a b : Action α} (ha : FailsWith φ a) (hb : FailsWith φ b) :
    FailsWith φ (if p then a else b) := by
  split
  · exact ha
  · exact hb

theorem store {c : Store.Call} (hc : isReading c = true) : FailsWith φ (Action.store c) := by
  intro t e h
  have hans := (finds_store hc).1 h
  cases c with
  | getRun | getStep | listSteps | findStep => cases hans
  | _ => cases hc

end FailsWith

theorem failsWith_fetchStep (run : Uid) (current : Option StepInstance) (name : String) :
    FailsWith OfExpression (fetchStep run current name) := by
  unfold fetchStep
  split
  · split
    · exact .pure _
    · exact .throw (.inl rfl)
  · refine .bind (.store rfl) fun found ↦ ?_
    split
    · exact .pure _
    · exact .throw (.inl rfl)

theorem failsWith_fetchSteps (run : Uid) (current : Option StepInstance) (names : List String)
    (steps : NamedSteps) : FailsWith OfExpression (fetchSteps run current names steps) := by
  induction names generalizing steps with
  | nil => exact .pure _
  | cons name rest ih =>
    unfold fetchSteps
    split
    · exact ih steps
    · exact .bind (failsWith_fetchStep run current name) fun _ ↦ ih _

theorem failsWith_evaluateSwitch (step : StepInstance) (text : String) :
    FailsWith OfExpression (evaluateSwitch step text) := by
  have hevaluate : FailsWith OfExpression (evaluate step.workflowInstanceUid text (some step)) :=
    .bind (.ofExcept fun _ ↦ ofExpression_parseSource) fun source ↦
      .bind (failsWith_fetchSteps _ _ (stepNames source) []) fun _ ↦
        .bind (.ofExcept fun _ ↦ ofExpression_bindReferences) fun _ ↦
          .ofExcept fun _ ↦ ofExpression_evaluate
  exact .bind hevaluate fun _ ↦ .pure _

theorem failsWith_evaluateStop (step : StepInstance) (text : String) :
    FailsWith OfExpression (evaluateStop step text) := by
  refine .bind (.ofExcept fun _ ↦ ofExpression_parseSource) fun source ↦
    .bind (failsWith_fetchSteps _ _ (stepNames source) []) fun _ ↦
      .bind (.ofExcept fun _ ↦ ofExpression_bindReferences) fun bindings ↦ .ofExcept fun e he ↦ ?_
  cases hv : source.evaluate (Dict.insert runCountVariable (.int step.runCount) bindings) with
  | error d =>
    rw [hv] at he
    obtain rfl : d = e := Except.error.inj he
    exact ofExpression_evaluate hv
  | ok v =>
    rw [hv] at he
    exact ofExpression_asBool he

/-- The input of a step fails to be found for a reason that lies in one of its formulas. -/
theorem failsWith_normalize (input : Json.Object) (run : Uid) (current : Option StepInstance) :
    FailsWith OfExpression (normalize input run current) := by
  refine .bind (.ofExcept fun e he ↦ ?_) fun sources ↦ .ite (.pure _) ?_
  · obtain ⟨_, -, h⟩ := exists_error_of_mapM he
    exact ofExpression_parseSource h
  refine .bind (failsWith_fetchSteps run current _ []) fun _ ↦ .bind (.ofExcept fun e he ↦ ?_)
    fun _ ↦ .pure _
  obtain ⟨_, -, h⟩ := exists_error_of_mapM he
  exact ofExpression_evaluateFormula h

/-- What follows a step is not found for a reason that lies in its stop condition. -/
theorem failsWith_nextStep (step : StepInstance) : FailsWith OfExpression (nextStep step) := by
  have hlink : FailsWith OfExpression (followLink step) := by
    unfold followLink
    split
    · exact .store rfl
    · exact .pure _
  by_cases h : ∃ f text, step.shape = .doWhile f text
  · obtain ⟨f, text, h⟩ := h
    rw [nextStep_of_loop h]
    exact .bind (failsWith_evaluateStop _ _) fun _ ↦ .ite hlink (.pure _)
  · rw [nextStep_of_not_loop fun f text hs ↦ h ⟨f, text, hs⟩]
    exact hlink

end Engine

end Orchestration
