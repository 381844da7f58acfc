import Orchestration.Engine.Formula
import Orchestration.Proofs.OrderFree
import Orchestration.Proofs.Reading

/-!
# Expressions over a step and over its run

An expression reads the steps that it names, so what it says depends on the records of the store. A
stop condition that names no step but its own (`RefersToSelf`) needs no record: its value is that of
the step alone (`stopValue`, `evaluateStop_eq`), and it stays what it is until the step changes. If
it does not depend on the order of members either, it is what every evaluation says
(`stopValue_of_reordered`).

An expression does nothing but read.
-/

namespace Orchestration

namespace Engine

open Expression (parseSource Source DataReference OrderFree)

variable {α β : Type}

/-! ## Expressions only read -/

theorem reads_fetchStep (run : Uid) (current : Option StepInstance) (name : String) :
    Reads (fetchStep run current name) := by
  unfold fetchStep
  split
  · split
    · exact .pure _
    · exact .throw _
  · refine .bind (.store rfl) fun found ↦ ?_
    split
    · exact .pure _
    · exact .throw _

theorem reads_fetchSteps (run : Uid) (current : Option StepInstance) (names : List String)
    (steps : NamedSteps) : Reads (fetchSteps run current names steps) := by
  induction names generalizing steps with
  | nil => exact .pure _
  | cons name rest ih =>
    unfold fetchSteps
    split
    · exact ih steps
    · exact .bind (reads_fetchStep run current name) fun _ ↦ ih _

theorem reads_evaluate (run : Uid) (text : String) (current : Option StepInstance) :
    Reads (evaluate run text current) :=
  .bind (.ofExcept _) fun source ↦
    .bind (reads_fetchSteps run current (stepNames source) []) fun _ ↦
      .bind (.ofExcept _) fun _ ↦ .ofExcept _

theorem reads_evaluateSwitch (step : StepInstance) (text : String) :
    Reads (evaluateSwitch step text) :=
  .bind (reads_evaluate _ _ _) fun _ ↦ .pure _

theorem reads_evaluateStop (step : StepInstance) (text : String) :
    Reads (evaluateStop step text) :=
  .bind (.ofExcept _) fun source ↦
    .bind (reads_fetchSteps _ _ (stepNames source) []) fun _ ↦
      .bind (.ofExcept _) fun _ ↦ .ofExcept _

theorem reads_normalize (input : Json.Object) (run : Uid) (current : Option StepInstance) :
    Reads (normalize input run current) := by
  refine .bind (.ofExcept _) fun sources ↦ ?_
  refine .ite (.pure _) ?_
  exact .bind (reads_fetchSteps run current _ []) fun _ ↦
    .bind (.ofExcept _) fun _ ↦ .pure _

/-! ## Conditions over the step alone -/

/-- An expression names no step but its own. -/
def RefersToSelf (text : String) : Prop :=
  ∀ source, parseSource text = .ok source → ∀ name ∈ stepNames source, name = "self"

instance (text : String) : Decidable (RefersToSelf text) :=
  match h : parseSource text with
  | .error _ => isTrue fun source hs ↦ by
    rw [h] at hs
    cases hs
  | .ok source =>
    decidable_of_iff (∀ name ∈ stepNames source, name = "self") <| by
      unfold RefersToSelf
      rw [h]
      exact ⟨fun hn _ hs ↦ Except.ok.inj hs ▸ hn, fun hn ↦ hn source rfl⟩

/-- What a stop condition says that names no step but its own. -/
def stopValue (step : StepInstance) (text : String) : Except EngineError Bool := do
  let source ← parseSource text
  let bindings ← bindReferences [("self", step)] source
  let v ← source.evaluate (Dict.insert runCountVariable (.int step.runCount) bindings)
  Expression.asBool text v

private theorem fetchSteps_self_found (run : Uid) (step : StepInstance) {names : List String}
    (h : ∀ name ∈ names, name = "self") :
    fetchSteps run (some step) names [("self", step)] = pure [("self", step)] := by
  induction names with
  | nil => rfl
  | cons name rest ih =>
    obtain rfl := h name List.mem_cons_self
    have hfound : (List.lookup "self" [("self", step)]).isSome := rfl
    rw [fetchSteps, if_pos hfound]
    exact ih fun n hn ↦ h n (List.mem_cons_of_mem _ hn)

private theorem fetchSteps_self (run : Uid) (step : StepInstance) {names : List String}
    (h : ∀ name ∈ names, name = "self") :
    fetchSteps run (some step) names [] =
      pure (if names.isEmpty then [] else [("self", step)]) := by
  cases names with
  | nil => rfl
  | cons name rest =>
    obtain rfl := h name List.mem_cons_self
    exact fetchSteps_self_found run step fun n hn ↦ h n (List.mem_cons_of_mem _ hn)

/-- Without references it is of no account which steps have been fetched. -/
private theorem bindReferences_of_isEmpty {source : Source} (h : (stepNames source).isEmpty)
    (steps steps' : NamedSteps) : bindReferences steps source = bindReferences steps' source := by
  have hnil : source.references = [] := List.map_eq_nil_iff.1 (List.isEmpty_iff.1 h)
  rw [bindReferences, bindReferences, hnil, List.mapM_nil, List.mapM_nil]

theorem ofExcept_bind (e : Except EngineError α) (f : α → Except EngineError β) :
    (Action.ofExcept e >>= fun x ↦ Action.ofExcept (f x)) = Action.ofExcept (e >>= f) := by
  cases e with
  | error e => rfl
  | ok x => rfl

/-- **A stop condition over its step alone asks nothing of the store.** -/
theorem evaluateStop_eq {text : String} (h : RefersToSelf text) (step : StepInstance) :
    evaluateStop step text = Action.ofExcept (stopValue step text) := by
  unfold evaluateStop stopValue
  cases hp : parseSource text with
  | error e => rfl
  | ok source =>
    have hself := h source hp
    have hbind : bindReferences (if (stepNames source).isEmpty then [] else [("self", step)])
        source = bindReferences [("self", step)] source := by
      by_cases hempty : (stepNames source).isEmpty
      · exact bindReferences_of_isEmpty hempty _ _
      · rw [if_neg hempty]
    show (fetchSteps step.workflowInstanceUid (some step) (stepNames source) [] >>=
      fun steps ↦ _) = _
    rw [fetchSteps_self _ step hself, pure_bind, hbind]
    exact ofExcept_bind _ _

/-! ## In every order -/

private theorem canonical_of_child? {j k : Json} {segment : String} (hj : j.canonical = j)
    (h : Expression.child? j segment = some k) : k.canonical = k := by
  cases j with
  | obj members =>
    obtain ⟨-, hvalues⟩ := Json.canonicalMembers_eq_self_iff.1 (Json.obj.inj hj)
    exact hvalues _ (Dict.mem_of_get? h)
  | arr items =>
    have hitems : ∀ {l : List Json}, Json.canonicalItems l = l → ∀ i ∈ l, i.canonical = i := by
      intro l hl
      induction l with
      | nil => simp
      | cons i rest ih =>
        obtain ⟨hi, hrest⟩ := List.cons.inj hl
        exact List.forall_mem_cons.2 ⟨hi, ih hrest⟩
    obtain ⟨i, -, hi⟩ := Option.bind_eq_some_iff.1 h
    exact hitems (Json.arr.inj hj) k (List.mem_of_getElem? hi)
  | _ => cases h

private theorem canonical_of_follow? {j k : Json} {path : List String} (hj : j.canonical = j)
    (h : Expression.follow? j path = some k) : k.canonical = k := by
  induction path generalizing j with
  | nil => exact Option.some.inj h ▸ hj
  | cons segment rest ih =>
    obtain ⟨child, hchild, hrest⟩ := Option.bind_eq_some_iff.1 h
    exact ih (canonical_of_child? hj hchild) hrest

private theorem canonical_of_resolve {p : Expression.DataPath} {data : Json.Object} {k : Json}
    (hdata : Json.canonicalMembers data = data) (h : p.resolve data = .ok k) : k.canonical = k := by
  unfold Expression.DataPath.resolve at h
  split at h
  · next j hj =>
    obtain rfl := Except.ok.inj h
    unfold Expression.DataPath.resolve? at hj
    split at hj
    · cases hj
    · obtain ⟨first, hfirst, hrest⟩ := Option.bind_eq_some_iff.1 hj
      exact canonical_of_follow?
        ((Json.canonicalMembers_eq_self_iff.1 hdata).2 _ (Dict.mem_of_get? hfirst)) hrest
  · cases h

/-- Successful actions on the items of a list are successful one by one. -/
theorem of_mapM_ok {ε : Type} {f : α → Except ε β} {xs : List α} {ys : List β}
    (h : xs.mapM f = .ok ys) :
    (∀ x ∈ xs, ∃ y ∈ ys, f x = .ok y) ∧ ∀ y ∈ ys, ∃ x ∈ xs, f x = .ok y := by
  induction xs generalizing ys with
  | nil =>
    obtain rfl := Except.ok.inj h
    exact ⟨fun _ hx ↦ (nomatch hx), fun _ hy ↦ nomatch hy⟩
  | cons x rest ih =>
    rw [List.mapM_cons] at h
    cases hx : f x with
    | error => rw [hx] at h; cases h
    | ok y =>
      cases hrest : rest.mapM f with
      | error => rw [hx, hrest] at h; cases h
      | ok others =>
        rw [hx, hrest] at h
        obtain rfl := Except.ok.inj h
        obtain ⟨hleft, hright⟩ := ih hrest
        refine ⟨fun z hz ↦ ?_, fun z hz ↦ ?_⟩
        · rcases List.mem_cons.1 hz with rfl | hz
          · exact ⟨y, List.mem_cons_self, hx⟩
          · exact (hleft z hz).imp fun _ h ↦ ⟨List.mem_cons_of_mem _ h.1, h.2⟩
        · rcases List.mem_cons.1 hz with rfl | hz
          · exact ⟨x, List.mem_cons_self, hx⟩
          · exact (hright z hz).imp fun _ h ↦ ⟨List.mem_cons_of_mem _ h.1, h.2⟩

private theorem canonical_of_bindReferences {steps : NamedSteps} {source : Source} {b : Dict Json}
    (hsteps : ∀ name x, steps.lookup name = some x →
      ∀ side, Json.canonicalMembers (x.data side) = x.data side)
    (h : bindReferences steps source = .ok b) : ∀ e ∈ b, e.2.canonical = e.2 := by
  obtain ⟨entries, hentries, rfl⟩ : ∃ entries, source.references.mapM (bindReference steps) =
      .ok entries ∧ Dict.ofList entries = b := by
    unfold bindReferences at h
    cases hm : source.references.mapM (bindReference steps) with
    | error e => rw [hm] at h; cases h
    | ok entries => rw [hm] at h; exact ⟨entries, rfl, Except.ok.inj h⟩
  intro e he
  obtain ⟨r, -, hr⟩ := (of_mapM_ok hentries).2 e (Dict.mem_of_mem_ofList he)
  unfold bindReference at hr
  split at hr
  · next x hx =>
    cases hj : r.target.resolve (x.data r.target.side) with
    | error err => rw [hj] at hr; cases hr
    | ok j =>
      rw [hj] at hr
      obtain rfl := Except.ok.inj hr
      exact canonical_of_resolve (hsteps _ x hx _) hj
  · cases hr

/-- **A stop condition that does not depend on the order says the same at every evaluation.** -/
theorem stopValue_of_reordered {text : String} (h : OrderFree text) {step : StepInstance}
    (hstep : ∀ side, Json.canonicalMembers (step.data side) = step.data side) {source : Source}
    (hsource : parseSource text = .ok source) {b b' : Dict Json}
    (hb : bindReferences [("self", step)] source = .ok b)
    (hspells : Json.SpellsMembers (fun _ ↦ .data)
      (Dict.insert runCountVariable (.int step.runCount) b) b') :
    (source.evaluate b' >>= Expression.asBool text) = stopValue step text := by
  have hcanonical : ∀ e ∈ Dict.insert runCountVariable (.int step.runCount) b,
      e.2.canonical = e.2 := by
    intro e he
    rcases Dict.eq_or_mem_of_mem_insert he with rfl | he
    · rfl
    · refine canonical_of_bindReferences (fun name x hx ↦ ?_) hb e he
      obtain rfl : x = step := by
        rw [List.lookup_cons] at hx
        split at hx
        · exact (Option.some.inj hx).symm
        · cases hx
      exact hstep
  rw [h source hsource _ _ hcanonical hspells, stopValue, hsource]
  show _ = (do
    let bindings ← bindReferences [("self", step)] source
    let v ← source.evaluate (Dict.insert runCountVariable (.int step.runCount) bindings)
    Expression.asBool text v)
  rw [hb]
  rfl

end Engine

end Orchestration
