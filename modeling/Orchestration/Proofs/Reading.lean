import Orchestration.Proofs.Execution

/-!
# Actions whose course is fixed

An action that asks nothing but what the store knows comes to the same outcome in every execution
from the same records, and leaves the scene as it is. That outcome is a function of the records
(`valueIn?`), which is undefined for an action that asks anything else. `Finds t a o` says that it
is `o`.

Like executions, what an action finds is read off with one equivalence for each way of building an
action. An action that finds something in all records (`Reads`) leaves every scene as it is, and
every execution of it ends with what it finds.

An action that writes has a fixed course too, as long as it asks the store alone: `Writes t a x t'`
says that it turns the records `t` into `t'` and answers `x`.
-/

namespace Orchestration

namespace Engine

variable {α β : Type} {t : Store.Tables}

/-- Whether a call of the store leaves its records as they are. -/
def isReading : Store.Call → Bool
  | .getRun _ | .getStep _ | .listSteps _ | .findStep .. => true
  | _ => false

/-- What a program comes to that only reads. -/
def valueIn? (t : Store.Tables) : Program Call.Answer α → Option α
  | .done a => some a
  | .call (.store c) next => if isReading c then valueIn? t (next (t.answer c).1) else none
  | .call _ _ => none

/-- An action that only reads comes to an outcome, given the records of the store. -/
def Finds (t : Store.Tables) (a : Action α) (o : Except EngineError α) : Prop :=
  valueIn? t a.run = some o

theorem valueIn?_bind (p : Program Call.Answer α) (k : α → Program Call.Answer β) :
    valueIn? t (p >>= k) = (valueIn? t p).bind fun a ↦ valueIn? t (k a) := by
  induction p with
  | done a => rfl
  | call c next ih =>
    rw [Program.call_bind]
    cases c with
    | store c =>
      by_cases hc : isReading c = true
      · simp only [valueIn?, hc, if_true]
        exact ih _
      · simp only [valueIn?, hc, if_false, Option.bind_none, Bool.false_eq_true]
    | _ => rfl

/-! ## The ways of building an action -/

theorem finds_pure {x : α} {o : Except EngineError α} : Finds t (pure x) o ↔ o = .ok x := by
  show some (Except.ok x) = some o ↔ o = .ok x
  rw [Option.some.injEq, eq_comm]

theorem finds_throw {e : EngineError} {o : Except EngineError α} :
    Finds t (throw e) o ↔ o = .error e := by
  show some (Except.error e) = some o ↔ o = .error e
  rw [Option.some.injEq, eq_comm]

theorem finds_ofExcept {x o : Except EngineError α} : Finds t (Action.ofExcept x) o ↔ o = x := by
  show some x = some o ↔ o = x
  rw [Option.some.injEq, eq_comm]

/-- An action followed by another finds the failure of the first, or what the other finds then. -/
theorem finds_bind {a : Action α} {f : α → Action β} {o : Except EngineError β} :
    Finds t (a >>= f) o ↔
      (∃ e, Finds t a (.error e) ∧ o = .error e) ∨ ∃ x, Finds t a (.ok x) ∧ Finds t (f x) o := by
  have hrun : Finds t (a >>= f) o ↔
      ((valueIn? t a.run).bind fun x ↦ valueIn? t (ExceptT.bindCont f x)) = some o := by
    rw [← valueIn?_bind]
    rfl
  rw [hrun, Option.bind_eq_some_iff]
  constructor
  · rintro ⟨x, hx, ho⟩
    cases x with
    | error e =>
      obtain rfl : Except.error e = o := Option.some.inj ho
      exact .inl ⟨e, hx, rfl⟩
    | ok x => exact .inr ⟨x, hx, ho⟩
  · rintro (⟨e, he, rfl⟩ | ⟨x, hx, ho⟩)
    · exact ⟨.error e, he, rfl⟩
    · exact ⟨.ok x, hx, ho⟩

theorem finds_attempt {a : Action α} {o : Except EngineError (Except EngineError α)} :
    Finds t (Action.attempt a) o ↔ ∃ x, Finds t a x ∧ o = .ok x := by
  have hrun : Finds t (Action.attempt a) o ↔
      ((valueIn? t a.run).bind fun x ↦ some (Except.ok x)) = some o := by
    rw [show (fun x ↦ some (Except.ok x) :
        Except EngineError α → Option (Except EngineError (Except EngineError α))) =
      fun x ↦ valueIn? t (.done (.ok x)) from rfl, ← valueIn?_bind]
    rfl
  rw [hrun, Option.bind_eq_some_iff]
  exact ⟨fun ⟨x, hx, ho⟩ ↦ ⟨x, hx, (Option.some.inj ho).symm⟩, fun ⟨x, hx, ho⟩ ↦ ⟨x, hx, ho ▸ rfl⟩⟩

theorem finds_store {c : Store.Call} (hc : isReading c = true) {o : Except EngineError c.Value} :
    Finds t (Action.store c) o ↔ o = (t.answer c).1 := by
  have hrun : Finds t (Action.store c) o ↔ some (t.answer c).1 = some o := by
    show (if isReading c then valueIn? t (.done (t.answer c).1) else none) = some o ↔ _
    rw [if_pos hc]
    rfl
  rw [hrun, Option.some.injEq, eq_comm]

theorem Finds.unique {a : Action α} {o o' : Except EngineError α} (h : Finds t a o)
    (h' : Finds t a o') : o = o' := Option.some.inj (h.symm.trans h')

/-! ## Executions of actions that only read -/

variable {R : Rule} {s s' : Scene}

private theorem answer_of_isReading {c : Store.Call} (hc : isReading c = true)
    (t : Store.Tables) : (t.answer c).2 = t ∧ Scene.madeBy c = [] := by
  cases c with
  | getRun | getStep | listSteps | findStep => exact ⟨rfl, rfl⟩
  | _ => cases hc

theorem afterStore_of_isReading {c : Store.Call} (hc : isReading c = true) (s : Scene) :
    s.afterStore c = s := by
  obtain ⟨htables, hmade⟩ := answer_of_isReading hc s.tables
  simp only [Scene.afterStore, htables, hmade, List.append_nil]

private theorem leads_of_valueIn? {p : Program Call.Answer α} {x a : α}
    (hp : valueIn? s.tables p = some x) (h : Leads R p s a s') : a = x ∧ s' = s := by
  induction p with
  | done b =>
    obtain rfl := Option.some.inj hp
    exact h
  | call c next ih =>
    cases c with
    | store c =>
      unfold valueIn? at hp
      split at hp
      · next hc =>
        obtain ⟨answer, rfl, -, h⟩ := h
        have hafter : s.after (.store c) (s.tables.answer c).1 = s := afterStore_of_isReading hc s
        rw [hafter] at h
        exact ih _ hp h
      · cases hp
    | _ => cases hp

private theorem leads_valueIn? (hR : ∀ c a, R (.store c) a) {p : Program Call.Answer α} {x : α}
    (hp : valueIn? s.tables p = some x) : Leads R p s x s := by
  induction p with
  | done b => exact ⟨(Option.some.inj hp).symm, rfl⟩
  | call c next ih =>
    cases c with
    | store c =>
      unfold valueIn? at hp
      split at hp
      · next hc =>
        refine ⟨(s.tables.answer c).1, rfl, hR _ _, ?_⟩
        show Leads R (next (s.tables.answer c).1) (s.afterStore c) x s
        rw [afterStore_of_isReading hc]
        exact ih _ hp
      · cases hp
    | _ => cases hp

/-- An execution ends with what is found, and where it has begun. -/
theorem Finds.of_runs {a : Action α} {o r : Except EngineError α} (h : Finds s.tables a o)
    (hrun : Runs R a s r s') : r = o ∧ s' = s := leads_of_valueIn? h hrun

/-- Where the store answers, an action that only reads has an execution. -/
theorem Finds.runs {a : Action α} {o : Except EngineError α} (h : Finds s.tables a o)
    (hR : ∀ c a, R (.store c) a) : Runs R a s o s := leads_valueIn? hR h

theorem Finds.next {a : Action α} {f : α → Action β} {x : α} {r : Except EngineError β}
    (h : Finds s.tables a (.ok x)) (hrun : Runs R (a >>= f) s r s') : Runs R (f x) s r s' := by
  rcases runs_bind.1 hrun with ⟨e, h₁, -⟩ | ⟨y, s₁, h₁, h₂⟩
  · cases (h.of_runs h₁).1
  · obtain ⟨hy, rfl⟩ := h.of_runs h₁
    exact Except.ok.inj hy ▸ h₂

theorem Finds.fails {a : Action α} {f : α → Action β} {e : EngineError} {r : Except EngineError β}
    (h : Finds s.tables a (.error e)) (hrun : Runs R (a >>= f) s r s') :
    r = .error e ∧ s' = s := by
  rcases runs_bind.1 hrun with ⟨e', h₁, rfl⟩ | ⟨y, s₁, h₁, h₂⟩
  · obtain ⟨he, rfl⟩ := h.of_runs h₁
    exact ⟨by rw [Except.error.inj he], rfl⟩
  · cases (h.of_runs h₁).1

/-! ## Reading -/

/-- An action only reads, whatever the records are. -/
def Reads (a : Action α) : Prop := ∀ t, ∃ o, Finds t a o

namespace Reads

theorem pure (x : α) : Reads (Pure.pure x : Action α) := fun _ ↦ ⟨_, finds_pure.2 rfl⟩

theorem throw (e : EngineError) : Reads (throw e : Action α) := fun _ ↦ ⟨_, finds_throw.2 rfl⟩

theorem ofExcept (x : Except EngineError α) : Reads (Action.ofExcept x) :=
  fun _ ↦ ⟨_, finds_ofExcept.2 rfl⟩

theorem bind {a : Action α} {f : α → Action β} (ha : Reads a) (hf : ∀ x, Reads (f x)) :
    Reads (a >>= f) := by
  intro t
  obtain ⟨o, ho⟩ := ha t
  cases o with
  | error e => exact ⟨_, finds_bind.2 (.inl ⟨e, ho, rfl⟩)⟩
  | ok x =>
    obtain ⟨o', ho'⟩ := hf x t
    exact ⟨o', finds_bind.2 (.inr ⟨x, ho, ho'⟩)⟩

theorem attempt {a : Action α} (ha : Reads a) : Reads (Action.attempt a) := by
  intro t
  obtain ⟨o, ho⟩ := ha t
  exact ⟨_, finds_attempt.2 ⟨o, ho, rfl⟩⟩

theorem ite {p : Prop} [Decidable p] {a b : Action α} (ha : Reads a) (hb : Reads b) :
    Reads (if p then a else b) := by
  split
  · exact ha
  · exact hb

theorem store {c : Store.Call} (hc : isReading c = true) : Reads (Action.store c) :=
  fun _ ↦ ⟨_, (finds_store hc).2 rfl⟩

theorem of_runs {a : Action α} (ha : Reads a) {r : Except EngineError α}
    (hrun : Runs R a s r s') : Finds s.tables a r ∧ s' = s := by
  obtain ⟨o, ho⟩ := ha s.tables
  obtain ⟨rfl, rfl⟩ := ho.of_runs hrun
  exact ⟨ho, rfl⟩

theorem still {a : Action α} (ha : Reads a) : Still a := fun _ _ _ _ h ↦ (ha.of_runs h).2

end Reads

/-! ## Writing -/

/-- An action turns the records of the store into others, and does nothing else. -/
def Writes (t : Store.Tables) (a : Action α) (x : α) (t' : Store.Tables) : Prop :=
  ∀ ⦃R s r s'⦄, s.tables = t → Runs R a s r s' → r = .ok x ∧ s' = { s with tables := t' }

theorem Writes.store {c : Store.Call} {x : c.Value} (hx : (t.answer c).1 = .ok x)
    (hmade : Scene.madeBy c = []) : Writes t (Action.store c) x (t.answer c).2 := by
  rintro R s r s' rfl h
  obtain ⟨rfl, -, rfl⟩ := runs_store.1 h
  exact ⟨hx, by simp only [Scene.afterStore, hmade, List.append_nil]⟩

theorem Finds.writes {a : Action α} {x : α} (h : Finds t a (.ok x)) : Writes t a x t := by
  rintro R s r s' rfl hrun
  exact h.of_runs hrun

theorem Writes.pure (x : α) : Writes t (pure x : Action α) x t := (finds_pure.2 rfl).writes

theorem Writes.bind {a : Action α} {f : α → Action β} {x : α} {y : β} {t' t'' : Store.Tables}
    (ha : Writes t a x t') (hf : Writes t' (f x) y t'') : Writes t (a >>= f) y t'' := by
  rintro R s r s' hs hrun
  rcases runs_bind.1 hrun with ⟨e, h₁, -⟩ | ⟨z, s₁, h₁, h₂⟩
  · cases (ha hs h₁).1
  · obtain ⟨hz, rfl⟩ := ha hs h₁
    obtain rfl := Except.ok.inj hz
    exact @hf R { s with tables := t' } r s' rfl h₂

theorem Writes.next {a : Action α} {f : α → Action β} {x : α} {t' : Store.Tables}
    {r : Except EngineError β} (h : Writes s.tables a x t') (hrun : Runs R (a >>= f) s r s') :
    Runs R (f x) { s with tables := t' } r s' := by
  rcases runs_bind.1 hrun with ⟨e, h₁, -⟩ | ⟨y, s₁, h₁, h₂⟩
  · cases (h rfl h₁).1
  · obtain ⟨hy, rfl⟩ := h rfl h₁
    exact Except.ok.inj hy ▸ h₂

theorem Runs.of_now {f : Instant → Action β} {r : Except EngineError β}
    (hrun : Runs R (Action.now >>= f) s r s') : ∃ time, Runs R (f time) s r s' := by
  rcases runs_bind.1 hrun with ⟨e, h₁, -⟩ | ⟨time, s₁, h₁, h₂⟩
  · obtain ⟨_, -, he, -⟩ := runs_now.1 h₁
    cases he
  · exact ⟨time, Still.now h₁ ▸ h₂⟩

end Engine

end Orchestration
