import Orchestration.Engine.Call
import Orchestration.Store.Tables

/-!
# Executions

An action says what it asks, not what it is answered. Here the answers come from a scene: the
records of the store, the identifiers that have been given out, the runs that have been made and
everything that has been sent off. The store always answers from its records and no identifier is
given out twice. The clock, the queue, the catalogs and the functions may answer anything, failures
included, so an action has many executions from one scene.

`Runs R a s r s'` says that the action `a` may go from the scene `s` to the scene `s'` with the
outcome `r`, where every answer obeys the rule `R`. A rule narrows down what the collaborators do:
that no call fails, say. What an action does is read off its executions with one equivalence for
each way of building an action (`runs_bind` and those after it), and from them come the two ways in
which most actions are used below: those that leave every scene as it is (`Still`) and those that
keep an invariant (`Keeps`).

Announcements are not recorded, because nobody acts on them, and neither is work in the background,
because it may go on at any time anyway.
-/

namespace Orchestration

namespace Engine

variable {α β : Type}

/-! ## Scenes -/

/-- What the engine sends off: a message on a channel, or a document to an address. -/
inductive Parcel where
  | message (channel : Channel) (payload : String)
  | request (address body : String)
deriving DecidableEq, Repr, Inhabited

/-- A parcel that has been sent off, and whether it was taken. -/
structure Sending where
  parcel : Parcel
  accepted : Bool
deriving DecidableEq, Repr, Inhabited

/-- What the engine acts on and leaves behind. -/
structure Scene where
  tables : Store.Tables := {}
  /-- The identifiers that have been given out. -/
  issued : List Uid := []
  /-- The runs with their steps as they were put into the store. -/
  made : List (WorkflowInstance × List StepInstance) := []
  /-- What has been sent off, announcements aside. -/
  sent : List Sending := []
deriving DecidableEq, Repr, Inhabited

namespace Scene

/-- The run that a call of the store puts in. -/
def madeBy : Store.Call → List (WorkflowInstance × List StepInstance)
  | .insertRun run steps => [(run, steps)]
  | _ => []

/-- The scene after a call of the store. -/
def afterStore (s : Scene) (c : Store.Call) : Scene :=
  { s with tables := (s.tables.answer c).2, made := s.made ++ madeBy c }

/-- The scene after a parcel has been sent off. -/
def send (s : Scene) (p : Parcel) (accepted : Bool) : Scene :=
  { s with sent := s.sent ++ [⟨p, accepted⟩] }

/-- The scene after an identifier has been given out. -/
def issue (s : Scene) (u : Uid) : Scene := { s with issued := s.issued ++ [u] }

/-- The scene after a message has been published. -/
def publish (s : Scene) (channel : Channel) (payload : String) (accepted : Bool) : Scene :=
  if channel = .notifications then s else s.send (.message channel payload) accepted

/-- The scene after a call and its answer. -/
def after (s : Scene) : (c : Call) → c.Answer → Scene
  | .store c, _ => s.afterStore c
  | .publish channel payload, a => s.publish channel payload (Except.isOk a)
  | .post address body, a => s.send (.request address body) (Except.isOk a)
  | .newUid, u => s.issue u
  | .getFunction _, _ | .deployFunction _, _ | .getWorkflow _, _ | .getStepList _, _ | .now, _
  | .spawn _, _ => s

/-- The answers that a call may get: the store answers from its records, and an identifier is a new
one. -/
def Admits (s : Scene) : (c : Call) → c.Answer → Prop
  | .store c, a => a = (s.tables.answer c).1
  | .newUid, u => u ∉ s.issued
  | .publish .., _ | .post .., _ | .getFunction _, _ | .deployFunction _, _ | .getWorkflow _, _
  | .getStepList _, _ | .now, _ | .spawn _, _ => True

end Scene

/-! ## Executions -/

/-- What the collaborators may answer. -/
abbrev Rule : Type := (c : Call) → c.Answer → Prop

/-- The rule that allows every answer. -/
def anyAnswer : Rule := fun _ _ => True

/-- The rule that no call of the queue or of a catalog fails. A catalog may not know what it is
asked for, and a function that is called at its address may answer anything. -/
def noFailure : Rule
  | .publish .., a | .deployFunction _, a => Except.isOk a = true
  | .getFunction _, a => ∀ e, a = .error e → e.kind = .notFound
  | .getWorkflow _, a => ∀ e, a = .error e → e.kind = .notFound
  | .getStepList _, a => ∀ e, a = .error e → e.kind = .notFound
  | .store _, _ | .post .., _ | .now, _ | .newUid, _ | .spawn _, _ => True

/-- A program may go from one scene to another with a result. -/
def Leads (R : Rule) : Program Call.Answer α → Scene → α → Scene → Prop
  | .done a, s, b, s' => b = a ∧ s' = s
  | .call c next, s, b, s' =>
    ∃ answer, s.Admits c answer ∧ R c answer ∧ Leads R (next answer) (s.after c answer) b s'

/-- An action may go from one scene to another with an outcome. -/
def Runs (R : Rule) (a : Action α) (s : Scene) (r : Except EngineError α) (s' : Scene) : Prop :=
  Leads R a.run s r s'

/-- A rule that lets the store, the clock and new identifiers answer anything, and has some answer
to every announcement. -/
structure Lenient (R : Rule) : Prop where
  store : ∀ c a, R (.store c) a
  now : ∀ time, R .now time
  newUid : ∀ u, R .newUid u
  spawn : ∀ task, R (.spawn task) ()
  notify : ∀ payload, ∃ a, R (.publish .notifications payload) a

variable {R : Rule} {s s' : Scene}

theorem leads_bind {p : Program Call.Answer α} {k : α → Program Call.Answer β} {b : β} :
    Leads R (p >>= k) s b s' ↔ ∃ a s₁, Leads R p s a s₁ ∧ Leads R (k a) s₁ b s' := by
  induction p generalizing s with
  | done a =>
    constructor
    · intro h
      exact ⟨a, s, ⟨rfl, rfl⟩, h⟩
    · rintro ⟨_, _, ⟨rfl, rfl⟩, h⟩
      exact h
  | call c next ih =>
    constructor
    · rintro ⟨answer, hadm, hR, h⟩
      obtain ⟨a, s₁, h₁, h₂⟩ := (ih answer).1 h
      exact ⟨a, s₁, ⟨answer, hadm, hR, h₁⟩, h₂⟩
    · rintro ⟨a, s₁, ⟨answer, hadm, hR, h₁⟩, h₂⟩
      exact ⟨answer, hadm, hR, (ih answer).2 ⟨a, s₁, h₁, h₂⟩⟩

/-! ### The ways of building an action -/

theorem runs_pure {x : α} {r : Except EngineError α} :
    Runs R (pure x) s r s' ↔ r = .ok x ∧ s' = s := Iff.rfl

theorem runs_throw {e : EngineError} {r : Except EngineError α} :
    Runs R (throw e) s r s' ↔ r = .error e ∧ s' = s := Iff.rfl

theorem runs_ofExcept {e r : Except EngineError α} :
    Runs R (Action.ofExcept e) s r s' ↔ r = e ∧ s' = s := Iff.rfl

/-- An action followed by another fails with the first, or goes on with its result. -/
theorem runs_bind {a : Action α} {f : α → Action β} {r : Except EngineError β} :
    Runs R (a >>= f) s r s' ↔
      (∃ e, Runs R a s (.error e) s' ∧ r = .error e) ∨
        ∃ x s₁, Runs R a s (.ok x) s₁ ∧ Runs R (f x) s₁ r s' := by
  have hrun : Runs R (a >>= f) s r s' ↔
      ∃ o s₁, Leads R a.run s o s₁ ∧ Leads R (ExceptT.bindCont f o) s₁ r s' := leads_bind
  rw [hrun]
  constructor
  · rintro ⟨o, s₁, h₁, h₂⟩
    cases o with
    | error e =>
      obtain ⟨rfl, rfl⟩ := h₂
      exact .inl ⟨e, h₁, rfl⟩
    | ok x => exact .inr ⟨x, s₁, h₁, h₂⟩
  · rintro (⟨e, h, rfl⟩ | ⟨x, s₁, h₁, h₂⟩)
    · exact ⟨.error e, s', h, rfl, rfl⟩
    · exact ⟨.ok x, s₁, h₁, h₂⟩

private theorem runs_lift {p : Program Call.Answer α} {r : Except EngineError α} :
    Runs R (ExceptT.lift p : Action α) s r s' ↔ ∃ x, Leads R p s x s' ∧ r = .ok x := by
  have hrun : Runs R (ExceptT.lift p : Action α) s r s' ↔
      Leads R (p >>= fun x ↦ .done (Except.ok x)) s r s' := Iff.rfl
  rw [hrun, leads_bind]
  constructor
  · rintro ⟨x, s₁, h, rfl, rfl⟩
    exact ⟨x, h, rfl⟩
  · rintro ⟨x, h, rfl⟩
    exact ⟨x, s', h, rfl, rfl⟩

private theorem leads_ask {c : Call} {x : c.Answer} :
    Leads R (Program.ask c) s x s' ↔ s.Admits c x ∧ R c x ∧ s' = s.after c x := by
  constructor
  · rintro ⟨answer, hadm, hR, rfl, rfl⟩
    exact ⟨hadm, hR, rfl⟩
  · rintro ⟨hadm, hR, rfl⟩
    exact ⟨x, hadm, hR, rfl, rfl⟩

theorem runs_attempt {a : Action α} {r : Except EngineError (Except EngineError α)} :
    Runs R (Action.attempt a) s r s' ↔ ∃ o, Runs R a s o s' ∧ r = .ok o := runs_lift

theorem runs_attempt_bind {a : Action α} {f : Except EngineError α → Action β}
    {r : Except EngineError β} :
    Runs R (Action.attempt a >>= f) s r s' ↔ ∃ o s₁, Runs R a s o s₁ ∧ Runs R (f o) s₁ r s' := by
  constructor
  · intro h
    rcases runs_bind.1 h with ⟨e, h₁, -⟩ | ⟨o, s₁, h₁, hrest⟩
    · obtain ⟨_, -, ho⟩ := runs_attempt.1 h₁
      cases ho
    · obtain ⟨o', h₁, ho⟩ := runs_attempt.1 h₁
      obtain rfl := Except.ok.inj ho
      exact ⟨o, s₁, h₁, hrest⟩
  · rintro ⟨o, s₁, h₁, hrest⟩
    exact runs_bind.2 (.inr ⟨o, s₁, runs_attempt.2 ⟨o, h₁, rfl⟩, hrest⟩)

/-! ### The calls -/

theorem runs_store {c : Store.Call} {r : Except EngineError c.Value} :
    Runs R (Action.store c) s r s' ↔
      r = (s.tables.answer c).1 ∧ R (.store c) r ∧ s' = s.afterStore c := leads_ask

theorem runs_publish {channel : Channel} {document : Json} {r : Except EngineError Unit} :
    Runs R (Action.publish channel document) s r s' ↔
      R (.publish channel document.text) r ∧
        s' = s.publish channel document.text (Except.isOk r) :=
  leads_ask.trans (.of_eq (true_and _))

theorem runs_post {address : String} {document : Json} {r : Except EngineError Http.Response} :
    Runs R (Action.post address document) s r s' ↔
      R (.post address document.text) r ∧
        s' = s.send (.request address document.text) (Except.isOk r) :=
  leads_ask.trans (.of_eq (true_and _))

theorem runs_getFunction {f : Uid} {r : Except EngineError FunctionInfo} :
    Runs R (Action.getFunction f) s r s' ↔ R (.getFunction f) r ∧ s' = s :=
  leads_ask.trans (.of_eq (true_and _))

theorem runs_deployFunction {f : Uid} {r : Except EngineError Unit} :
    Runs R (Action.deployFunction f) s r s' ↔ R (.deployFunction f) r ∧ s' = s :=
  leads_ask.trans (.of_eq (true_and _))

theorem runs_getWorkflow {w : Uid} {r : Except EngineError WorkflowDefinition} :
    Runs R (Action.getWorkflow w) s r s' ↔ R (.getWorkflow w) r ∧ s' = s :=
  leads_ask.trans (.of_eq (true_and _))

theorem runs_getStepList {w : Uid} {r : Except EngineError (List StepDefinition)} :
    Runs R (Action.getStepList w) s r s' ↔ R (.getStepList w) r ∧ s' = s :=
  leads_ask.trans (.of_eq (true_and _))

theorem runs_now {r : Except EngineError Instant} :
    Runs R Action.now s r s' ↔ ∃ time, R .now time ∧ r = .ok time ∧ s' = s := by
  refine runs_lift.trans ⟨?_, ?_⟩
  · rintro ⟨time, h, rfl⟩
    obtain ⟨-, hR, rfl⟩ := leads_ask.1 h
    exact ⟨time, hR, rfl, rfl⟩
  · rintro ⟨time, hR, rfl, rfl⟩
    exact ⟨time, leads_ask.2 ⟨trivial, hR, rfl⟩, rfl⟩

theorem runs_newUid {r : Except EngineError Uid} :
    Runs R Action.newUid s r s' ↔
      ∃ u, u ∉ s.issued ∧ R .newUid u ∧ r = .ok u ∧ s' = s.issue u := by
  refine runs_lift.trans ⟨?_, ?_⟩
  · rintro ⟨u, h, rfl⟩
    obtain ⟨hnew, hR, rfl⟩ := leads_ask.1 h
    exact ⟨u, hnew, hR, rfl, rfl⟩
  · rintro ⟨u, hnew, hR, rfl, rfl⟩
    exact ⟨u, leads_ask.2 ⟨hnew, hR, rfl⟩, rfl⟩

theorem runs_spawn {task : BackgroundTask} {r : Except EngineError Unit} :
    Runs R (Action.spawn task) s r s' ↔ R (.spawn task) () ∧ r = .ok () ∧ s' = s := by
  refine runs_lift.trans ⟨?_, ?_⟩
  · rintro ⟨x, h, rfl⟩
    obtain ⟨-, hR, rfl⟩ := leads_ask.1 h
    exact ⟨hR, rfl, rfl⟩
  · rintro ⟨hR, rfl, rfl⟩
    exact ⟨(), leads_ask.2 ⟨trivial, hR, rfl⟩, rfl⟩

/-! ## Actions that leave every scene as it is

Reading, looking something up, announcing and starting work in the background change nothing that is
recorded, and neither does anything that is built from them.
-/

/-- An action leaves every scene as it is. -/
def Still (a : Action α) : Prop := ∀ ⦃R s r s'⦄, Runs R a s r s' → s' = s

namespace Still

theorem pure (x : α) : Still (Pure.pure x : Action α) := fun _ _ _ _ h ↦ (runs_pure.1 h).2

theorem throw (e : EngineError) : Still (throw e : Action α) := fun _ _ _ _ h ↦ (runs_throw.1 h).2

theorem ofExcept (e : Except EngineError α) : Still (Action.ofExcept e) :=
  fun _ _ _ _ h ↦ (runs_ofExcept.1 h).2

theorem bind {a : Action α} {f : α → Action β} (ha : Still a) (hf : ∀ x, Still (f x)) :
    Still (a >>= f) := by
  intro R s r s' h
  rcases runs_bind.1 h with ⟨e, h, -⟩ | ⟨x, s₁, h₁, h₂⟩
  · exact ha h
  · rw [hf x h₂, ha h₁]

theorem attempt {a : Action α} (ha : Still a) : Still (Action.attempt a) := by
  intro R s r s' h
  obtain ⟨o, h, -⟩ := runs_attempt.1 h
  exact ha h

theorem ite {p : Prop} [Decidable p] {a b : Action α} (ha : Still a) (hb : Still b) :
    Still (if p then a else b) := by
  split
  · exact ha
  · exact hb

/-- A call of the store that reads is one that never changes its records. -/
theorem store {c : Store.Call} (h : ∀ t : Store.Tables, (t.answer c).2 = t)
    (hmade : Scene.madeBy c = []) : Still (Action.store c) := by
  intro R s r s' hrun
  obtain ⟨-, -, rfl⟩ := runs_store.1 hrun
  simp only [Scene.afterStore, h, hmade, List.append_nil]

theorem listSteps (run : Uid) : Still (Action.store (.listSteps run)) := store (fun _ ↦ rfl) rfl

theorem notify (document : Json) : Still (Action.publish .notifications document) :=
  fun _ _ _ _ h ↦ (runs_publish.1 h).2

theorem getFunction (f : Uid) : Still (Action.getFunction f) :=
  fun _ _ _ _ h ↦ (runs_getFunction.1 h).2

theorem deployFunction (f : Uid) : Still (Action.deployFunction f) :=
  fun _ _ _ _ h ↦ (runs_deployFunction.1 h).2

theorem getWorkflow (w : Uid) : Still (Action.getWorkflow w) :=
  fun _ _ _ _ h ↦ (runs_getWorkflow.1 h).2

theorem getStepList (w : Uid) : Still (Action.getStepList w) :=
  fun _ _ _ _ h ↦ (runs_getStepList.1 h).2

theorem now : Still Action.now := by
  intro R s r s' h
  obtain ⟨-, -, -, rfl⟩ := runs_now.1 h
  rfl

theorem spawn (task : BackgroundTask) : Still (Action.spawn task) :=
  fun _ _ _ _ h ↦ (runs_spawn.1 h).2.2

end Still

/-! ## Actions that keep an invariant -/

/-- An action keeps an invariant of scenes, whatever comes of it. -/
def Keeps (R : Rule) (I : Scene → Prop) (a : Action α) : Prop :=
  ∀ ⦃s r s'⦄, I s → Runs R a s r s' → I s'

variable {I : Scene → Prop}

theorem Still.keeps {a : Action α} (h : Still a) : Keeps R I a := by
  intro s r s' hI hrun
  rw [h hrun]
  exact hI

namespace Keeps

theorem bind {a : Action α} {f : α → Action β} (ha : Keeps R I a) (hf : ∀ x, Keeps R I (f x)) :
    Keeps R I (a >>= f) := by
  intro s r s' hI h
  rcases runs_bind.1 h with ⟨e, h, -⟩ | ⟨x, s₁, h₁, h₂⟩
  · exact ha hI h
  · exact hf x (ha hI h₁) h₂

theorem attempt {a : Action α} (ha : Keeps R I a) : Keeps R I (Action.attempt a) := by
  intro s r s' hI h
  obtain ⟨o, h, -⟩ := runs_attempt.1 h
  exact ha hI h

theorem ite {p : Prop} [Decidable p] {a b : Action α} (ha : Keeps R I a) (hb : Keeps R I b) :
    Keeps R I (if p then a else b) := by
  split
  · exact ha
  · exact hb

theorem store {c : Store.Call}
    (h : ∀ ⦃s⦄, I s → R (.store c) (s.tables.answer c).1 → I (s.afterStore c)) :
    Keeps R I (Action.store c) := by
  intro s r s' hI hrun
  obtain ⟨rfl, hR, rfl⟩ := runs_store.1 hrun
  exact h hI hR

end Keeps

/-! ## What happened under a rule -/

theorem Leads.weaken {R' : Rule} (hR : ∀ c a, R c a → R' c a) {p : Program Call.Answer α} {a : α}
    (h : Leads R p s a s') : Leads R' p s a s' := by
  induction p generalizing s with
  | done b => exact h
  | call c next ih =>
    obtain ⟨answer, hadm, hc, h⟩ := h
    exact ⟨answer, hadm, hR c answer hc, ih answer h⟩

theorem Scene.made_subset_after (s : Scene) (c : Call) (a : c.Answer) :
    s.made ⊆ (s.after c a).made := by
  cases c with
  | store c => exact List.subset_append_left _ _
  | publish channel payload =>
    show s.made ⊆ (s.publish channel payload _).made
    unfold Scene.publish
    split
    · exact List.Subset.refl _
    · exact List.Subset.refl _
  | _ => exact List.Subset.refl _

theorem Leads.made_subset {p : Program Call.Answer α} {a : α} (h : Leads R p s a s') :
    s.made ⊆ s'.made := by
  induction p generalizing s with
  | done b =>
    obtain ⟨-, rfl⟩ := h
    exact List.Subset.refl _
  | call c next ih =>
    obtain ⟨answer, -, -, h⟩ := h
    exact List.Subset.trans (s.made_subset_after c answer) (ih answer h)

/-- The rule that every run which is put into the store has a property. -/
def making (P : WorkflowInstance × List StepInstance → Prop) : Rule
  | .store c, _ => ∀ m ∈ Scene.madeBy c, P m
  | _, _ => True

/-- Where all runs that were made have a property in the end, each had it when it was made. -/
theorem Leads.making_of_made {P : WorkflowInstance × List StepInstance → Prop}
    {p : Program Call.Answer α} {a : α} (h : Leads R p s a s') (hP : ∀ m ∈ s'.made, P m) :
    Leads (making P) p s a s' := by
  induction p generalizing s with
  | done b => exact h
  | call c next ih =>
    obtain ⟨answer, hadm, -, h⟩ := h
    refine ⟨answer, hadm, ?_, ih answer h⟩
    cases c with
    | store c =>
      intro m hm
      exact hP m (h.made_subset (List.mem_append_right _ hm))
    | _ => trivial

end Engine

end Orchestration
