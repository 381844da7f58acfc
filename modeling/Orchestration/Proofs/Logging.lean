import Orchestration.Proofs.Reading

/-!
# Logs

An execution says where an action ends. Its log says how it got there: the calls it made, one after
the other, each with the scene in which it was made and the answer it got (`Moment`). Whatever is to
be said about the number of attempts, about what was published, or about what happened before
something else is said of logs.

`Logs R a s log r s'` is an execution of `a` together with its log. Forgetting the log gives the
execution back, and every execution has a log (`runs_iff_logs`). As for executions, there is one
equivalence for each way of building an action.

Most calls change nothing that is recorded. They are idle (`Moment.Idle`), and so is a status or a
result that the store refuses. An action is idle if it makes idle calls only (`Idles`).
-/

namespace Orchestration

namespace Engine

variable {α β : Type} {R : Rule} {s s' : Scene}

/-! ## Moments -/

/-- A call as it was made: from which scene, and with which answer. -/
structure Moment where
  scene : Scene
  call : Call
  answer : call.Answer

namespace Moment

/-- The message that a call offers a channel, whether it is taken or not. -/
def offered? (channel : Channel) : Moment → Option String
  | ⟨_, .publish c payload, _⟩ => if c = channel then some payload else none
  | _ => none

/-- The message that a call publishes on a channel. -/
def published? (channel : Channel) : Moment → Option String
  | ⟨_, .publish c payload, .ok _⟩ => if c = channel then some payload else none
  | _ => none

theorem published?_of_offered {channel : Channel} {m : Moment} {payload : String}
    (htaken : ∀ payload a, R (.publish channel payload) a → Except.isOk a = true)
    (hR : R m.call m.answer) (h : m.offered? channel = some payload) :
    m.published? channel = some payload := by
  obtain ⟨t, c, a⟩ := m
  cases c with
  | publish c p =>
    obtain ⟨hc, hp⟩ := Option.ite_none_right_eq_some.1 h
    subst hc
    cases a with
    | ok _ => exact h
    | error e => cases htaken _ _ hR
  | _ => cases h

theorem call_of_offered {channel : Channel} {m : Moment} {payload : String}
    (h : m.offered? channel = some payload) : m.call = .publish channel payload := by
  obtain ⟨t, c, a⟩ := m
  cases c with
  | publish c p =>
    obtain ⟨rfl, hp⟩ := Option.ite_none_right_eq_some.1 h
    rw [Option.some.inj hp]
  | _ => cases h

theorem offered?_of_published {channel : Channel} {m : Moment} {payload : String}
    (h : m.published? channel = some payload) : m.offered? channel = some payload := by
  obtain ⟨t, c, a⟩ := m
  cases c with
  | publish c p =>
    cases a with
    | ok _ => exact h
    | error e => cases h
  | _ => cases h

end Moment

/-- A program may go from one scene to another with a result, making these calls. -/
def Logged (R : Rule) : Program Call.Answer α → Scene → List Moment → α → Scene → Prop
  | .done a, s, log, b, s' => log = [] ∧ b = a ∧ s' = s
  | .call c next, s, log, b, s' =>
    ∃ answer rest, s.Admits c answer ∧ R c answer ∧ log = ⟨s, c, answer⟩ :: rest ∧
      Logged R (next answer) (s.after c answer) rest b s'

/-- An action may go from one scene to another with an outcome, making these calls. -/
def Logs (R : Rule) (a : Action α) (s : Scene) (log : List Moment) (r : Except EngineError α)
    (s' : Scene) : Prop := Logged R a.run s log r s'

theorem leads_iff_logged {p : Program Call.Answer α} {b : α} :
    Leads R p s b s' ↔ ∃ log, Logged R p s log b s' := by
  induction p generalizing s with
  | done a =>
    constructor
    · intro h
      exact ⟨[], rfl, h⟩
    · rintro ⟨_, -, h⟩
      exact h
  | call c next ih =>
    constructor
    · rintro ⟨answer, hadm, hR, h⟩
      obtain ⟨rest, h⟩ := (ih answer).1 h
      exact ⟨_, answer, rest, hadm, hR, rfl, h⟩
    · rintro ⟨_, answer, rest, hadm, hR, -, h⟩
      exact ⟨answer, hadm, hR, (ih answer).2 ⟨rest, h⟩⟩

/-- Every execution has a log, and with its log left out is an execution. -/
theorem runs_iff_logs {a : Action α} {r : Except EngineError α} :
    Runs R a s r s' ↔ ∃ log, Logs R a s log r s' := leads_iff_logged

variable {log : List Moment}

theorem Logs.runs {a : Action α} {r : Except EngineError α} (h : Logs R a s log r s') :
    Runs R a s r s' := runs_iff_logs.2 ⟨log, h⟩

theorem Logged.obeys {p : Program Call.Answer α} {b : α} (h : Logged R p s log b s') :
    ∀ m ∈ log, R m.call m.answer := by
  induction p generalizing s log with
  | done a =>
    rw [h.1]
    exact fun m hm ↦ nomatch hm
  | call c next ih =>
    obtain ⟨answer, rest, -, hR, rfl, h⟩ := h
    intro m hm
    rcases List.mem_cons.1 hm with rfl | hm
    · exact hR
    · exact ih answer h m hm

theorem Logs.obeys {a : Action α} {r : Except EngineError α} (h : Logs R a s log r s') :
    ∀ m ∈ log, R m.call m.answer := Logged.obeys h

theorem Logged.admits {p : Program Call.Answer α} {b : α} (h : Logged R p s log b s') :
    ∀ m ∈ log, m.scene.Admits m.call m.answer := by
  induction p generalizing s log with
  | done a =>
    rw [h.1]
    exact fun m hm ↦ nomatch hm
  | call c next ih =>
    obtain ⟨answer, rest, hadm, -, rfl, h⟩ := h
    intro m hm
    rcases List.mem_cons.1 hm with rfl | hm
    · exact hadm
    · exact ih answer h m hm

theorem Logs.admits {a : Action α} {r : Except EngineError α} (h : Logs R a s log r s') :
    ∀ m ∈ log, m.scene.Admits m.call m.answer := Logged.admits h

theorem Logged.leads {p : Program Call.Answer α} {b : α} (h : Logged R p s log b s') :
    Leads R p s b s' := leads_iff_logged.2 ⟨log, h⟩

/-- Whatever had been made when a call was made is there in the end. -/
theorem Logged.made_subset {p : Program Call.Answer α} {b : α} (h : Logged R p s log b s') :
    ∀ m ∈ log, m.scene.made ⊆ s'.made := by
  induction p generalizing s log with
  | done a =>
    rw [h.1]
    exact fun m hm ↦ nomatch hm
  | call c next ih =>
    have hall := h.leads.made_subset
    obtain ⟨answer, rest, -, -, rfl, h⟩ := h
    intro m hm
    rcases List.mem_cons.1 hm with rfl | hm
    · exact hall
    · exact ih answer h m hm

/-- Where all runs that were made have a property in the end, each had it when it was made. -/
theorem Logged.making_of_made {P : WorkflowInstance × List StepInstance → Prop}
    {p : Program Call.Answer α} {b : α} (h : Logged R p s log b s') (hP : ∀ m ∈ s'.made, P m) :
    Logged (making P) p s log b s' := by
  induction p generalizing s log with
  | done a => exact h
  | call c next ih =>
    obtain ⟨answer, rest, hadm, -, rfl, h⟩ := h
    refine ⟨answer, rest, hadm, ?_, rfl, ih answer h⟩
    cases c with
    | store c =>
      intro m hm
      exact hP m (h.leads.made_subset (List.mem_append_right _ hm))
    | _ => trivial

theorem logged_bind {p : Program Call.Answer α} {k : α → Program Call.Answer β} {b : β} :
    Logged R (p >>= k) s log b s' ↔
      ∃ l₁ l₂ a s₁, log = l₁ ++ l₂ ∧ Logged R p s l₁ a s₁ ∧ Logged R (k a) s₁ l₂ b s' := by
  induction p generalizing s log with
  | done a =>
    constructor
    · intro h
      exact ⟨[], log, a, s, rfl, ⟨rfl, rfl, rfl⟩, h⟩
    · rintro ⟨_, l₂, _, _, rfl, ⟨rfl, rfl, rfl⟩, h⟩
      exact h
  | call c next ih =>
    constructor
    · rintro ⟨answer, rest, hadm, hR, rfl, h⟩
      obtain ⟨l₁, l₂, a, s₁, rfl, h₁, h₂⟩ := (ih answer).1 h
      exact ⟨_ :: l₁, l₂, a, s₁, rfl, ⟨answer, l₁, hadm, hR, rfl, h₁⟩, h₂⟩
    · rintro ⟨_, l₂, a, s₁, rfl, ⟨answer, l₁, hadm, hR, rfl, h₁⟩, h₂⟩
      exact ⟨answer, l₁ ++ l₂, hadm, hR, rfl, (ih answer).2 ⟨l₁, l₂, a, s₁, rfl, h₁, h₂⟩⟩

/-! ## The ways of building an action -/

theorem logs_pure {x : α} {r : Except EngineError α} :
    Logs R (pure x) s log r s' ↔ log = [] ∧ r = .ok x ∧ s' = s := Iff.rfl

theorem logs_throw {e : EngineError} {r : Except EngineError α} :
    Logs R (throw e) s log r s' ↔ log = [] ∧ r = .error e ∧ s' = s := Iff.rfl

theorem logs_ofExcept {e r : Except EngineError α} :
    Logs R (Action.ofExcept e) s log r s' ↔ log = [] ∧ r = e ∧ s' = s := Iff.rfl

/-- An action followed by another fails with the first, or goes on with its result. -/
theorem logs_bind {a : Action α} {f : α → Action β} {r : Except EngineError β} :
    Logs R (a >>= f) s log r s' ↔
      (∃ e, Logs R a s log (.error e) s' ∧ r = .error e) ∨
        ∃ l₁ l₂ x s₁, log = l₁ ++ l₂ ∧ Logs R a s l₁ (.ok x) s₁ ∧ Logs R (f x) s₁ l₂ r s' := by
  have hrun : Logs R (a >>= f) s log r s' ↔ ∃ l₁ l₂ o s₁, log = l₁ ++ l₂ ∧
      Logged R a.run s l₁ o s₁ ∧ Logged R (ExceptT.bindCont f o) s₁ l₂ r s' := logged_bind
  rw [hrun]
  constructor
  · rintro ⟨l₁, l₂, o, s₁, rfl, h₁, h₂⟩
    cases o with
    | error e =>
      obtain ⟨rfl, rfl, rfl⟩ := h₂
      rw [List.append_nil]
      exact .inl ⟨e, h₁, rfl⟩
    | ok x => exact .inr ⟨l₁, l₂, x, s₁, rfl, h₁, h₂⟩
  · rintro (⟨e, h, rfl⟩ | ⟨l₁, l₂, x, s₁, rfl, h₁, h₂⟩)
    · exact ⟨log, [], .error e, s', (List.append_nil log).symm, h, rfl, rfl, rfl⟩
    · exact ⟨l₁, l₂, .ok x, s₁, rfl, h₁, h₂⟩

private theorem logs_lift {p : Program Call.Answer α} {r : Except EngineError α} :
    Logs R (ExceptT.lift p : Action α) s log r s' ↔ ∃ x, Logged R p s log x s' ∧ r = .ok x := by
  have hrun : Logs R (ExceptT.lift p : Action α) s log r s' ↔
      Logged R (p >>= fun x ↦ .done (Except.ok x)) s log r s' := Iff.rfl
  rw [hrun, logged_bind]
  constructor
  · rintro ⟨l₁, l₂, x, s₁, rfl, h, rfl, rfl, rfl⟩
    rw [List.append_nil]
    exact ⟨x, h, rfl⟩
  · rintro ⟨x, h, rfl⟩
    exact ⟨log, [], x, s', (List.append_nil log).symm, h, rfl, rfl, rfl⟩

private theorem logged_ask {c : Call} {x : c.Answer} :
    Logged R (Program.ask c) s log x s' ↔
      log = [⟨s, c, x⟩] ∧ s.Admits c x ∧ R c x ∧ s' = s.after c x := by
  constructor
  · rintro ⟨answer, rest, hadm, hR, rfl, rfl, rfl, rfl⟩
    exact ⟨rfl, hadm, hR, rfl⟩
  · rintro ⟨rfl, hadm, hR, rfl⟩
    exact ⟨x, [], hadm, hR, rfl, rfl, rfl, rfl⟩

theorem logs_attempt {a : Action α} {r : Except EngineError (Except EngineError α)} :
    Logs R (Action.attempt a) s log r s' ↔ ∃ o, Logs R a s log o s' ∧ r = .ok o := logs_lift

/-! ### The calls -/

theorem logs_store {c : Store.Call} {r : Except EngineError c.Value} :
    Logs R (Action.store c) s log r s' ↔
      log = [⟨s, .store c, r⟩] ∧ r = (s.tables.answer c).1 ∧ R (.store c) r ∧
        s' = s.afterStore c := logged_ask

theorem logs_publish {channel : Channel} {document : Json} {r : Except EngineError Unit} :
    Logs R (Action.publish channel document) s log r s' ↔
      log = [⟨s, .publish channel document.text, r⟩] ∧ R (.publish channel document.text) r ∧
        s' = s.publish channel document.text (Except.isOk r) :=
  logged_ask.trans (and_congr_right fun _ ↦ .of_eq (true_and _))

theorem logs_post {address : String} {document : Json} {r : Except EngineError Http.Response} :
    Logs R (Action.post address document) s log r s' ↔
      log = [⟨s, .post address document.text, r⟩] ∧ R (.post address document.text) r ∧
        s' = s.send (.request address document.text) (Except.isOk r) :=
  logged_ask.trans (and_congr_right fun _ ↦ .of_eq (true_and _))

theorem logs_getFunction {f : Uid} {r : Except EngineError FunctionInfo} :
    Logs R (Action.getFunction f) s log r s' ↔
      log = [⟨s, .getFunction f, r⟩] ∧ R (.getFunction f) r ∧ s' = s :=
  logged_ask.trans (and_congr_right fun _ ↦ .of_eq (true_and _))

theorem logs_deployFunction {f : Uid} {r : Except EngineError Unit} :
    Logs R (Action.deployFunction f) s log r s' ↔
      log = [⟨s, .deployFunction f, r⟩] ∧ R (.deployFunction f) r ∧ s' = s :=
  logged_ask.trans (and_congr_right fun _ ↦ .of_eq (true_and _))

theorem logs_getWorkflow {w : Uid} {r : Except EngineError WorkflowDefinition} :
    Logs R (Action.getWorkflow w) s log r s' ↔
      log = [⟨s, .getWorkflow w, r⟩] ∧ R (.getWorkflow w) r ∧ s' = s :=
  logged_ask.trans (and_congr_right fun _ ↦ .of_eq (true_and _))

theorem logs_getStepList {w : Uid} {r : Except EngineError (List StepDefinition)} :
    Logs R (Action.getStepList w) s log r s' ↔
      log = [⟨s, .getStepList w, r⟩] ∧ R (.getStepList w) r ∧ s' = s :=
  logged_ask.trans (and_congr_right fun _ ↦ .of_eq (true_and _))

theorem logs_now {r : Except EngineError Instant} :
    Logs R Action.now s log r s' ↔
      ∃ time, log = [⟨s, .now, time⟩] ∧ R .now time ∧ r = .ok time ∧ s' = s := by
  refine logs_lift.trans ⟨?_, ?_⟩
  · rintro ⟨time, h, rfl⟩
    obtain ⟨rfl, -, hR, rfl⟩ := logged_ask.1 h
    exact ⟨time, rfl, hR, rfl, rfl⟩
  · rintro ⟨time, rfl, hR, rfl, rfl⟩
    exact ⟨time, logged_ask.2 ⟨rfl, trivial, hR, rfl⟩, rfl⟩

theorem logs_newUid {r : Except EngineError Uid} :
    Logs R Action.newUid s log r s' ↔
      ∃ u, log = [⟨s, .newUid, u⟩] ∧ u ∉ s.issued ∧ R .newUid u ∧ r = .ok u ∧
        s' = s.issue u := by
  refine logs_lift.trans ⟨?_, ?_⟩
  · rintro ⟨u, h, rfl⟩
    obtain ⟨rfl, hnew, hR, rfl⟩ := logged_ask.1 h
    exact ⟨u, rfl, hnew, hR, rfl, rfl⟩
  · rintro ⟨u, rfl, hnew, hR, rfl, rfl⟩
    exact ⟨u, logged_ask.2 ⟨rfl, hnew, hR, rfl⟩, rfl⟩

theorem logs_spawn {task : BackgroundTask} {r : Except EngineError Unit} :
    Logs R (Action.spawn task) s log r s' ↔
      log = [⟨s, .spawn task, ()⟩] ∧ R (.spawn task) () ∧ r = .ok () ∧ s' = s := by
  refine logs_lift.trans ⟨?_, ?_⟩
  · rintro ⟨x, h, rfl⟩
    obtain ⟨rfl, -, hR, rfl⟩ := logged_ask.1 h
    exact ⟨rfl, hR, rfl, rfl⟩
  · rintro ⟨rfl, hR, rfl, rfl⟩
    exact ⟨(), logged_ask.2 ⟨rfl, trivial, hR, rfl⟩, rfl⟩

/-! ## Idle calls -/

/-- Whether a call leaves every scene as it is: it reads, looks something up, announces, or starts
work in the background. -/
def Call.isIdle : Call → Bool
  | .store c => isReading c || match c with | .listTopLevelRuns => true | _ => false
  | .publish channel _ => channel == .notifications
  | .getFunction _ | .deployFunction _ | .getWorkflow _ | .getStepList _ | .now | .spawn _ => true
  | .post .. | .newUid => false

theorem Scene.after_of_isIdle {c : Call} (hc : c.isIdle = true) (a : c.Answer) :
    s.after c a = s := by
  cases c with
  | store c =>
    cases c with
    | getRun | getStep | listSteps | findStep | listTopLevelRuns =>
      exact congrArg (fun made ↦ { s with made := made }) (List.append_nil s.made)
    | _ => cases hc
  | publish channel payload =>
    have hchannel : channel = .notifications := by simpa [Call.isIdle] using hc
    exact if_pos hchannel
  | getFunction | deployFunction | getWorkflow | getStepList | now | spawn => rfl
  | post | newUid => cases hc

/-- Every call of an action is one of a kind. -/
def Makes (φ : Call → Prop) (a : Action α) : Prop :=
  ∀ ⦃R s log r s'⦄, Logs R a s log r s' → ∀ m ∈ log, φ m.call

namespace Makes

variable {φ : Call → Prop}

theorem pure (x : α) : Makes φ (Pure.pure x : Action α) := by
  intro R s log r s' h m hm
  rw [(logs_pure.1 h).1] at hm
  cases hm

theorem throw (e : EngineError) : Makes φ (throw e : Action α) := by
  intro R s log r s' h m hm
  rw [(logs_throw.1 h).1] at hm
  cases hm

theorem ofExcept (e : Except EngineError α) : Makes φ (Action.ofExcept e) := by
  intro R s log r s' h m hm
  rw [(logs_ofExcept.1 h).1] at hm
  cases hm

theorem bind {a : Action α} {f : α → Action β} (ha : Makes φ a) (hf : ∀ x, Makes φ (f x)) :
    Makes φ (a >>= f) := by
  intro R s log r s' h m hm
  rcases logs_bind.1 h with ⟨e, h, -⟩ | ⟨l₁, l₂, x, s₁, rfl, h₁, h₂⟩
  · exact ha h m hm
  · exact (List.mem_append.1 hm).elim (ha h₁ m) (hf x h₂ m)

theorem attempt {a : Action α} (ha : Makes φ a) : Makes φ (Action.attempt a) := by
  intro R s log r s' h
  obtain ⟨o, h, -⟩ := logs_attempt.1 h
  exact ha h

theorem ite {p : Prop} [Decidable p] {a b : Action α} (ha : Makes φ a) (hb : Makes φ b) :
    Makes φ (if p then a else b) := by
  split
  · exact ha
  · exact hb

theorem store {c : Store.Call} (hc : φ (.store c)) : Makes φ (Action.store c) := by
  intro R s log r s' h m hm
  rw [(logs_store.1 h).1] at hm
  exact List.mem_singleton.1 hm ▸ hc

theorem publish {channel : Channel} {document : Json} (hc : φ (.publish channel document.text)) :
    Makes φ (Action.publish channel document) := by
  intro R s log r s' h m hm
  rw [(logs_publish.1 h).1] at hm
  exact List.mem_singleton.1 hm ▸ hc

theorem now (hc : φ .now) : Makes φ Action.now := by
  intro R s log r s' h m hm
  obtain ⟨time, rfl, -⟩ := logs_now.1 h
  exact List.mem_singleton.1 hm ▸ hc

theorem spawn {task : BackgroundTask} (hc : φ (.spawn task)) : Makes φ (Action.spawn task) := by
  intro R s log r s' h m hm
  rw [(logs_spawn.1 h).1] at hm
  exact List.mem_singleton.1 hm ▸ hc

theorem mono {a : Action α} {ψ : Call → Prop} (ha : Makes φ a) (h : ∀ c, φ c → ψ c) : Makes ψ a :=
  fun _ _ _ _ _ hlog m hm ↦ h _ (ha hlog m hm)

end Makes

/-- An action makes idle calls only. -/
abbrev Idles (a : Action α) : Prop := Makes (fun c ↦ c.isIdle = true) a

namespace Idles

theorem notify (document : Json) : Idles (Action.publish .notifications document) := .publish rfl

theorem getFunction (f : Uid) : Idles (Action.getFunction f) := by
  intro R s log r s' h m hm
  rw [(logs_getFunction.1 h).1] at hm
  exact List.mem_singleton.1 hm ▸ rfl

theorem deployFunction (f : Uid) : Idles (Action.deployFunction f) := by
  intro R s log r s' h m hm
  rw [(logs_deployFunction.1 h).1] at hm
  exact List.mem_singleton.1 hm ▸ rfl

theorem getWorkflow (w : Uid) : Idles (Action.getWorkflow w) := by
  intro R s log r s' h m hm
  rw [(logs_getWorkflow.1 h).1] at hm
  exact List.mem_singleton.1 hm ▸ rfl

theorem getStepList (w : Uid) : Idles (Action.getStepList w) := by
  intro R s log r s' h m hm
  rw [(logs_getStepList.1 h).1] at hm
  exact List.mem_singleton.1 hm ▸ rfl

end Idles

private theorem idle_of_valueIn? {p : Program Call.Answer α}
    {x a : α} (hp : valueIn? s.tables p = some x) (h : Logged R p s log a s') :
    ∀ m ∈ log, m.call.isIdle = true := by
  induction p generalizing log with
  | done b =>
    rw [h.1]
    exact fun m hm ↦ nomatch hm
  | call c next ih =>
    cases c with
    | store c =>
      unfold valueIn? at hp
      split at hp
      · next hc =>
        obtain ⟨answer, rest, rfl, -, rfl, h⟩ := h
        have hidle : (Call.store c).isIdle = true := by simp [Call.isIdle, hc]
        rw [Scene.after_of_isIdle hidle] at h
        intro m hm
        rcases List.mem_cons.1 hm with rfl | hm
        · exact hidle
        · exact ih _ hp h m hm
      · cases hp
    | _ => cases hp

theorem Reads.idles {a : Action α} (ha : Reads a) : Idles a := by
  intro R s log r s' h
  obtain ⟨o, ho⟩ := ha s.tables
  exact idle_of_valueIn? ho h

private theorem scene_of_idle {p : Program Call.Answer α} {a : α} (h : Logged R p s log a s')
    (hidle : ∀ m ∈ log, m.call.isIdle = true) : (∀ m ∈ log, m.scene = s) ∧ s' = s := by
  induction p generalizing log with
  | done b =>
    obtain ⟨rfl, -, rfl⟩ := h
    exact ⟨fun m hm ↦ (nomatch hm), rfl⟩
  | call c next ih =>
    obtain ⟨answer, rest, -, -, rfl, h⟩ := h
    rw [Scene.after_of_isIdle (hidle _ List.mem_cons_self)] at h
    obtain ⟨hscene, hs'⟩ := ih answer h fun m hm ↦ hidle m (List.mem_cons_of_mem _ hm)
    refine ⟨fun m hm ↦ ?_, hs'⟩
    rcases List.mem_cons.1 hm with rfl | hm
    · rfl
    · exact hscene m hm

/-- What an idle action does, it does from the scene in which it begins and ends. -/
theorem Makes.scene_of_idles {a : Action α} {r : Except EngineError α} (ha : Idles a)
    (h : Logs R a s log r s') : (∀ m ∈ log, m.scene = s ∧ m.call.isIdle = true) ∧ s' = s := by
  have hidle := ha h
  obtain ⟨hscene, hs'⟩ := scene_of_idle h hidle
  exact ⟨fun m hm ↦ ⟨hscene m hm, hidle m hm⟩, hs'⟩

/-! ## Places in a log -/

/-- A place in a log that was put together is a place in one of its parts. -/
theorem split_of_append {l₁ l₂ before after : List Moment} {m : Moment}
    (h : l₁ ++ l₂ = before ++ m :: after) :
    (∃ mid, l₁ = before ++ m :: mid ∧ after = mid ++ l₂) ∨
      ∃ mid, before = l₁ ++ mid ∧ l₂ = mid ++ m :: after := by
  rcases List.append_eq_append_iff.1 h with ⟨mid, hbefore, hl⟩ | ⟨mid, hl₁, hl⟩
  · exact .inr ⟨mid, hbefore, hl⟩
  · cases mid with
    | nil =>
      rw [List.append_nil] at hl₁
      exact .inr ⟨[], by rw [hl₁, List.append_nil], hl.symm⟩
    | cons m' mid =>
      obtain ⟨rfl, rfl⟩ := List.cons.inj hl
      exact .inl ⟨mid, hl₁, rfl⟩

/-! ## Actions whose course is fixed -/

/-- What is written first may be left out of an execution, with its part of the log. -/
theorem Writes.logs_next {a : Action α} {f : α → Action β} {x : α} {t' : Store.Tables}
    {φ : Call → Prop} {r : Except EngineError β} (h : Writes s.tables a x t') (hmakes : Makes φ a)
    (hrun : Logs R (a >>= f) s log r s') :
    ∃ l₁ l₂, log = l₁ ++ l₂ ∧ (∀ m ∈ l₁, φ m.call) ∧
      Logs R (f x) { s with tables := t' } l₂ r s' := by
  rcases logs_bind.1 hrun with ⟨e, h₁, -⟩ | ⟨l₁, l₂, y, s₁, rfl, h₁, h₂⟩
  · cases (h rfl h₁.runs).1
  · obtain ⟨hy, rfl⟩ := h rfl h₁.runs
    exact ⟨l₁, l₂, rfl, hmakes h₁, Except.ok.inj hy ▸ h₂⟩

/-- What is found first may be left out of an execution, with its part of the log. -/
theorem Finds.logs_next {a : Action α} {f : α → Action β} {v : α} {r : Except EngineError β}
    (h : Finds s.tables a (.ok v)) (hrun : Logs R (a >>= f) s log r s') :
    ∃ l₁ l₂, log = l₁ ++ l₂ ∧ Logs R (f v) s l₂ r s' := by
  rcases logs_bind.1 hrun with ⟨e, h₁, -⟩ | ⟨l₁, l₂, z, s₁, rfl, h₁, h₂⟩
  · cases (h.of_runs h₁.runs).1
  · obtain ⟨hz, rfl⟩ := h.of_runs h₁.runs
    exact ⟨l₁, l₂, rfl, Except.ok.inj hz ▸ h₂⟩

theorem Logs.of_now {f : Instant → Action β} {r : Except EngineError β}
    (hrun : Logs R (Action.now >>= f) s log r s') :
    ∃ time rest, log = ⟨s, .now, time⟩ :: rest ∧ Logs R (f time) s rest r s' := by
  rcases logs_bind.1 hrun with ⟨e, h₁, -⟩ | ⟨l₁, l₂, x, s₁, rfl, h₁, h₂⟩
  · obtain ⟨_, -, -, he, -⟩ := logs_now.1 h₁
    cases he
  · obtain ⟨time, rfl, -, hx, rfl⟩ := logs_now.1 h₁
    obtain rfl := Except.ok.inj hx
    exact ⟨_, l₂, rfl, h₂⟩

end Engine

end Orchestration
