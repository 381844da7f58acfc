import Orchestration.Proofs.ProperCalls
import Orchestration.Proofs.DeedTriples

/-!
# Triples for well-conducted actions

`Conducts setup o s₀ P a Q` says of an action what a triple of a program logic says: where the
operation `o` has been well conducted so far and nothing is due, from where `P` holds the action `a`
makes proper calls only and leaves nothing due, and where it is successful `Q` holds of its result
afterwards. Since nothing is ever taken back (`Grows`), most conditions are firm: they hold from
then on (`Firm`), and an action may be passed by with any of them (`Conducts.stays`).

Below, the parts are shown to be well conducted that all operations have in common: what reads the
records of an own run, what writes and announces a status, and what ends a run.
-/

namespace Orchestration

namespace Engine

variable {α β : Type} {setup : Setup} {o : Operation} {s₀ s s' : Scene}
    {log l : List Moment} {u k : Uid}

/-! ## Triples -/

/-- An operation has been well conducted so far, and no announcement is due. -/
structure AtRest (setup : Setup) (o : Operation) (s₀ : Scene) (log : List Moment) (s : Scene) :
    Prop where
  conducted : Conducted setup o s₀ log s
  origin : Grounded s₀
  quiet : due log = none

theorem AtRest.grounded (h : AtRest setup o s₀ log s) : Grounded s := h.conducted.grounded h.origin

/-- From where a condition holds of the log and the scene, an action is well conducted, and if it is
successful another condition holds of its result afterwards. -/
def Conducts (setup : Setup) (o : Operation) (s₀ : Scene) (P : List Moment → Scene → Prop)
    (a : Action α) (Q : α → List Moment → Scene → Prop) : Prop :=
  ∀ ⦃R log s l r s'⦄, AtRest setup o s₀ log s → P log s → Logs R a s l r s' →
    AtRest setup o s₀ (log ++ l) s' ∧ Grows s s' ∧ ∀ x, r = .ok x → Q x (log ++ l) s'

/-- A condition holds from the moment on in which it holds. -/
def Firm (P : List Moment → Scene → Prop) : Prop :=
  ∀ ⦃log s⦄ l ⦃s'⦄, Grows s s' → P log s → P (log ++ l) s'

namespace Firm

variable {P Q : List Moment → Scene → Prop}

theorem and (hP : Firm P) (hQ : Firm Q) : Firm fun log s ↦ P log s ∧ Q log s :=
  fun _ _ l _ hs h ↦ ⟨hP l hs h.1, hQ l hs h.2⟩

theorem const (p : Prop) : Firm fun _ _ ↦ p := fun _ _ _ _ _ h ↦ h

theorem owns (u : Uid) : Firm fun _ s ↦ Owns o s₀ s u := fun _ _ _ _ hs h ↦ hs.owns h

theorem hasStep (u k : Uid) : Firm fun _ s ↦ HasStep s.tables u k := fun _ _ _ _ hs h ↦ hs.hasStep h

theorem fathers (parent parentStep : Option Uid) :
    Firm fun _ s ↦ Fathers o s₀ s parent parentStep :=
  fun _ _ _ _ hs h ↦ hs.fathers h

theorem cleared (u : Uid) : Firm fun log s ↦ Cleared o s₀ log s u :=
  fun _ _ l _ hs h ↦ hs.cleared h l

theorem lasts (hP : Firm P) : Lasts P := fun _ s l _ h ↦ hP l (.refl s) h

theorem made (e : WorkflowInstance × List StepInstance) : Firm fun _ s ↦ e ∈ s.made :=
  fun _ _ _ _ hs h ↦ hs.made h

theorem happened (p : Moment → Prop) : Firm fun log _ ↦ ∃ m ∈ log, p m :=
  fun _ _ _ _ _ ⟨m, hm, h⟩ ↦ ⟨m, List.mem_append_left _ hm, h⟩

end Firm

/-- A call that may be made and calls for no announcement leaves nothing due. -/
theorem AtRest.call (h : AtRest setup o s₀ log s) {c : Call} {a : c.Answer} (ha : s.Admits c a)
    (hmay : MayCall setup o s₀ log s c) (hquiet : Moment.announces? ⟨s, c, a⟩ = none) :
    AtRest setup o s₀ (log ++ [⟨s, c, a⟩]) (s.after c a) ∧ Grows s (s.after c a) := by
  have hproper := (proper_of_none h.quiet).2 hmay
  exact ⟨⟨.call c a h.conducted ha hproper, h.origin, (due_concat log _).trans hquiet⟩,
    (hproper.after h.grounded a).2⟩

/-- A call that may be made leaves nothing due once it has been announced. -/
theorem AtRest.announced (h : AtRest setup o s₀ log s) {c : Call} {a : c.Answer} (ha : s.Admits c a)
    (hmay : MayCall setup o s₀ log s c) {n : RunNotification}
    (hdue : Moment.announces? ⟨s, c, a⟩ = some n) (b : Except EngineError Unit) :
    AtRest setup o s₀ (log ++ [⟨s, c, a⟩, ⟨s.after c a, .publish .notifications n.toJson.text, b⟩])
      (s.after c a) ∧ Grows s (s.after c a) := by
  have hproper := (proper_of_none h.quiet).2 hmay
  refine ⟨⟨?_, h.origin, ?_⟩, (hproper.after h.grounded a).2⟩
  · have htold := Conducted.call (.publish .notifications n.toJson.text) b
      (.call c a h.conducted ha hproper) trivial
      ((proper_of_due ((due_concat log _).trans hdue)).2 rfl)
    rw [List.append_assoc] at htold
    exact htold
  · rw [List.append_cons]
    exact due_concat _ _

theorem Asked.makes {φ : Call → Prop} {R : Rule} {p : Program Call.Answer α}
    (hp : Asked φ p) {x : α} (h : Logged R p s l x s') : ∀ m ∈ l, φ m.call := by
  induction p generalizing s l with
  | done a =>
    rw [h.1]
    exact fun m hm ↦ nomatch hm
  | call c next ih =>
    obtain ⟨answer, rest, -, -, rfl, h⟩ := h
    intro m hm
    rcases List.mem_cons.1 hm with rfl | hm
    · exact hp.1
    · exact ih answer (hp.2 answer) h m hm

theorem Asks.makes {φ : Call → Prop} {a : Action α} (ha : Asks φ a) : Makes φ a :=
  fun _ _ _ _ _ h ↦ Asked.makes ha h

namespace Conducts

variable {P P' I : List Moment → Scene → Prop} {Q Q₁ : α → List Moment → Scene → Prop}
  {Q' : β → List Moment → Scene → Prop}

theorem mono {a : Action α} (h : Conducts setup o s₀ P a Q)
    (hP : ∀ ⦃log s⦄, AtRest setup o s₀ log s → P' log s → P log s)
    (hQ : ∀ ⦃x log s⦄, AtRest setup o s₀ log s → Q x log s → Q₁ x log s) :
    Conducts setup o s₀ P' a Q₁ := by
  intro R log s l r s' hat hP' hrun
  obtain ⟨hat', hgrows, hpost⟩ := h hat (hP hat hP') hrun
  exact ⟨hat', hgrows, fun x hx ↦ hQ hat' (hpost x hx)⟩

theorem of {a : Action α} (h : Conducts setup o s₀ P a Q)
    (hP : ∀ ⦃log s⦄, AtRest setup o s₀ log s → P' log s → P log s) : Conducts setup o s₀ P' a Q :=
  h.mono hP fun _ _ _ _ h ↦ h

/-- What does not depend on the scene may be known from the outset. -/
theorem given {p : Prop} {a : Action α} (h : p → Conducts setup o s₀ P a Q) :
    Conducts setup o s₀ (fun log s ↦ P log s ∧ p) a Q :=
  fun _ _ _ _ _ _ hat hP hrun ↦ h hP.2 hat hP.1 hrun

theorem forget {a : Action α} (h : Conducts setup o s₀ P a Q) :
    Conducts setup o s₀ P a fun _ _ _ ↦ True := h.mono (fun _ _ _ h ↦ h) fun _ _ _ _ _ ↦ trivial

theorem stays {a : Action α} (h : Conducts setup o s₀ P a Q) (hI : Firm I)
    (hP : ∀ ⦃log s⦄, AtRest setup o s₀ log s → P log s → I log s) :
    Conducts setup o s₀ P a fun x log s ↦ Q x log s ∧ I log s := by
  intro R log s l r s' hat hp hrun
  obtain ⟨hat', hgrows, hpost⟩ := h hat hp hrun
  exact ⟨hat', hgrows, fun x hx ↦ ⟨hpost x hx, hI l hgrows (hP hat hp)⟩⟩

theorem logged {a : Action α} (h : Conducts setup o s₀ P a Q) :
    Conducts setup o s₀ P a fun x log s ↦ Q x log s ∧ ∃ R log₀ l t, log = log₀ ++ l ∧
      AtRest setup o s₀ log₀ t ∧ P log₀ t ∧ Grows t s ∧ Logs R a t l (.ok x) s := by
  intro R log s l r s' hat hP hrun
  obtain ⟨hat', hgrows, hpost⟩ := h hat hP hrun
  exact ⟨hat', hgrows, fun x hx ↦ ⟨hpost x hx, R, log, l, s, rfl, hat, hP, hgrows, hx ▸ hrun⟩⟩

theorem bind {a : Action α} {f : α → Action β} (ha : Conducts setup o s₀ P a Q)
    (hf : ∀ x, Conducts setup o s₀ (Q x) (f x) Q') : Conducts setup o s₀ P (a >>= f) Q' := by
  intro R log s l r s' hat hP h
  rcases logs_bind.1 h with ⟨e, h₁, rfl⟩ | ⟨l₁, l₂, x, s₁, rfl, h₁, h₂⟩
  · obtain ⟨hat', hgrows, -⟩ := ha hat hP h₁
    exact ⟨hat', hgrows, fun x hx ↦ nomatch hx⟩
  · obtain ⟨hat₁, hgrows₁, hQ⟩ := ha hat hP h₁
    obtain ⟨hat₂, hgrows₂, hQ'⟩ := hf x hat₁ (hQ x rfl) h₂
    rw [← List.append_assoc]
    exact ⟨hat₂, hgrows₁.trans hgrows₂, hQ'⟩

theorem andThen {a : Action α} {f : α → Action β} (ha : Conducts setup o s₀ P a Q) (hP : Firm P)
    (hf : ∀ x, Conducts setup o s₀ P (f x) Q') : Conducts setup o s₀ P (a >>= f) Q' :=
  bind (ha.stays hP fun _ _ _ h ↦ h) fun x ↦ (hf x).of fun _ _ _ h ↦ h.2

theorem attempt {a : Action α} (ha : Conducts setup o s₀ P a Q) :
    Conducts setup o s₀ P (Action.attempt a) fun x log s ↦ ∀ y, x = .ok y → Q y log s := by
  intro R log s l r s' hat hP h
  obtain ⟨x, h₁, rfl⟩ := logs_attempt.1 h
  obtain ⟨hat', hgrows, hQ⟩ := ha hat hP h₁
  refine ⟨hat', hgrows, fun y hy z hz ↦ hQ z ?_⟩
  rw [Except.ok.inj hy]
  exact hz

theorem ite {p : Prop} [Decidable p] {a b : Action α} (ha : p → Conducts setup o s₀ P a Q)
    (hb : ¬p → Conducts setup o s₀ P b Q) : Conducts setup o s₀ P (if p then a else b) Q := by
  split
  · next h => exact ha h
  · next h => exact hb h

theorem ofExcept (e : Except EngineError α) :
    Conducts setup o s₀ P (Action.ofExcept e) fun x log s ↦ P log s ∧ e = .ok x := by
  intro R log s l r s' hat hP h
  obtain ⟨rfl, rfl, rfl⟩ := logs_ofExcept.1 h
  rw [List.append_nil]
  exact ⟨hat, .refl _, fun x hx ↦ ⟨hP, hx⟩⟩

theorem pure (x : α) : Conducts setup o s₀ P (Pure.pure x : Action α) fun _ _ _ ↦ True :=
  (ofExcept (.ok x)).forget

theorem throw (e : EngineError) : Conducts setup o s₀ P (throw e : Action α) Q :=
  (ofExcept (.error e)).mono (fun _ _ _ h ↦ h) fun _ _ _ _ h ↦ nomatch h.2

theorem throw_bind (e : EngineError) (f : α → Action β) :
    Conducts setup o s₀ P ((MonadExcept.throw e : Action α) >>= f) Q' :=
  bind (Q := fun _ _ _ ↦ False) (throw e) fun _ _ _ _ _ _ _ _ h _ ↦ h.elim

/-! ### Calls -/

/-- An action that makes a single call is well conducted if the call may be made. -/
theorem single {c : Call} {a : Action α} (hquiet : ∀ s b, Moment.announces? ⟨s, c, b⟩ = none)
    (ha : ∀ ⦃R s l r s'⦄, Logs R a s l r s' →
      ∃ b, l = [⟨s, c, b⟩] ∧ s.Admits c b ∧ s' = s.after c b)
    (hmay : ∀ ⦃log s⦄, AtRest setup o s₀ log s → P log s → MayCall setup o s₀ log s c) :
    Conducts setup o s₀ P a fun _ _ _ ↦ True := by
  intro R log s l r s' hat hP h
  obtain ⟨b, rfl, hb, rfl⟩ := ha h
  obtain ⟨hat', hgrows⟩ := hat.call hb (hmay hat hP) (hquiet s b)
  exact ⟨hat', hgrows, fun _ _ ↦ trivial⟩

theorem store {c : Store.Call} (hquiet : ∀ s b, Moment.announces? ⟨s, .store c, b⟩ = none)
    (hmay : ∀ ⦃log s⦄, AtRest setup o s₀ log s → P log s → MayAsk o s₀ log s c) :
    Conducts setup o s₀ P (Action.store c) fun _ _ _ ↦ True := by
  refine single hquiet (fun R s l r s' h ↦ ?_) hmay
  obtain ⟨rfl, hr, -, rfl⟩ := logs_store.1 h
  exact ⟨r, rfl, hr, rfl⟩

theorem publish {channel : Channel} {document : Json}
    (hmay : ∀ ⦃log s⦄, AtRest setup o s₀ log s → P log s →
      MayPublish setup o s₀ log s channel document.text) :
    Conducts setup o s₀ P (Action.publish channel document) fun _ _ _ ↦ True := by
  refine single (c := .publish channel document.text) (fun _ _ ↦ rfl) (fun R s l r s' h ↦ ?_) hmay
  obtain ⟨rfl, -, rfl⟩ := logs_publish.1 h
  exact ⟨r, rfl, trivial, rfl⟩

theorem post {address : String} {document : Json}
    (hmay : ∀ ⦃log s⦄, AtRest setup o s₀ log s → P log s →
      MayCall setup o s₀ log s (.post address document.text)) :
    Conducts setup o s₀ P (Action.post address document) fun _ _ _ ↦ True := by
  refine single (fun _ _ ↦ rfl) (fun R s l r s' h ↦ ?_) hmay
  obtain ⟨rfl, -, rfl⟩ := logs_post.1 h
  exact ⟨r, rfl, trivial, rfl⟩

theorem spawn {task : BackgroundTask}
    (hmay : ∀ ⦃log s⦄, AtRest setup o s₀ log s → P log s →
      MayCall setup o s₀ log s (.spawn task)) :
    Conducts setup o s₀ P (Action.spawn task) fun _ _ _ ↦ True := by
  refine single (fun _ _ ↦ rfl) (fun R s l r s' h ↦ ?_) hmay
  obtain ⟨rfl, -, -, rfl⟩ := logs_spawn.1 h
  exact ⟨(), rfl, trivial, rfl⟩

theorem now : Conducts setup o s₀ P Action.now fun _ _ _ ↦ True := by
  refine single (c := .now) (fun _ _ ↦ rfl) (fun R s l r s' h ↦ ?_) fun _ _ _ _ ↦ trivial
  obtain ⟨time, rfl, -, -, rfl⟩ := logs_now.1 h
  exact ⟨time, rfl, trivial, rfl⟩

/-! ### Looking -/

private theorem atRest_of_asked {φ : Call → Prop}
    (hidle : ∀ c, φ c → c.isIdle = true) (hP : Lasts P)
    (hmay : ∀ ⦃log s c⦄, AtRest setup o s₀ log s → P log s → φ c → MayCall setup o s₀ log s c)
    {R : Rule} {p : Program Call.Answer α} (hp : Asked φ p) {x : α} (hat : AtRest setup o s₀ log s)
    (hs : P log s) (h : Logged R p s l x s') :
    AtRest setup o s₀ (log ++ l) s' ∧ P (log ++ l) s := by
  induction p generalizing log l with
  | done b =>
    obtain ⟨rfl, -, rfl⟩ := h
    rw [List.append_nil]
    exact ⟨hat, hs⟩
  | call c next ih =>
    obtain ⟨answer, rest, hadm, -, rfl, h⟩ := h
    have hc := hidle c hp.1
    obtain ⟨hat₁, -⟩ := hat.call hadm (hmay hat hs hp.1) (announces?_of_isIdle hc)
    rw [Scene.after_of_isIdle hc] at hat₁ h
    rw [List.append_cons]
    refine ih answer (hp.2 answer) hat₁ (hP (fun m hm ↦ ?_) hs) h
    rw [List.mem_singleton.1 hm]
    exact Moment.idle_of_isIdle hc

/-- After an action that looks at something that may be looked at, a condition that lasts still
holds, and what was found is there. -/
theorem of_asks {φ : Call → Prop} {a : Action α} (ha : Asks φ a)
    (hidle : ∀ c, φ c → c.isIdle = true) (hP : Lasts P)
    (hmay : ∀ ⦃log s c⦄, AtRest setup o s₀ log s → P log s → φ c → MayCall setup o s₀ log s c) :
    Conducts setup o s₀ P a fun x log s ↦ P log s ∧ ∃ R, Runs R a s (.ok x) s := by
  intro R log s l r s' hat hs h
  obtain ⟨hat', hs'⟩ := atRest_of_asked hidle hP hmay ha hat hs h
  obtain rfl : s' = s := by
    refine Asked.keeps (I := (· = s)) (fun c t hc answer ht ↦ ?_) ha rfl h.runs
    rw [Scene.after_of_isIdle (hidle c hc), ht]
  exact ⟨hat', .refl _, fun x hx ↦ ⟨hs', R, hx ▸ h.runs⟩⟩

end Conducts

/-! ## Looking at an own run -/

/-- Whether a call looks at the record of a run or at its steps, or at one of some steps. -/
def Call.inquires (u : Uid) (K : Uid → Prop) : Call → Prop
  | .store (.getRun v) | .store (.listSteps v) | .store (.findStep v _) => v = u
  | .store (.getStep k) => K k
  | _ => False

/-- Whether a call looks something up in a catalog, or at the clock. -/
def Call.consults : Call → Prop
  | .getFunction _ | .deployFunction _ | .getWorkflow _ | .getStepList _ | .now => True
  | _ => False

theorem Call.isIdle_of_inquires {K : Uid → Prop} {c : Call} (h : c.inquires u K) :
    c.isIdle = true := by
  cases c with
  | store c =>
    cases c with
    | getRun | getStep | listSteps | findStep => rfl
    | _ => exact h.elim
  | _ => exact h.elim

theorem Call.isIdle_of_consults {c : Call} (h : c.consults) : c.isIdle = true := by
  cases c with
  | getFunction | deployFunction | getWorkflow | getStepList | now => rfl
  | _ => exact h.elim

theorem Call.mayCall_of_consults {c : Call} (h : c.consults) : MayCall setup o s₀ log s c := by
  cases c with
  | getFunction | deployFunction | getWorkflow | getStepList | now => trivial
  | _ => exact h.elim

/-- The records of an own run may be looked at, and those steps that may be read. -/
theorem Call.mayCall_of_inquires {K : Uid → Prop} {c : Call} (h : c.inquires u K)
    (hu : Owns o s₀ s u) (hK : ∀ k, K k → MayRead o s₀ s k) : MayCall setup o s₀ log s c := by
  cases c with
  | store c =>
    cases c with
    | getRun v | listSteps v | findStep v =>
      obtain rfl : v = u := h
      exact hu
    | getStep k => exact hK k h
    | _ => exact h.elim
  | _ => exact h.elim

namespace Conducts

variable {P : List Moment → Scene → Prop} {Q : β → List Moment → Scene → Prop}

theorem inquires {K : Uid → Prop} {a : Action α} (ha : Asks (Call.inquires u K) a) (hP : Lasts P)
    (hu : ∀ ⦃log s⦄, AtRest setup o s₀ log s → P log s → Owns o s₀ s u)
    (hK : ∀ ⦃log s⦄, AtRest setup o s₀ log s → P log s → ∀ k, K k → MayRead o s₀ s k) :
    Conducts setup o s₀ P a fun x log s ↦ P log s ∧ ∃ R, Runs R a s (.ok x) s :=
  of_asks ha (fun _ ↦ Call.isIdle_of_inquires) hP fun _ _ _ hat hs h ↦
    Call.mayCall_of_inquires h (hu hat hs) (hK hat hs)

theorem consults {a : Action α} (ha : Asks Call.consults a) (hP : Lasts P) :
    Conducts setup o s₀ P a fun x log s ↦ P log s ∧ ∃ R, Runs R a s (.ok x) s :=
  of_asks ha (fun _ ↦ Call.isIdle_of_consults) hP fun _ _ _ _ _ h ↦ Call.mayCall_of_consults h

theorem readRun (hP : Lasts P)
    (hu : ∀ ⦃log s⦄, AtRest setup o s₀ log s → P log s → Owns o s₀ s u) :
    Conducts setup o s₀ P (readRun u) fun q log s ↦ P log s ∧ s.tables.run? u = some q :=
  (inquires (K := fun _ ↦ False) (asks_readRun rfl) hP hu fun _ _ _ _ _ hk ↦ hk.elim).mono
    (fun _ _ _ h ↦ h) fun _ _ _ _ ⟨h, _, hrun⟩ ↦ ⟨h, runs_readRun hrun⟩

theorem readStep (hP : Lasts P)
    (hk : ∀ ⦃log s⦄, AtRest setup o s₀ log s → P log s → MayRead o s₀ s k) :
    Conducts setup o s₀ P (readStep k) fun x log s ↦ P log s ∧ s.tables.step? k = some x := by
  have hask : Asks (· = .store (.getStep k)) (Engine.readStep k) := asks_readStep rfl
  refine (of_asks hask ?_ hP ?_).mono (fun _ _ _ h ↦ h)
    fun _ _ _ _ ⟨h, _, hrun⟩ ↦ ⟨h, runs_readStep hrun⟩
  · rintro c rfl
    rfl
  · rintro log s c hat hs rfl
    exact hk hat hs

theorem firstStep (hP : Lasts P)
    (hu : ∀ ⦃log s⦄, AtRest setup o s₀ log s → P log s → Owns o s₀ s u) :
    Conducts setup o s₀ P (firstStep u) fun x log s ↦
      P log s ∧ x ∈ s.tables.chainOf u ∧ x.runOrderLabel = .first :=
  (inquires (K := fun _ ↦ False) (asks_firstStep rfl) hP hu fun _ _ _ _ _ hk ↦ hk.elim).mono
    (fun _ _ _ h ↦ h) fun _ _ _ _ ⟨h, _, hrun⟩ ↦ ⟨h, runs_firstStep hrun⟩

theorem state : Conducts setup o s₀ (fun _ s ↦ Owns o s₀ s u) (state u) fun _ _ _ ↦ True :=
  (inquires (K := fun _ ↦ False) (asks_state rfl rfl) (Firm.owns u).lasts (fun _ _ _ h ↦ h)
    fun _ _ _ _ _ hk ↦ hk.elim).forget

end Conducts

/-! ## Own steps -/

/-- A step is one of an own run, as it is or as it was at some time. -/
structure Ours (o : Operation) (s₀ s : Scene) (x : StepInstance) : Prop where
  own : Owns o s₀ s x.workflowInstanceUid
  stays : ∃ y ∈ s.tables.steps, SameStep x y

namespace Ours

variable {x y : StepInstance}

theorem of_mem (hown : Owns o s₀ s x.workflowInstanceUid) (hx : x ∈ s.tables.steps) :
    Ours o s₀ s x :=
  ⟨hown, x, hx, rfl, rfl, rfl, rfl, rfl⟩

theorem hasStep (h : Ours o s₀ s x) : HasStep s.tables x.workflowInstanceUid x.uid := by
  obtain ⟨y, hy, hsame⟩ := h.stays
  exact ⟨y, hy, hsame.uid, hsame.run⟩

theorem ownsStep (h : Ours o s₀ s x) : OwnsStep o s₀ s x.uid := ⟨_, h.own, h.hasStep⟩

theorem same (h : Ours o s₀ s x) (hk : s.tables.Keyed) (hy : s.tables.step? x.uid = some y) :
    SameStep x y := by
  obtain ⟨z, hz, hsame⟩ := h.stays
  obtain ⟨hym, hyu⟩ := Store.Tables.mem_of_step? hy
  obtain rfl := hk.eq_of_step hz hym (hsame.uid.trans hyu.symm)
  exact hsame

theorem next (h : Ours o s₀ s x) (hs : Grounded s) (hnext : x.nextStepId = some k) :
    HasStep s.tables x.workflowInstanceUid k := by
  obtain ⟨y, hy, hsame⟩ := h.stays
  obtain ⟨z, hz, hzk, hzy⟩ := hs.links y hy k (hsame.next.trans hnext)
  exact ⟨z, hz, hzk, hzy.trans hsame.run⟩

end Ours

theorem Grows.ours {x : StepInstance} (hs : Grows s s') (h : Ours o s₀ s x) : Ours o s₀ s' x := by
  obtain ⟨y, hy, hsame⟩ := h.stays
  obtain ⟨z, hz, hsame'⟩ := hs.steps y hy
  exact ⟨hs.owns h.own, z, hz, hsame.trans hsame'⟩

theorem Firm.ours (x : StepInstance) : Firm fun _ s ↦ Ours o s₀ s x := fun _ _ _ _ hs h ↦ hs.ours h

/-! ## Giving statuses -/

theorem logs_announce {R : Rule} {n : RunNotification} {r : Except EngineError Unit}
    (h : Logs R (announce n) s l r s') :
    ∃ b, l = [⟨s, .publish .notifications n.toJson.text, b⟩] ∧ r = .ok () ∧ s' = s := by
  rcases logs_bind.1 h with ⟨e, h₁, -⟩ | ⟨l₁, l₂, o, s₁, rfl, h₁, h₂⟩
  · obtain ⟨_, -, he⟩ := logs_attempt.1 h₁
    cases he
  · obtain ⟨b, h₁, -⟩ := logs_attempt.1 h₁
    obtain ⟨rfl, -, rfl⟩ := logs_publish.1 h₁
    obtain ⟨rfl, rfl, rfl⟩ := logs_pure.1 h₂
    exact ⟨b, rfl, rfl, rfl⟩

/-- **A status of a run is announced as soon as it is written.** -/
theorem conducts_writeRunStatus (u : Uid) (status : RunStatus) (expected : Option RunStatus) :
    Conducts setup o s₀
      (fun log s ↦ Owns o s₀ s u ∧ MayTurn o s₀ log s u status expected)
      (writeRunStatus u status expected) fun _ _ _ ↦ True := by
  intro R log s l r s' hat hmay h
  suffices hall : AtRest setup o s₀ (log ++ l) s' ∧
      Grows s s' from ⟨hall.1, hall.2, fun _ _ ↦ trivial⟩
  have hmay : MayCall setup o s₀ log s (.store (.updateRunStatus u status expected)) := hmay
  rcases logs_bind.1 h with ⟨e, h₁, -⟩ | ⟨l₁, l₂, applied, s₁, rfl, h₁, h₂⟩
  · obtain ⟨rfl, hr, -, rfl⟩ := logs_store.1 h₁
    exact hat.call hr hmay rfl
  obtain ⟨rfl, hr, -, rfl⟩ := logs_store.1 h₁
  cases applied with
  | false =>
    obtain ⟨rfl, -, rfl⟩ := logs_pure.1 h₂
    exact hat.call hr hmay rfl
  | true =>
    have htold : Logs R (announce (runNotification u status) >>= fun _ ↦ (pure true : Action Bool))
        (s.afterStore (.updateRunStatus u status expected)) l₂ r s' := h₂
    rcases logs_bind.1 htold with ⟨e, h₃, -⟩ | ⟨l₃, l₄, _, s₃, rfl, h₃, h₄⟩
    · obtain ⟨_, -, he, -⟩ := logs_announce h₃
      cases he
    obtain ⟨b, rfl, -, rfl⟩ := logs_announce h₃
    obtain ⟨rfl, -, rfl⟩ := logs_pure.1 h₄
    exact hat.announced (c := .store _) hr hmay rfl b

theorem conducts_updateRunStatus {status : RunStatus} (hr : status ≠ .running)
    (hp : status ≠ .paused) :
    Conducts setup o s₀ (fun _ s ↦ Owns o s₀ s u) (updateRunStatus u status) fun _ _ _ ↦ True :=
  (conducts_writeRunStatus u status none).of fun _ _ _ h ↦ ⟨h, mayTurn_of_ne hr hp⟩

/-- The announcement of a step follows, and then the step is read again. -/
private theorem AtRest.step_announced (hat : AtRest setup o s₀ log s) {c : Store.Call}
    {a : Except EngineError c.Value} (ha : a = (s.tables.answer c).1) (hmay : MayAsk o s₀ log s c)
    {x : StepInstance} {status : RunStatus}
    (hdue : Moment.announces? ⟨s, .store c, a⟩ = some (stepNotification x status))
    (hx : OwnsStep o s₀ s x.uid) {R : Rule} {r : Except EngineError StepInstance}
    (h : Logs R (announceStep x status >>= fun _ ↦ readStep x.uid) (s.afterStore c) l r s') :
    (AtRest setup o s₀ (log ++ ⟨s, .store c, a⟩ :: l) s' ∧ Grows s s') ∧ s' = s.afterStore c ∧
      ∀ y, r = .ok y → s'.tables.step? x.uid = some y := by
  rcases logs_bind.1 h with ⟨e, h₁, -⟩ | ⟨l₁, l₂, _, s₁, rfl, h₁, h₂⟩
  · obtain ⟨_, -, he, -⟩ := logs_announce h₁
    cases he
  obtain ⟨b, rfl, -, rfl⟩ := logs_announce (n := stepNotification x status) h₁
  obtain ⟨hat₁, hgrows⟩ := hat.announced (c := .store c) ha hmay hdue b
  have hread : MayRead o s₀ (s.afterStore c) x.uid := by
    obtain ⟨run, hown, hstep⟩ := hx
    exact .own ⟨run, hgrows.owns hown, hgrows.hasStep hstep⟩
  have hstill := still_readStep _ h₂.runs
  obtain ⟨hat₂, hgrows₂, hQ⟩ := Conducts.readStep (P := fun _ s ↦ MayRead o s₀ s x.uid)
    (lasts_of_scene _) (fun _ _ _ h ↦ h) hat₁ hread h₂
  rw [List.append_assoc] at hat₂
  exact ⟨⟨hat₂, hgrows.trans hgrows₂⟩, hstill, fun y hy ↦ (hQ y hy).2⟩

/-- The announcement of a step is the same whichever of its states is at hand. -/
theorem stepNotification_congr {x y : StepInstance} (h : SameStep x y) (status : RunStatus) :
    stepNotification y status = stepNotification x status := by
  rw [stepNotification, stepNotification, h.run, h.uid]

/-- **A launch of a step is announced as soon as it is written.** -/
theorem conducts_launchAttempt {step : StepInstance} {input : Json.Object} :
    Conducts setup o s₀
      (fun log s ↦ Ours o s₀ s step ∧ Cleared o s₀ log s step.workflowInstanceUid)
      (launchAttempt step input) fun y _ s ↦
        Ours o s₀ s step ∧ y ∈ s.tables.steps ∧ y.runStatus = .running ∧ SameStep step y := by
  refine .andThen .now ((Firm.ours step).and (.cleared _)) fun time ↦ ?_
  intro R log s l r s' hat ⟨hours, hclear⟩ h
  have hmay : MayAsk o s₀ log s (.launchStep step.uid input time) :=
    ⟨_, hours.own, hours.hasStep, hclear⟩
  obtain ⟨z, hz, hzu, -⟩ := hours.hasStep
  have hstep : s.tables.step? step.uid = some z := hat.grounded.keyed.step?_iff.2 ⟨hz, hzu⟩
  have hsame := hours.same hat.grounded.keyed hstep
  have hans : s.tables.answer (.launchStep step.uid input time) =
      (.ok (), s.tables.putStep (Store.Tables.launched input time z)) :=
    Store.Tables.onStep_of_some hstep _
  rcases logs_bind.1 h with ⟨e, h₁, -⟩ | ⟨l₁, l₂, _, s₁, rfl, h₁, h₂⟩
  · obtain ⟨-, hr, -⟩ := logs_store.1 h₁
    cases hr.trans (congrArg Prod.fst hans)
  obtain ⟨rfl, hr, -, rfl⟩ := logs_store.1 h₁
  have hdue : Moment.announces? ⟨s, .store (.launchStep step.uid input time), .ok ()⟩ =
      some (stepNotification step .running) := by
    show (s.tables.step? step.uid).map (stepNotification · .running) = _
    rw [hstep, Option.map_some, stepNotification_congr hsame]
  obtain ⟨⟨hat', hgrows⟩, rfl, hread⟩ := hat.step_announced hr hmay hdue hours.ownsStep h₂
  refine ⟨hat', hgrows, fun y hy ↦ ?_⟩
  have hy := hread y hy
  have hput : (s.afterStore (.launchStep step.uid input time)).tables.step? step.uid =
      some (Store.Tables.launched input time z) := by
    show (s.tables.answer (.launchStep step.uid input time)).2.step? step.uid = _
    rw [hans]
    exact hat.grounded.keyed.step?_putStep hstep hzu rfl
  obtain rfl := Option.some.inj (hput.symm.trans hy)
  refine ⟨hgrows.ours hours, (Store.Tables.mem_of_step? hy).1, rfl, ?_⟩
  exact hsame.trans ⟨rfl, rfl, rfl, rfl, rfl⟩

/-- An own step is at hand that may be left: if anything has happened to it, its run is clear to
go. -/
structure AtHand (o : Operation) (s₀ : Scene) (log : List Moment) (s : Scene) (x : StepInstance) :
    Prop where
  ours : Ours o s₀ s x
  clear : x.runStatus ≠ .new → Cleared o s₀ log s x.workflowInstanceUid

theorem Firm.atHand (x : StepInstance) : Firm fun log s ↦ AtHand o s₀ log s x :=
  fun _ _ l _ hs h ↦ ⟨hs.ours h.ours, fun hx ↦ hs.cleared (h.clear hx) l⟩

theorem AtRest.atHand (hat : AtRest setup o s₀ log s) {x : StepInstance} (hx : x ∈ s.tables.steps)
    (hown : Owns o s₀ s x.workflowInstanceUid) : AtHand o s₀ log s x :=
  ⟨.of_mem hown hx, fun hne ↦ hat.conducted.cleared hat.origin (.inr ⟨x, hx, rfl, hne⟩)⟩

/-- **A result is announced as soon as it is written.** -/
theorem conducts_applyResult {x : StepInstance} {m : StepResult} :
    Conducts setup o s₀ (fun _ s ↦ Ours o s₀ s x) (applyResult x m)
      fun applied log s ↦ ∀ y, applied = some y → AtHand o s₀ log s y := by
  unfold applyResult
  cases expectedRunCount x m with
  | none =>
    refine (Conducts.ofExcept (.ok none)).mono (fun _ _ _ h ↦ h) fun applied _ _ _ h y hy ↦ ?_
    cases (Except.ok.inj h.2).trans hy
  | some expected =>
    refine .andThen .now (.ours x) fun time ↦ ?_
    intro R log s l r s' hat hours h
    generalize hupdate : ({
      runStatus := m.runStatus
      outputData := m.outputData
      failureReason := m.failureReason
      endTime := time
      expectedRunCount := expected } : Store.StepUpdate) = update at h
    have hmay : MayAsk o s₀ log s (.applyStepResult x.uid update) := hours.ownsStep
    rcases logs_bind.1 h with ⟨e, h₁, rfl⟩ | ⟨l₁, l₂, applied, s₁, rfl, h₁, h₂⟩
    · obtain ⟨rfl, hr, -, rfl⟩ := logs_store.1 h₁
      obtain ⟨hat', hgrows⟩ := hat.call (c := .store (.applyStepResult x.uid update)) hr hmay rfl
      exact ⟨hat', hgrows, fun _ hx ↦ nomatch hx⟩
    obtain ⟨rfl, hr, -, rfl⟩ := logs_store.1 h₁
    cases applied with
    | false =>
      obtain ⟨rfl, rfl, rfl⟩ := logs_pure.1 h₂
      obtain ⟨hat', hgrows⟩ := hat.call (c := .store (.applyStepResult x.uid update)) hr hmay rfl
      refine ⟨hat', hgrows, fun applied happlied y hy ↦ ?_⟩
      cases (Except.ok.inj happlied).trans hy
    | true =>
      obtain ⟨z, hz, -⟩ := Store.Tables.answer_accepted hr.symm
      have hdue : Moment.announces? ⟨s, .store (.applyStepResult x.uid update), .ok true⟩ =
          some (stepNotification x m.runStatus) := by
        show (s.tables.step? x.uid).map (stepNotification · update.runStatus) = _
        rw [hz, Option.map_some, stepNotification_congr
          (hours.same hat.grounded.keyed hz), ← hupdate]
      have hread : Logs R ((announceStep x m.runStatus >>= fun _ ↦ readStep x.uid) >>= fun y ↦
          (pure (some y) : Action (Option StepInstance)))
          (s.afterStore (.applyStepResult x.uid update)) l₂ r s' := by
        rw [bind_assoc]
        exact h₂
      rcases logs_bind.1 hread with ⟨e, h₃, rfl⟩ | ⟨l₃, l₄, y, s₃, rfl, h₃, h₄⟩
      · obtain ⟨⟨hat', hgrows⟩, -⟩ := hat.step_announced hr hmay hdue hours.ownsStep h₃
        exact ⟨hat', hgrows, fun _ hx ↦ nomatch hx⟩
      · obtain ⟨⟨hat', hgrows⟩, -, hy⟩ := hat.step_announced hr hmay hdue hours.ownsStep h₃
        obtain ⟨rfl, rfl, rfl⟩ := logs_pure.1 h₄
        rw [List.append_nil]
        refine ⟨hat', hgrows, fun applied happlied y' hy' ↦ ?_⟩
        obtain rfl : y = y' := Option.some.inj ((Except.ok.inj happlied).trans hy')
        have hours' := hgrows.ours hours
        have hsame := hours'.same hat'.grounded.keyed (hy y rfl)
        exact hat'.atHand (Store.Tables.mem_of_step? (hy y rfl)).1 (hsame.run ▸ hours'.own)

/-! ## Reporting and ending -/

theorem conducts_publishResult {P : List Moment → Scene → Prop} {m : StepResult}
    (hmay : ∀ ⦃log s⦄, AtRest setup o s₀ log s → P log s → Owns o s₀ s m.workflowInstanceId ∨
      ∃ q ∈ s.tables.runs, Owns o s₀ s q.uid ∧ q.parentInstanceUid = some m.workflowInstanceId ∧
        q.parentStepInstanceUid = some m.stepInstanceId) :
    Conducts setup o s₀ P (publishResult m) fun _ _ _ ↦ True :=
  .publish fun _ _ hat h ↦ ⟨m, rfl, hmay hat h⟩

theorem conducts_reportToParent {q : WorkflowInstance} {status : RunStatus} {reason : Option String}
    {output : Json.Object} :
    Conducts setup o s₀ (fun _ s ↦ q ∈ s.tables.runs ∧ Owns o s₀ s q.uid)
      (reportToParent q status reason output) fun _ _ _ ↦ True := by
  unfold reportToParent
  split
  · next parent k hparent hstep =>
    refine .bind (.readStep (lasts_of_scene _) fun log s _ h ↦ ?_) fun x ↦
      .ite (fun _ ↦ ?_) fun _ ↦ .pure _
    · exact .parent q parent h.1 h.2 hparent hstep
    · refine conducts_publishResult fun log s _ h ↦ .inr ⟨q, h.1.1, h.1.2, hparent, ?_⟩
      rw [hstep, ← (Store.Tables.mem_of_step? h.2).2]
      rfl
  · exact .pure _

theorem conducts_terminate {status : RunStatus} {failure : Option Failure}
    {output : Option Json.Object} (hr : status ≠ .running) (hp : status ≠ .paused) :
    Conducts setup o s₀ (fun _ s ↦ Owns o s₀ s u) (setup.terminate u status failure output)
      fun _ _ _ ↦ True := by
  have hfirm : Firm fun _ s ↦ Owns o s₀ s u := .owns u
  rw [terminate_eq]
  refine .andThen (conducts_updateRunStatus hr hp) hfirm fun applied ↦
    .ite (fun _ ↦ ?_) fun _ ↦ .pure _
  refine .andThen .now hfirm fun time ↦ ?_
  have hclosing : Conducts setup o s₀ (fun _ s ↦ Owns o s₀ s u)
      (closing u time failure (finalOutput? status output)) fun q _ s ↦
        q ∈ s.tables.runs ∧ Owns o s₀ s q.uid := by
    refine .andThen (.store (fun _ _ ↦ rfl) fun _ _ _ h ↦ h) hfirm fun _ ↦ ?_
    refine .andThen (Q := fun _ _ _ ↦ True) ?_ hfirm fun _ ↦
      .andThen (Q := fun _ _ _ ↦ True) ?_ hfirm fun _ ↦ ?_
    · cases failure with
      | none => exact .pure _
      | some f => exact .store (fun _ _ ↦ rfl) fun _ _ _ h ↦ h
    · cases finalOutput? status output with
      | none => exact .pure _
      | some output => exact .store (fun _ _ ↦ rfl) fun _ _ _ h ↦ h
    · refine (Conducts.readRun hfirm.lasts fun _ _ _ h ↦ h).mono (fun _ _ _ h ↦ h)
        fun q log s _ h ↦ ?_
      obtain ⟨hq, hqu⟩ := Store.Tables.mem_of_run? h.2
      exact ⟨hq, hqu.symm ▸ h.1⟩
  exact .bind hclosing fun q ↦ .bind conducts_reportToParent fun _ ↦ .spawn fun _ _ _ _ ↦ trivial

theorem conducts_fail {status : RunStatus} {step reason : String} (hr : status ≠ .running)
    (hp : status ≠ .paused) :
    Conducts setup o s₀ (fun _ s ↦ Owns o s₀ s u) (setup.fail u status step reason)
      fun _ _ _ ↦ True :=
  conducts_terminate hr hp

end Engine

end Orchestration
