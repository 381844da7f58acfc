import Orchestration.Proofs.ParentReports
import Orchestration.Proofs.Retelling

/-!
# Runs of different trees are independent

Two demands that concern runs of different trees may be handled in either order (`Scattered`). The
first of them changes records of its own tree only, so the second one finds its own tree as it would
have found it without the first, and in the same outside world does the same (`Outside.again`). The
two never have to do with the same run, so nothing about a run is told by both of them, and its
messages come in the same order either way.

What has to be known for this is where the demands reach: whatever an operation has to do with was
known before and is in the tree of a run that it names, or is new (`DealsWith.origin`). This is
false if somebody outside has started a run that is to report to a step of another tree.
-/

namespace Orchestration

namespace Engine

variable {α : Type} {R : Rule} {setup : Setup} {s s' s₁ s₂ : Scene} {log : List Moment}
  {past : List Done} {t : Store.Tables} {u v w : Uid}

/-! ## Requests -/

/-- What comes from outside about runs that are there: a result, or what an operator does. -/
inductive Demand where
  | result (message : StepResult)
  | stop (run : Uid)
  | pause (run : Uid)
  | resume (run : Uid)
deriving Repr, Inhabited

namespace Demand

abbrev Answer : Demand → Type
  | .result _ => Unit
  | .stop _ | .pause _ | .resume _ => RunSnapshot

def action (setup : Setup) : (r : Demand) → Action r.Answer
  | .result message => setup.processResult message
  | .stop run => Engine.stop run
  | .pause run => Engine.pause run
  | .resume run => setup.resume run

def operation : Demand → Operation
  | .result message => .result message
  | .stop run => .stop run
  | .pause run => .pause run
  | .resume run => .resume run

/-- A demand concerns a run of the store: it names the run, or one of its steps. -/
def Concerns (r : Demand) (t : Store.Tables) (u : Uid) : Prop :=
  (∃ q ∈ t.runs, q.uid = u) ∧ r.operation.Names t u

variable {r : Demand}

/-- Handling a demand is carrying its operation out, but for the answer. -/
theorem logs_operation {a : Except EngineError r.Answer} (h : Logs R (r.action setup) s log a s') :
    ∃ o, Logs R (r.operation.action setup) s log o s' := by
  have hdrop : ∀ {α : Type} {b : Action α} {o : Except EngineError α}, Logs R b s log o s' →
      ∃ o, Logs R (do let _ ← b) s log o s' := by
    intro α b o h
    cases o with
    | error e => exact ⟨_, logs_bind.2 (.inl ⟨e, h, rfl⟩)⟩
    | ok x => exact ⟨_, logs_bind.2 (.inr ⟨log, [], x, s', by simp, h, rfl, rfl, rfl⟩)⟩
  cases r with
  | result => exact ⟨_, h⟩
  | stop | pause | resume => exact hdrop h

theorem conducted (hs : Grounded s) {a : Except EngineError r.Answer}
    (h : Logs R (r.action setup) s log a s') : Conducted setup r.operation s log s' := by
  obtain ⟨o, ho⟩ := logs_operation h
  exact (conducted_of_logs hs (fun keepDays maxCount hr ↦ by cases r <;> cases hr) ho).conducted

theorem inside (r : Demand) : r.operation.isStart = false := by cases r <;> rfl

theorem not_watch (r : Demand) : ∀ run time phase, r.operation ≠ .watch run time phase := by
  intro run time phase h
  cases r <;> cases h

theorem Concerns.issued (h : r.Concerns s.tables u) (hs : Grounded s) : u ∈ s.issued := by
  obtain ⟨⟨q, hq, rfl⟩, -⟩ := h
  exact hs.runsIssued q hq

theorem Concerns.unique (ht : t.Keyed) (h : r.Concerns t u) (hv : r.operation.Names t v) :
    v = u := by
  obtain ⟨-, hu⟩ := h
  cases r with
  | result m =>
    obtain ⟨x, hx, hxk, rfl⟩ := hu
    obtain ⟨y, hy, hyk, rfl⟩ := hv
    rw [ht.eq_of_step hy hx (hyk.trans hxk.symm)]
  | stop | pause | resume => exact Eq.trans (Eq.symm hv) hu

/-- After another operation a demand still concerns the run that it has concerned before. -/
theorem Concerns.after {o : Operation} (h : r.Concerns s.tables u) (hs : Grounded s)
    (hlog : Conducted setup o s log s') : r.Concerns s'.tables u := by
  obtain ⟨⟨q, hq, rfl⟩, hnames⟩ := h
  refine ⟨(hlog.grows hs).runs q hq, ?_⟩
  cases r with
  | result m =>
    obtain ⟨x, hx, hk, hrun⟩ := hnames
    exact (hlog.grows hs).hasStep ⟨x, hx, hk, hrun⟩
  | stop | pause | resume => exact hnames

theorem Concerns.named (h : r.Concerns t u) (m : StepResult) (hr : r.operation = .result m) :
    ∃ run, HasStep t run m.stepInstanceId := by
  obtain ⟨-, hnames⟩ := h
  rw [hr] at hnames
  exact ⟨u, hnames⟩

end Demand

/-! ## Where a demand reaches -/

/-- **What a demand has to do with** was there before and is in the tree of the run that it
concerns, or is new. The demand may be handled after another operation. -/
theorem DealsWith.origin {o : Operation} {r : Demand} {l : List Moment} (hs : Grounded s)
    (hfiled : Filed s) (hbefore : Conducted setup o s l s₁) (hr : r.Concerns s.tables v)
    (h : DealsWith r.operation s₁ s' u) :
    Under s.tables v u ∧ u ∈ s.issued ∨ u ∉ s₁.issued ∧ u ∈ s'.issued := by
  have hr₁ := hr.after hs hbefore
  have hs₁ := hbefore.grounded hs
  have hvi := hr.issued hs
  rcases h with (hnames | hnew) | ⟨q, hq, hnames, hparent, hstep⟩
  · obtain rfl := hr₁.unique hs₁.keyed hnames
    exact .inl ⟨.refl, hvi⟩
  · exact .inr hnew
  · -- The run that is waited for has been there before, and names one that had been there, too.
    obtain rfl := hr₁.unique hs₁.keyed hnames
    rcases hbefore.run_origin hs hq with ⟨q₀, hq₀, hsame⟩ | ⟨hfresh, -⟩
    · have hparent₀ : q₀.parentInstanceUid = some u := hsame.parent.symm.trans hparent
      obtain ⟨k, hk⟩ := Option.isSome_iff_exists.1 hstep
      have hk₀ : q₀.parentStepInstanceUid = some k := hsame.parentStep.symm.trans hk
      exact .inl ⟨.single ⟨q₀, hq₀, hsame.uid.symm, hparent₀⟩, (hfiled q₀ hq₀ u k hparent₀ hk₀).1⟩
    · exact absurd hvi hfresh

/-- Two demands concern runs that are in no common tree. -/
structure Scattered (t : Store.Tables) (r₁ r₂ : Demand) (u₁ u₂ : Uid) : Prop where
  first : r₁.Concerns t u₁
  second : r₂.Concerns t u₂
  apart : ∀ u, Under t u₁ u → ¬ Under t u₂ u

theorem Scattered.symm {r₁ r₂ : Demand} {u₁ u₂ : Uid} (h : Scattered t r₁ r₂ u₁ u₂) :
    Scattered t r₂ r₁ u₂ u₁ := ⟨h.second, h.first, fun u h₂ h₁ ↦ h.apart u h₁ h₂⟩

theorem scattered_of_tops {r₁ r₂ : Demand} {u₁ u₂ top₁ top₂ : Uid} (ht : t.Keyed)
    (h₁ : r₁.Concerns t u₁) (h₂ : r₂.Concerns t u₂) (htop₁ : TopOf t u₁ top₁)
    (htop₂ : TopOf t u₂ top₂) (hne : top₁ ≠ top₂) : Scattered t r₁ r₂ u₁ u₂ :=
  ⟨h₁, h₂, fun _ hu₁ hu₂ ↦ hne ((htop₁.of_under ht.runs hu₁).unique ht.runs
    (htop₂.of_under ht.runs hu₂))⟩

namespace Scattered

variable {r₁ r₂ : Demand} {u₁ u₂ : Uid} (h : Scattered s.tables r₁ r₂ u₁ u₂) (hs : Grounded s)
  (hfiled : Filed s)

include h hs hfiled

/-- They have to do with different runs: those that are new to one of them are known neither before
nor to the other. -/
theorem disjoint {o₁ o₂ : Operation} {t₁ t₂ t₁' t₂' : Scene} {l₁ l₂ : List Moment}
    (hbefore₁ : Conducted setup o₁ s l₁ t₁) (hbefore₂ : Conducted setup o₂ s l₂ t₂)
    (hnew : ∀ u ∈ t₁'.issued, u ∉ t₁.issued → u ∈ t₂'.issued → u ∈ t₂.issued)
    (hd₁ : DealsWith r₁.operation t₁ t₁' u) (hd₂ : DealsWith r₂.operation t₂ t₂' u) : False := by
  have hknown : ∀ {o t l}, Conducted setup o s l t → s.issued ⊆ t.issued :=
    fun h ↦ (h.grows hs).issued
  rcases hd₁.origin hs hfiled hbefore₁ h.first with ⟨hu₁, hi⟩ | ⟨hno₁, hi₁⟩
  · rcases hd₂.origin hs hfiled hbefore₂ h.second with ⟨hu₂, -⟩ | ⟨hno₂, -⟩
    · exact h.apart u hu₁ hu₂
    · exact hno₂ (hknown hbefore₂ hi)
  · rcases hd₂.origin hs hfiled hbefore₂ h.second with ⟨-, hi⟩ | ⟨hno₂, hi₂⟩
    · exact hno₁ (hknown hbefore₁ hi)
    · exact hno₂ (hnew u hi₁ hno₁ hi₂)

/-- If the second demand is handled first, then the first one finds a difference only in runs with
which it has nothing to do. -/
theorem elsewhere {s₁₂ : Scene} {l₂' : List Moment} (h₂ : Conducted setup r₂.operation s l₂' s₂)
    (hsame : Echoes (Owns r₁.operation s s₁) s₁ s s₁₂ s₂) :
    Elsewhere r₁.operation (Owns r₂.operation s s₂) s s₁ s₂ := by
  have hnew : ∀ u ∈ s₁.issued, u ∈ s₂.issued → u ∈ s.issued := fun u hi hi₂ ↦
    ((hsame.issued u).1 hi₂).elim id fun hno ↦ absurd hi hno.2
  exact {
    inside := r₁.inside
    grounded := hs
    filed := hfiled
    grounded' := h₂.grounded hs
    filed' := h₂.filed hs hfiled fun _ _ _ _ hr ↦ by simpa [hr, Operation.isStart] using r₂.inside
    alike := h₂.frame hs
    apart := fun u hd hown ↦ h.disjoint hs hfiled (.begin : Conducted setup r₁.operation s [] s)
      (.begin : Conducted setup r₂.operation s [] s) (fun u hi _ hi₂ ↦ hnew u hi hi₂) hd (.inl hown)
    fresh := fun u hi hno hi₂ ↦ hno (hnew u hi hi₂)
    named := h.first.named }

end Scattered

/-! ## Messages about a run -/

open Classical in
/-- The messages about a run that have been published on a channel, in their order. -/
noncomputable def messagesAbout (u : Uid) (channel : Channel) (log : List Moment) : List String :=
  (log.filterMap (·.published? channel)).filter fun payload ↦ decide (About u channel payload)

theorem messagesAbout_append (channel : Channel) (l l' : List Moment) :
    messagesAbout u channel (l ++ l') =
      messagesAbout u channel l ++ messagesAbout u channel l' := by
  simp [messagesAbout]

theorem mem_messagesAbout {channel : Channel} {payload : String} :
    payload ∈ messagesAbout u channel log ↔
      (∃ m ∈ log, m.published? channel = some payload) ∧ About u channel payload := by
  simp [messagesAbout]

theorem messagesAbout_of_exchanges {l l' : List Moment} (channel : Channel)
    (h : l'.map (·.exchange) = l.map (·.exchange)) :
    messagesAbout u channel l' = messagesAbout u channel l := by
  have hpublished : ∀ l : List Moment, l.filterMap (·.published? channel) =
      (l.map (·.exchange)).filterMap fun e ↦ Moment.published? channel ⟨default, e.1, e.2⟩ := by
    intro l
    rw [List.filterMap_map]
    refine List.filterMap_congr fun m _ ↦ ?_
    obtain ⟨t, c, a⟩ := m
    cases c with
    | publish => cases a with | ok => rfl | error => rfl
    | _ => rfl
  unfold messagesAbout
  rw [hpublished, hpublished, h]

/-- An operation publishes messages only about what it has to do with. -/
theorem Conducted.dealsWith_of_messages {o : Operation} (h : Conducted setup o s log s')
    (hs : Grounded s) (ho : o.isStart = false)
    (hwatch : ∀ run time phase, o ≠ .watch run time phase)
    {channel : Channel} (hne : messagesAbout u channel log ≠ []) : DealsWith o s s' u := by
  obtain ⟨payload, hmem⟩ := List.exists_mem_of_ne_nil _ hne
  obtain ⟨⟨m, hm, hpub⟩, habout⟩ := mem_messagesAbout.1 hmem
  obtain ⟨v, hdeals, habout'⟩ := h.about hs ho hwatch hm hpub
  exact habout'.unique habout ▸ hdeals

/-! ## Either order -/

theorem Alike.of_cases {P Q : Uid → Prop} {t' : Store.Tables} (h : Alike P t t')
    (h' : Alike (fun u ↦ ¬ P u) t t') : Alike Q t t' where
  run u _ := (Classical.em (P u)).elim (h.run u) (h'.run u)
  chain u _ := (Classical.em (P u)).elim (h.chain u) (h'.chain u)

/-- One order of two demands: who handles what in which world, and how it goes. -/
structure OneOrder (setup : Setup) (w₁ w₂ : Outside) (r₁ r₂ : Demand) (s s₁ s₁₂ : Scene)
    (a₁ : Except EngineError r₁.Answer) (a₂ : Except EngineError r₂.Answer)
    (l₁ l₂ : List Moment) : Prop where
  first : w₁.perform [] (r₁.action setup).run s = some (a₁, l₁, s₁)
  second : w₂.perform [] (r₂.action setup).run s₁ = some (a₂, l₂, s₁₂)

namespace OneOrder

variable {w₁ w₂ : Outside} {r₁ r₂ : Demand} {s₁₂ : Scene} {a₁ : Except EngineError r₁.Answer}
  {a₂ : Except EngineError r₂.Answer} {l₁ l₂ : List Moment} {u₁ u₂ : Uid}
  (ho : OneOrder setup w₁ w₂ r₁ r₂ s s₁ s₁₂ a₁ a₂ l₁ l₂)
  (h : Scattered s.tables r₁ r₂ u₁ u₂) (hs : Grounded s) (hfiled : Filed s)

include ho hs

theorem conducted₁ : Conducted setup r₁.operation s l₁ s₁ :=
  Demand.conducted hs (Outside.logged_of_perform ho.first)

theorem conducted₂ : Conducted setup r₂.operation s₁ l₂ s₁₂ :=
  Demand.conducted ((ho.conducted₁ hs).grounded hs) (Outside.logged_of_perform ho.second)

include hfiled

theorem filed₁ : Filed s₁ :=
  (ho.conducted₁ hs).filed hs hfiled
    fun _ _ _ _ hr ↦ by simpa [hr, Operation.isStart] using r₁.inside

include h

theorem disjoint (h₁ : DealsWith r₁.operation s s₁ u) (h₂ : DealsWith r₂.operation s₁ s₁₂ u) :
    False :=
  h.disjoint hs hfiled (.begin : Conducted setup r₁.operation s [] s) (ho.conducted₁ hs)
    (fun _ hi _ _ ↦ hi) h₁ h₂

/-- The scene before the first demand differs from that before the second one in runs only with
which the second one has nothing to do. -/
theorem elsewhere : Elsewhere r₂.operation (Owns r₁.operation s s₁) s₁ s₁₂ s where
  inside := r₂.inside
  grounded := (ho.conducted₁ hs).grounded hs
  filed := ho.filed₁ hs hfiled
  grounded' := hs
  filed' := hfiled
  alike := ((ho.conducted₁ hs).frame hs).symm
  apart _ hd hown := ho.disjoint h hs hfiled (.inl hown) hd
  fresh _ _ hno hi := hno (((ho.conducted₁ hs).grows hs).issued hi)
  named := (h.second.after hs (ho.conducted₁ hs)).named

/-- **Two demands that concern runs of different trees may be handled in either order.** In the same
worlds they are answered the same, ask and tell the same, and leave the same records. -/
theorem other : ∃ s₂ s₂₁ l₂' l₁', OneOrder setup w₂ w₁ r₂ r₁ s s₂ s₂₁ a₂ a₁ l₂' l₁' ∧
    l₁'.map (·.exchange) = l₁.map (·.exchange) ∧ l₂'.map (·.exchange) = l₂.map (·.exchange) ∧
    Alike (fun _ ↦ True) s₁₂.tables s₂₁.tables := by
  have hc₁ := ho.conducted₁ hs
  have hs₁ := hc₁.grounded hs
  have hc₂ := ho.conducted₂ hs
  have helse₂ := ho.elsewhere h hs hfiled
  have hall₂ : Conducted setup r₂.operation s₁ ([] ++ l₂) s₁₂ := hc₂
  obtain ⟨l₂', s₂, hrun₂, hsame₂, hechoes₂⟩ := Outside.again ho.second hall₂ helse₂ helse₂.echoes
  have hc₂' : Conducted setup r₂.operation s l₂' s₂ :=
    Demand.conducted hs (Outside.logged_of_perform hrun₂)
  have helse₁ := h.elsewhere hs hfiled hc₂' hechoes₂
  have hall₁ : Conducted setup r₁.operation s ([] ++ l₁) s₁ := hc₁
  obtain ⟨l₁', s₂₁, hrun₁, hsame₁, hechoes₁⟩ := Outside.again ho.first hall₁ helse₁ helse₁.echoes
  refine ⟨s₂, s₂₁, l₂', l₁', ⟨hrun₂, hrun₁⟩, hsame₁, hsame₂, ?_⟩
  -- What the second demand owns has been left by it, what it does not own by the first one.
  have hown : ∀ u, Owns r₂.operation s s₂ u → ¬ Owns r₁.operation s s₁ u :=
    fun u h₂ h₁ ↦ helse₁.apart u (.inl h₁) h₂
  have hback : ∀ u, Owns r₂.operation s₁ s₁₂ u → Owns r₂.operation s s₂ u := by
    rintro u (hnames | ⟨hno, hi⟩)
    · exact .inl ((h.second.after hs hc₁).unique hs₁.keyed hnames ▸ h.second.2)
    · exact .inr ⟨fun hi₀ ↦ hno ((hc₁.grows hs).issued hi₀), (hechoes₂.issued u).2 (.inr ⟨hi, hno⟩)⟩
  exact ((hechoes₂.alike.mono hown).trans hechoes₁.kept).of_cases
    (((hc₂.frame hs₁).symm.mono fun u hu ho ↦ hu (hback u ho)).trans hechoes₁.alike)

theorem messagesAbout_eq {l₂' l₁' : List Moment}
    (h₁ : l₁'.map (·.exchange) = l₁.map (·.exchange))
    (h₂ : l₂'.map (·.exchange) = l₂.map (·.exchange)) (u : Uid) (channel : Channel) :
    messagesAbout u channel (l₂' ++ l₁') = messagesAbout u channel (l₁ ++ l₂) := by
  rw [messagesAbout_append, messagesAbout_append, messagesAbout_of_exchanges channel h₁,
    messagesAbout_of_exchanges channel h₂]
  by_cases hnil : messagesAbout u channel l₁ = []
  · simp [hnil]
  by_cases hnil₂ : messagesAbout u channel l₂ = []
  · simp [hnil₂]
  have hc₁ := ho.conducted₁ hs
  have hs₁ := hc₁.grounded hs
  exact (ho.disjoint h hs hfiled (hc₁.dealsWith_of_messages hs r₁.inside r₁.not_watch hnil)
    ((ho.conducted₂ hs).dealsWith_of_messages hs₁ r₂.inside r₂.not_watch hnil₂)).elim

end OneOrder

/-! ## Two trees -/

/-- An outside world of fixed collaborators, in which identifiers are handed out in a row from one
on and the clock shows how much has been asked. -/
def Collaborators.outside (k : Collaborators) (first : Nat) : Outside where
  reply told
    | .newUid => World.nthUid (first + told.countP fun e ↦ decide (e.1 = .newUid))
    | .now => Collaborators.tick told.length
    | c => k.answer {} c

/-- A start from outside that names no run and no step to report to. -/
def Operation.startsForNobody : Operation → Bool
  | .start _ _ none none => true
  | _ => false

/-- Two runs of `delegation` have been started, each with a run below it. -/
def twoTrees : List Done × Scene :=
  (delegatingHistory [.start (.ofNat 1) [] none none, .start (.ofNat 1) [] none none]).get
    (by decide +kernel)

/-- The step of the first run has failed, and is to be tried again with a new run below it. -/
def failureAbove : Demand := .result { answeredBy 0 1 with runStatus := .failed }

/-- The run below the second run is done, and reports to it. -/
def successBelow : Demand := .result (answeredBy 6 7)

/-- The worlds in which the two are handled. -/
def worldOf (first : Nat) : Outside := (Collaborators.delegating deployedFunction).outside first

def Demand.handled (r : Demand) (w : Outside) (s : Scene) :
    Option (Except EngineError r.Answer × List Moment × Scene) :=
  w.perform [] (r.action queueSetup).run s

def failureFirst : Except EngineError Unit × List Moment × Scene :=
  (failureAbove.handled (worldOf 8) twoTrees.2).get (by decide +kernel)

def successSecond : Except EngineError Unit × List Moment × Scene :=
  (successBelow.handled (worldOf 10) failureFirst.2.2).get (by decide +kernel)

/-- **Runs of different trees are independent.** Handling a result changes no records but those of
the run that has the named step and of new runs below it. And where whoever starts a run from
outside names a step of the run that it is to be a part of, two demands that concern runs with
different tops may be handled in either order: in the same worlds, both are answered the same, the
same is asked and sent, the same records are left, and the messages about each run are the same in
the same order. -/
theorem demands_commute (h : History setup R past s) :
    (∀ m l a s', Logs R (setup.processResult m) s l a s' →
      Alike (fun u ↦ u ∈ s.issued ∧ ¬ HasStep s.tables u m.stepInstanceId) s.tables s'.tables ∧
      ∀ q ∈ s'.tables.runs, q.uid ∉ s.issued →
        ∃ u, HasStep s.tables u m.stepInstanceId ∧ Under s'.tables q.uid u) ∧
    ((∀ d ∈ past, d.NamesOwnStep) → ∀ r₁ r₂ : Demand, ∀ u₁ u₂ top₁ top₂,
      r₁.Concerns s.tables u₁ → r₂.Concerns s.tables u₂ →
      TopOf s.tables u₁ top₁ → TopOf s.tables u₂ top₂ → top₁ ≠ top₂ →
      ∀ w₁ w₂ s₁ s₁₂ a₁ a₂ l₁ l₂, OneOrder setup w₁ w₂ r₁ r₂ s s₁ s₁₂ a₁ a₂ l₁ l₂ →
        ∃ s₂ s₂₁ l₂' l₁', OneOrder setup w₂ w₁ r₂ r₁ s s₂ s₂₁ a₂ a₁ l₂' l₁' ∧
          l₁'.map (·.exchange) = l₁.map (·.exchange) ∧ l₂'.map (·.exchange) = l₂.map (·.exchange) ∧
          Alike (fun _ ↦ True) s₁₂.tables s₂₁.tables ∧
          ∀ u channel, messagesAbout u channel (l₂' ++ l₁') =
            messagesAbout u channel (l₁ ++ l₂)) := by
  have hs := h.grounded
  refine ⟨fun m l a s' hlogs ↦ ?_, fun hnames r₁ r₂ u₁ u₂ top₁ top₂ hr₁ hr₂ htop₁ htop₂ hne w₁ w₂ s₁
    s₁₂ a₁ a₂ l₁ l₂ ho ↦ ?_⟩
  · have hc : Conducted setup (.result m) s l s' := Demand.conducted (r := .result m) hs hlogs
    refine ⟨(hc.frame hs).mono fun u ⟨hi, hno⟩ hown ↦ ?_, fun q hq hnew ↦ hc.under hs rfl hq hnew⟩
    exact hown.elim hno fun hnew ↦ hnew.1 hi
  · have hscattered := scattered_of_tops hs.keyed hr₁ hr₂ htop₁ htop₂ hne
    have hfiled := h.filed hnames
    obtain ⟨s₂, s₂₁, l₂', l₁', hother, hsame₁, hsame₂, halike⟩ := ho.other hscattered hs hfiled
    exact ⟨s₂, s₂₁, l₂', l₁', hother, hsame₁, hsame₂, halike,
      ho.messagesAbout_eq hscattered hs hfiled hsame₁ hsame₂⟩

theorem demands_commute_of_twoTrees :
    (History queueSetup anyAnswer twoTrees.1 twoTrees.2 ∧ (∀ d ∈ twoTrees.1, d.NamesOwnStep) ∧
      failureAbove.Concerns twoTrees.2.tables (World.nthUid 0) ∧
      successBelow.Concerns twoTrees.2.tables (World.nthUid 6) ∧
      TopOf twoTrees.2.tables (World.nthUid 0) (World.nthUid 0) ∧
      TopOf twoTrees.2.tables (World.nthUid 6) (World.nthUid 4) ∧
      OneOrder queueSetup (worldOf 8) (worldOf 10) failureAbove successBelow twoTrees.2
        failureFirst.2.2 successSecond.2.2 failureFirst.1 successSecond.1 failureFirst.2.1
        successSecond.2.1) ∧
    (failureFirst.2.2.tables.runs.length = 5 ∧
      successSecond.2.1.filterMap (·.published? .results) ≠ []) ∧
    ∃ s₂ s₂₁ l₂' l₁', OneOrder queueSetup (worldOf 10) (worldOf 8) successBelow
        failureAbove twoTrees.2 s₂ s₂₁ successSecond.1 failureFirst.1 l₂' l₁' ∧
      l₁'.map (·.exchange) = failureFirst.2.1.map (·.exchange) ∧
      l₂'.map (·.exchange) = successSecond.2.1.map (·.exchange) ∧
      Alike (fun _ ↦ True) successSecond.2.2.tables s₂₁.tables ∧
      ∀ u channel, messagesAbout u channel (l₂' ++ l₁') =
        messagesAbout u channel (failureFirst.2.1 ++ successSecond.2.1) := by
  have hhistory : History queueSetup anyAnswer twoTrees.1 twoTrees.2 := history_get_any _
  have hnames : ∀ d ∈ twoTrees.1, d.NamesOwnStep := by
    have hall : ∀ d ∈ twoTrees.1, d.operation.startsForNobody = true := by decide +kernel
    intro d hd workflow input p k ho
    have hd := hall d hd
    rw [ho] at hd
    cases hd
  have hfirst : failureAbove.Concerns twoTrees.2.tables (World.nthUid 0) :=
    ⟨by decide +kernel, by
      show ∃ x ∈ twoTrees.2.tables.steps, x.uid = World.nthUid 1 ∧
        x.workflowInstanceUid = World.nthUid 0
      decide +kernel⟩
  have hsecond : successBelow.Concerns twoTrees.2.tables (World.nthUid 6) :=
    ⟨by decide +kernel, by
      show ∃ x ∈ twoTrees.2.tables.steps, x.uid = World.nthUid 7 ∧
        x.workflowInstanceUid = World.nthUid 6
      decide +kernel⟩
  have htop₁ : TopOf twoTrees.2.tables (World.nthUid 0) (World.nthUid 0) :=
    ⟨.refl, not_childOf_of_parentless (by decide +kernel)⟩
  have htop₂ : TopOf twoTrees.2.tables (World.nthUid 6) (World.nthUid 4) :=
    ⟨.single (by unfold ChildOf; decide +kernel), not_childOf_of_parentless (by decide +kernel)⟩
  have hfailure : failureAbove.handled (worldOf 8) twoTrees.2 = some failureFirst :=
    (Option.some_get _).symm
  have hsuccess : successBelow.handled (worldOf 10) failureFirst.2.2 = some successSecond :=
    (Option.some_get _).symm
  have horder : OneOrder queueSetup (worldOf 8) (worldOf 10) failureAbove successBelow twoTrees.2
      failureFirst.2.2 successSecond.2.2 failureFirst.1 successSecond.1 failureFirst.2.1
      successSecond.2.1 := ⟨hfailure, hsuccess⟩
  exact ⟨⟨hhistory, hnames, hfirst, hsecond, htop₁, htop₂, horder⟩,
    ⟨by decide +kernel, by decide +kernel⟩,
    (demands_commute hhistory).2 hnames _ _ _ _ _ _ hfirst hsecond htop₁ htop₂ (by decide +kernel)
      _ _ _ _ _ _ _ _ horder⟩

/-- A run is started from outside that is to be below one tree and to report to a step of the
other. -/
def crossedTrees : List Done × Scene :=
  (delegatingHistory [.start (.ofNat 1) [] none none, .start (.ofNat 1) [] none none,
    .start (.ofNat 5) [] (some (World.nthUid 0)) (some (World.nthUid 5))]).get (by decide +kernel)

def successAcross : Demand := .result (answeredBy 8 9)

/-- The step that it reports to is done. -/
def successThere : Demand := .result (answeredBy 4 5)

def acrossFirst : Except EngineError Unit × List Moment × Scene :=
  (successAcross.handled (worldOf 10) crossedTrees.2).get (by decide +kernel)

def thereSecond : Except EngineError Unit × List Moment × Scene :=
  (successThere.handled (worldOf 10) acrossFirst.2.2).get (by decide +kernel)

def thereFirst : Except EngineError Unit × List Moment × Scene :=
  (successThere.handled (worldOf 10) crossedTrees.2).get (by decide +kernel)

def acrossSecond : Except EngineError Unit × List Moment × Scene :=
  (successAcross.handled (worldOf 10) thereFirst.2.2).get (by decide +kernel)

def crossedReport : StepResult :=
  { stepInstanceId := World.nthUid 5
    workflowInstanceId := World.nthUid 0
    runStatus := .completed
    attempt := some 1 }

/-- Where a run from outside reports to another tree than the one that it is in, the order
matters. -/
theorem demands_differ_of_crossedTrees :
    ¬ ∀ past s, History queueSetup anyAnswer past s → ∀ r₁ r₂ : Demand, ∀ u₁ u₂ top₁ top₂,
      r₁.Concerns s.tables u₁ → r₂.Concerns s.tables u₂ →
      TopOf s.tables u₁ top₁ → TopOf s.tables u₂ top₂ → top₁ ≠ top₂ →
      ∀ w₁ w₂ s₁ s₁₂ a₁ a₂ l₁ l₂, OneOrder queueSetup w₁ w₂ r₁ r₂ s s₁ s₁₂ a₁ a₂ l₁ l₂ →
        ∃ s₂ s₂₁ l₂' l₁', OneOrder queueSetup w₂ w₁ r₂ r₁ s s₂ s₂₁ a₂ a₁ l₂' l₁' ∧
          ∀ u channel, messagesAbout u channel (l₂' ++ l₁') =
            messagesAbout u channel (l₁ ++ l₂) := by
  intro h
  have hfirst : successAcross.Concerns crossedTrees.2.tables (World.nthUid 8) :=
    ⟨by decide +kernel, by
      show ∃ x ∈ crossedTrees.2.tables.steps, x.uid = World.nthUid 9 ∧
        x.workflowInstanceUid = World.nthUid 8
      decide +kernel⟩
  have hsecond : successThere.Concerns crossedTrees.2.tables (World.nthUid 4) :=
    ⟨by decide +kernel, by
      show ∃ x ∈ crossedTrees.2.tables.steps, x.uid = World.nthUid 5 ∧
        x.workflowInstanceUid = World.nthUid 4
      decide +kernel⟩
  have htop₁ : TopOf crossedTrees.2.tables (World.nthUid 8) (World.nthUid 0) :=
    ⟨.single (by unfold ChildOf; decide +kernel), not_childOf_of_parentless (by decide +kernel)⟩
  have htop₂ : TopOf crossedTrees.2.tables (World.nthUid 4) (World.nthUid 4) :=
    ⟨.refl, not_childOf_of_parentless (by decide +kernel)⟩
  have hacross : successAcross.handled (worldOf 10) crossedTrees.2 = some acrossFirst :=
    (Option.some_get _).symm
  have hthere : successThere.handled (worldOf 10) acrossFirst.2.2 = some thereSecond :=
    (Option.some_get _).symm
  have horder : OneOrder queueSetup (worldOf 10) (worldOf 10) successAcross
      successThere crossedTrees.2 acrossFirst.2.2 thereSecond.2.2 acrossFirst.1 thereSecond.1
      acrossFirst.2.1 thereSecond.2.1 :=
    ⟨hacross, hthere⟩
  obtain ⟨s₂, s₂₁, l₂', l₁', hother, hmessages⟩ :=
    h _ _ (history_get_any _) _ _ _ _ _ _ hfirst hsecond htop₁ htop₂ (by decide +kernel)
      _ _ _ _ _ _ _ _ horder
  -- There is only one way to go in the other order, and nothing is reported on it.
  have hthere' : successThere.handled (worldOf 10) crossedTrees.2 = some thereFirst :=
    (Option.some_get _).symm
  have hfirst' := Option.some.inj (hthere'.symm.trans hother.first)
  have hacross' : successAcross.handled (worldOf 10) thereFirst.2.2 = some acrossSecond :=
    (Option.some_get _).symm
  rw [hfirst'] at hacross'
  have hsecond' := Option.some.inj (hacross'.symm.trans hother.second)
  have hnone : (thereFirst.2.1 ++ acrossSecond.2.1).filterMap (·.published? .results) = [] := by
    decide +kernel
  rw [hfirst', hsecond'] at hnone
  have hmem : crossedReport.toJson.text ∈
      messagesAbout (World.nthUid 0) .results (acrossFirst.2.1 ++ thereSecond.2.1) :=
    mem_messagesAbout.2 ⟨by decide +kernel, crossedReport, rfl, rfl⟩
  rw [← hmessages, messagesAbout, hnone] at hmem
  cases hmem

end Engine

end Orchestration
