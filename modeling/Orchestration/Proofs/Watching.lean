import Orchestration.Proofs.Company
import Orchestration.Proofs.OperationConduct
import Orchestration.Proofs.Texts

/-!
# What a watch has seen

A watch waits for functions, and phase after phase it waits for fewer of them: it goes on waiting
for a function unless it has seen in this phase that the function is deployed (`Tends.next`). When
it tells that all functions are ready, it has seen before that those are deployed for which it has
waited (`Tends.tells`). Whoever is told so may read it off the text alone, since two outcomes with
the same text tell the same. None of this depends on what others do to the records meanwhile.
-/

namespace Orchestration

namespace Engine

variable {α : Type} {R : Rule} {N : Scene → Scene → Prop} {setup : Setup} {s s' : Scene}
variable {l : List Moment} {u : Uid}

/-- Whether a watch that begins a phase waits for a function. A watch that reports that all is ready
waits for none. -/
def Phase.awaits : Phase → Uid → Prop
  | .begin functions, f | .wait functions .., f => f ∈ functions
  | .report outcome .., _ => outcome.ready = false

/-- Whether a log shows that a function is deployed. -/
def SeesDeployed (l : List Moment) (f : Uid) : Prop := ∃ m ∈ l, m.seesDeployed f = true

theorem SeesDeployed.append_right {l₁ : List Moment} {f : Uid} (h : SeesDeployed l₁ f)
    (l₂ : List Moment) : SeesDeployed (l₁ ++ l₂) f := by
  obtain ⟨m, hm, hsees⟩ := h
  exact ⟨m, List.mem_append_left _ hm, hsees⟩

theorem SeesDeployed.append_left {l₂ : List Moment} {f : Uid} (h : SeesDeployed l₂ f)
    (l₁ : List Moment) : SeesDeployed (l₁ ++ l₂) f := by
  obtain ⟨m, hm, hsees⟩ := h
  exact ⟨m, List.mem_append_right _ hm, hsees⟩

/-- Whether a phase that reports something reports it of a run. -/
def Phase.isOf (u : Uid) : Phase → Prop
  | .report outcome .. => outcome.workflowInstanceId = u
  | _ => True

/-- A log tells of a run only, and tells that all is ready only where it has shown before that those
functions are deployed which are waited for. -/
def Truthful (u : Uid) (waits : Uid → Prop) (l : List Moment) : Prop :=
  ∀ before m after, l = before ++ m :: after → ∀ outcome : DeploymentOutcome,
    m.offered? .deployments = some outcome.toJson.text → outcome.workflowInstanceId = u ∧
      (outcome.ready = true → ∀ f, waits f → SeesDeployed before f)

/-- How a phase of the watch of a run deals with the functions that are waited for when it
begins. -/
structure Tends (u : Uid) (waits : Uid → Prop) (l : List Moment) (r : Except EngineError Next) :
    Prop where
  next : ∀ wake phase, r = .ok (.sleep wake phase) →
    phase.isOf u ∧ ∀ f, waits f → phase.awaits f ∨ SeesDeployed l f
  tells : Truthful u waits l

theorem exists_of_silent {l₁ l₂ before after : List Moment} {m : Moment} {text : String}
    (hsilent : ∀ m ∈ l₁, m.offered? .deployments = none) (h : l₁ ++ l₂ = before ++ m :: after)
    (hm : m.offered? .deployments = some text) :
    ∃ between, before = l₁ ++ between ∧ l₂ = between ++ m :: after := by
  rcases List.append_eq_append_iff.1 h with ⟨between, hbefore, hl₂⟩ | ⟨rest, rfl, hrest⟩
  · exact ⟨between, hbefore, hl₂⟩
  · cases rest with
    | nil => exact ⟨[], by simp, hrest.symm⟩
    | cons m' rest =>
      obtain ⟨rfl, -⟩ := List.cons.inj hrest
      cases (hsilent m (List.mem_append_right _ List.mem_cons_self)).symm.trans hm

/-- What a part of the phase has seen needs not be waited for in the rest. -/
theorem Tends.after {waits waits' : Uid → Prop} {l₁ l₂ : List Moment} {r : Except EngineError Next}
    (h : Tends u waits' l₂ r) (hsilent : ∀ m ∈ l₁, m.offered? .deployments = none)
    (hseen : ∀ f, waits f → waits' f ∨ SeesDeployed l₁ f) : Tends u waits (l₁ ++ l₂) r := by
  constructor
  · intro wake phase hr
    refine ⟨(h.next wake phase hr).1, fun f hf ↦ ?_⟩
    rcases hseen f hf with hf | hf
    · exact ((h.next wake phase hr).2 f hf).imp_right fun hsees ↦ hsees.append_left l₁
    · exact .inr (hf.append_right l₂)
  · intro before m after hlog outcome htext
    obtain ⟨between, rfl, rfl⟩ := exists_of_silent hsilent hlog htext
    obtain ⟨hrun, htells⟩ := h.tells between m after rfl outcome htext
    refine ⟨hrun, fun hready f hf ↦ ?_⟩
    rcases hseen f hf with hf | hf
    · exact (htells hready f hf).append_left l₁
    · exact hf.append_right between

theorem Tends.of_silent {waits : Uid → Prop} {r : Except EngineError Next}
    (hsilent : ∀ m ∈ l, m.offered? .deployments = none)
    (hnext : ∀ wake phase, r = .ok (.sleep wake phase) →
      phase.isOf u ∧ ∀ f, waits f → phase.awaits f ∨ SeesDeployed l f) : Tends u waits l r :=
  ⟨hnext, fun _ m _ hlog _ htext ↦
    nomatch (hsilent m (hlog ▸ List.mem_append_right _ List.mem_cons_self)).symm.trans htext⟩

/-! ## Reporting -/

/-- Whether a call publishes no other outcome than one. -/
def Call.tellsOnly (outcome : DeploymentOutcome) (c : Call) : Prop :=
  ∀ payload, c = .publish .deployments payload → payload = outcome.toJson.text

/-- A call does not publish an outcome for those who wait. -/
def Call.isMute (c : Call) : Prop := ∀ payload, c ≠ .publish .deployments payload

theorem Moment.offered?_eq_none {m : Moment} (h : m.call.isMute) : m.offered? .deployments = none :=
  Option.eq_none_iff_forall_ne_some.2 fun payload hoffer ↦ h payload (call_of_offered hoffer)

section Calls

variable {φ : Call → Prop} {outcome : DeploymentOutcome}

theorem asks_announce {n : RunNotification} (h : φ (.publish .notifications n.toJson.text)) :
    Asks φ (announce n) :=
  .bind (.attempt ⟨h, fun _ ↦ trivial⟩) fun _ ↦ .pure _

theorem asks_deliver (htell : φ (.publish .deployments outcome.toJson.text))
    (hread : φ (.store (.getRun outcome.workflowInstanceId))) : Asks φ (deliver outcome) := by
  refine .bind (.attempt ⟨htell, fun _ ↦ trivial⟩) fun published ↦ ?_
  cases published with
  | ok => exact .pure _
  | error e =>
    refine .bind (.attempt (asks_readRun hread)) fun found ↦ ?_
    cases found with
    | ok => exact .pure _
    | error e => exact .pure _

theorem asks_failRun
    (hmove : φ (.store (.updateRunStatus outcome.workflowInstanceId .failedWithTerminalError
      (some .deployingFunctions))))
    (hrest : ∀ c, c.isHarmless → c.isMute → φ c) :
    Asks φ (failRun outcome) := by
  refine .bind (.bind (.store hmove) fun _ ↦
    .ite (.bind (asks_announce ?_) fun _ ↦ .pure _) (.pure _)) fun _ ↦
    .ite (.bind (asks_readRun ?_) fun _ ↦ .bind (.bind ⟨?_, fun _ ↦ trivial⟩ fun _ ↦
      .store ?_) fun _ ↦ .store ?_) (.pure _)
  · exact hrest _ nofun nofun
  · exact hrest _ trivial nofun
  · exact hrest _ trivial nofun
  · exact hrest _ trivial nofun
  · exact hrest _ trivial nofun

/-- What is asked by whoever reports an outcome: only the outcome is published for those who wait,
only the wait of its run is ended, and all other calls are harmless. -/
theorem asks_reportOutcome (htell : φ (.publish .deployments outcome.toJson.text))
    (hmove : φ (.store (.updateRunStatus outcome.workflowInstanceId .failedWithTerminalError
      (some .deployingFunctions))))
    (hrest : ∀ c, c.isHarmless → c.isMute → φ c)
    (time attempt pause : Nat) : Asks φ (reportOutcome outcome time attempt pause) :=
  .bind (asks_deliver htell (hrest _ trivial nofun)) fun _ ↦
    .ite (.pure _) (.ite (.pure _) (.bind (.attempt (asks_failRun hmove hrest)) fun _ ↦ .pure _))

theorem tellsOnly_reportOutcome (outcome : DeploymentOutcome) (time attempt pause : Nat) :
    Asks (Call.tellsOnly outcome) (reportOutcome outcome time attempt pause) :=
  asks_reportOutcome (fun _ h ↦ (Call.publish.inj h).2.symm) nofun
    (fun _ _ hno payload h ↦ absurd h (hno payload)) time attempt pause

end Calls

/-- Whoever goes on reporting reports the same outcome, for the next time. -/
theorem phase_of_reportOutcome {outcome : DeploymentOutcome} {time attempt pause wake : Nat}
    {phase : Phase}
    (h : Amid R N (reportOutcome outcome time attempt pause) s l (.ok (.sleep wake phase)) s') :
    attempt < publishAttempts ∧ phase = .report outcome (attempt + 1)
      (min (pause * 2) longestPause) := by
  rcases amid_bind h with ⟨e, -, he⟩ | ⟨_, _, delivered, s₁, -, -, h⟩
  · cases he
  split at h
  · cases (amid_pure h).2.1
  split at h
  · next hmore =>
    cases (amid_pure h).2.1
    exact ⟨hmore, rfl⟩
  · rcases amid_bind h with ⟨e, -, he⟩ | ⟨_, _, _, _, -, -, h⟩
    · cases he
    · cases (amid_pure h).2.1

theorem tends_reportOutcome {outcome : DeploymentOutcome} {time attempt pause : Nat}
    {r : Except EngineError Next}
    (h : Amid R N (reportOutcome outcome time attempt pause) s l r s') :
    Tends outcome.workflowInstanceId (fun _ ↦ outcome.ready = false) l r := by
  constructor
  · rintro wake phase rfl
    obtain ⟨-, rfl⟩ := phase_of_reportOutcome h
    exact ⟨rfl, fun f hready ↦ .inl hready⟩
  · intro before m after hlog told htext
    have hm : m ∈ l := hlog ▸ List.mem_append_right _ List.mem_cons_self
    have hsame := (tellsOnly_reportOutcome outcome time attempt pause).amid h m hm _
      (Moment.call_of_offered htext)
    obtain ⟨hrun, hready⟩ := DeploymentOutcome.eq_of_text hsame
    exact ⟨hrun, fun htold f hno ↦ nomatch hno.symm.trans (hready.symm.trans htold)⟩

/-! ## Looking -/

/-- A function goes on being waited for unless it has been seen to be deployed. -/
theorem amid_stillPending {functions pending : List Uid}
    (h : Amid R N (stillPending functions) s l (.ok pending) s') :
    ∀ f ∈ functions, f ∈ pending ∨ SeesDeployed l f := by
  induction functions generalizing s s' l pending with
  | nil => exact nofun
  | cons g rest ih =>
    rcases amid_bind h with ⟨e, -, he⟩ | ⟨l₁, l₂, info, s₁, rfl, h₁, hrest⟩
    · cases he
    obtain ⟨t, rfl⟩ := amid_getFunction h₁
    have hlater : ∀ {pending'}, Amid R N (stillPending rest) s₁ l₂ (.ok pending') s' →
        ∀ f ∈ rest, f ∈ pending' ∨ SeesDeployed ([⟨t, .getFunction g, .ok info⟩] ++ l₂) f :=
      fun h f hf ↦ (ih h f hf).imp_right fun hsees ↦ hsees.append_left _
    have hpending : ∀ {l₂}, Amid R N (stillPending rest >>= fun others ↦ pure (g :: others)) s₁ l₂
        (.ok pending) s' → ∀ f ∈ g :: rest, f ∈ pending ∨
          SeesDeployed ([⟨t, .getFunction g, .ok info⟩] ++ l₂) f := by
      intro l₂ h f hf
      rcases amid_bind h with ⟨e, -, he⟩ | ⟨l₃, l₄, others, s₂, rfl, h₃, h₄⟩
      · cases he
      obtain ⟨rfl, hr, -⟩ := amid_pure h₄
      obtain rfl := Except.ok.inj hr
      rcases List.mem_cons.1 hf with rfl | hf
      · exact .inl List.mem_cons_self
      · rw [List.append_nil]
        exact (ih h₃ f hf).imp (List.mem_cons_of_mem _) fun hsees ↦ hsees.append_left _
    cases hstate : info.deploymentState with
    | deployed =>
      rw [hstate] at hrest
      intro f hf
      rcases List.mem_cons.1 hf with rfl | hf
      · refine .inr ⟨_, List.mem_cons_self, ?_⟩
        simp [Moment.seesDeployed, Moment.finds?, FunctionInfo.isDeployed, hstate]
      · exact hlater hrest f hf
    | failed =>
      rw [hstate] at hrest
      cases (amid_throw hrest).2.1
    | notDeployed | deploying | unknown =>
      rw [hstate] at hrest
      exact hpending hrest

theorem asks_look {φ : Call → Prop} (hread : φ (.store (.getRun u)))
    (hget : ∀ f, φ (.getFunction f)) (functions : List Uid) : Asks φ (look u functions) :=
  .bind (asks_readRun hread) fun _ ↦ .ite (.pure _)
    (.bind (asks_stillPending hget functions) fun _ ↦ .pure _)

/-- What a look that is not given up finds: a function goes on being waited for unless it has been
seen to be deployed. -/
theorem amid_look {functions : List Uid} {found : Look}
    (h : Amid R N (look u functions) s l (.ok found) s') :
    (found = .ready → ∀ f ∈ functions, SeesDeployed l f) ∧
      ∀ pending, found = .pending pending → ∀ f ∈ functions, f ∈ pending ∨ SeesDeployed l f := by
  rcases amid_bind h with ⟨e, -, he⟩ | ⟨l₁, l₂, q, s₁, rfl, -, h⟩
  · cases he
  split at h
  · cases (amid_pure h).2.1
    exact ⟨nofun, nofun⟩
  rcases amid_bind h with ⟨e, -, he⟩ | ⟨l₂, l₃, pending, s₂, rfl, h₂, h⟩
  · cases he
  obtain ⟨rfl, hr, -⟩ := amid_pure h
  have hfound := Except.ok.inj hr
  have hsees : ∀ f ∈ functions, f ∈ pending ∨ SeesDeployed (l₁ ++ (l₂ ++ [])) f := by
    intro f hf
    rw [List.append_nil]
    exact (amid_stillPending h₂ f hf).imp_right fun hsees ↦ hsees.append_left l₁
  cases pending with
  | nil =>
    subst hfound
    exact ⟨fun _ f hf ↦ (hsees f hf).resolve_left List.not_mem_nil, nofun⟩
  | cons g rest =>
    subst hfound
    refine ⟨nofun, fun pending hpending ↦ ?_⟩
    obtain rfl := Look.pending.inj hpending
    exact hsees

theorem tends_lookUntil {functions : List Uid} {time deadline : Nat} {r : Except EngineError Next}
    (h : Amid R N (setup.lookUntil u functions time deadline) s l r s') :
    Tends u (· ∈ functions) l r := by
  rcases amid_bind h with ⟨e, h₁, -⟩ | ⟨l₁, l₂, found, s₁, rfl, h₁, h⟩
  · obtain ⟨_, -, he⟩ := amid_attempt h₁
    cases he
  obtain ⟨found', h₁, hfound⟩ := amid_attempt h₁
  obtain rfl := Except.ok.inj hfound
  have hsilent : ∀ m ∈ l₁, m.offered? .deployments = none := fun m hm ↦
    Moment.offered?_eq_none ((asks_look (φ := Call.isMute) nofun nofun functions).amid h₁ m hm)
  have hnone : ∀ {outcome : DeploymentOutcome} {time : Nat}, outcome.ready = false →
      Amid R N (setup.reportFirst outcome time) s₁ l₂ r s' →
        Tends outcome.workflowInstanceId (· ∈ functions) (l₁ ++ l₂) r :=
    fun hready h ↦ (tends_reportOutcome h).after hsilent fun f _ ↦ .inl hready
  rcases found with e | _ | _ | pending
  · exact hnone rfl h
  · exact (tends_reportOutcome h).after hsilent fun f hf ↦ .inr ((amid_look h₁).1 rfl f hf)
  · obtain ⟨rfl, rfl, -⟩ := amid_pure h
    rw [List.append_nil]
    exact .of_silent hsilent nofun
  · dsimp only [Setup.conclude] at h
    split at h
    · exact hnone rfl h
    · obtain ⟨rfl, rfl, -⟩ := amid_pure h
      rw [List.append_nil]
      refine .of_silent hsilent fun wake phase hr ↦ ?_
      cases hr
      exact ⟨trivial, (amid_look h₁).2 pending rfl⟩

/-- **A phase of a watch waits for no function any more that it does not have to**, and what it
tells is told of the run that is watched. -/
theorem tends_watch {time : Nat} {phase : Phase} {r : Except EngineError Next}
    (hphase : phase.isOf u) (h : Amid R N (setup.watch u time phase) s l r s') :
    Tends u phase.awaits l r := by
  cases phase with
  | begin functions => exact tends_lookUntil h
  | wait functions nextLook deadline =>
    have h : Amid R N (if nextLook ≤ time then setup.lookUntil u functions time deadline
        else setup.reportFirst (setup.tooLate u) time) s l r s' := h
    split at h
    · exact tends_lookUntil h
    · have htold := tends_reportOutcome h
      exact ⟨fun wake phase hr ↦ ⟨(htold.next wake phase hr).1, fun f _ ↦
        (htold.next wake phase hr).2 f rfl⟩, fun before m after hlog outcome htext ↦
          ⟨(htold.tells before m after hlog outcome htext).1, fun hready f _ ↦
          (htold.tells before m after hlog outcome htext).2 hready f rfl⟩⟩
  | report outcome attempt pause =>
    obtain rfl : outcome.workflowInstanceId = u := hphase
    exact tends_reportOutcome h

end Engine

end Orchestration
