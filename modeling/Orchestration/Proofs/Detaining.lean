import Orchestration.Proofs.Company
import Orchestration.Proofs.Errands
import Orchestration.Proofs.Operations
import Orchestration.Proofs.Standing
import Orchestration.Proofs.Statuses

/-!
# Who has a run wait

Only the start that has made a run has it wait for its functions. Every other operation spares it:
it neither has it wait nor puts a record in under its identifier (`considerate_operation`). So a run
that has left its wait does not come back to it, whoever else is at work, and neither does a run
that has been removed. What the record of a run says of its end stays as well, since the store gives
no status to a run that has come to its end and nobody takes a time or an error back
(`WorkflowInstance.Outlasts`).
-/

namespace Orchestration

/-- What the record of a run may become in the hands of those who spare the run. -/
structure WorkflowInstance.Outlasts (q q' : WorkflowInstance) : Prop where
  name : q'.name = q.name
  released : q.runStatus ≠ .deployingFunctions → q'.runStatus ≠ .deployingFunctions
  ended : q.runStatus.isTerminal = true → q'.runStatus = q.runStatus
  endTime : q.endTime.isSome = true → q'.endTime.isSome = true
  errors : ∀ step, (Dict.get? q.errorMessages step).isSome = true →
    (Dict.get? q'.errorMessages step).isSome = true

namespace Engine

variable {α β : Type} {R : Rule} {u : Uid} {s s' : Scene}

/-! ## Sparing a run -/

/-- A call does not have a run wait, and does not put it in. -/
def Call.spares (u : Uid) : Call → Prop
  | .store (.updateRunStatus v status _) => v = u → status ≠ .deployingFunctions
  | .store (.insertRun q _) => q.uid ≠ u
  | _ => True

/-- Whether an identifier is what a call is answered with. -/
def Call.issues (u : Uid) : (c : Call) → c.Answer → Prop
  | .newUid, v => v = u
  | _, _ => False

/-- A program spares a run whose identifier it is not given, and comes to an end of a kind. -/
def Sparing (u : Uid) (Q : α → Prop) : Rest α → Prop
  | .done a => Q a
  | .call c next => c.spares u ∧ ∀ answer, ¬c.issues u answer → Sparing u Q (next answer)

/-- An action is considerate of a run: it spares the run as long as it is not given its
identifier. -/
abbrev Considerate (u : Uid) (a : Action α) : Prop := Sparing u (fun _ ↦ True) a.run

theorem Sparing.bind {p : Rest α} {k : α → Rest β} {Q : α → Prop} {Q' : β → Prop}
    (hp : Sparing u Q p) (hk : ∀ a, Q a → Sparing u Q' (k a)) : Sparing u Q' (p >>= k) := by
  induction p with
  | done a => exact hk a hp
  | call c next ih => exact ⟨hp.1, fun answer hanswer ↦ ih answer (hp.2 answer hanswer)⟩

theorem Sparing.andThen {a : Action α} {f : α → Action β} {Q : Except EngineError α → Prop}
    {Q' : Except EngineError β → Prop} (ha : Sparing u Q a.run)
    (hf : ∀ o, Q o → Sparing u Q' (ExceptT.bindCont f o)) : Sparing u Q' (a >>= f).run :=
  Sparing.bind ha hf

theorem Asked.sparing {p : Rest α} (h : Asked (Call.spares u) p) : Sparing u (fun _ ↦ True) p := by
  induction p with
  | done a => trivial
  | call c next ih => exact ⟨h.1, fun answer _ ↦ ih answer (h.2 answer)⟩

theorem Call.spares_of_isPlain {c : Call} (h : c.isPlain) (hno : ¬c.detains) : c.spares u := by
  cases c with
  | store c =>
    cases c with
    | updateRunStatus => exact fun _ ↦ hno
    | insertRun => exact h.elim
    | _ => trivial
  | _ => trivial

/-! ## Operations -/

theorem sparing_generate (definition : WorkflowDefinition) (steps : List StepDefinition)
    (input : Json.Object) (parent parentStep : Option Uid) :
    Sparing u (fun o ↦ ∀ made, o = .ok made → made.1.uid ≠ u)
      (generate definition steps input parent parentStep).run := by
  unfold generate
  split
  · exact fun made h ↦ nomatch h
  refine ⟨trivial, fun run hrun ↦ ?_⟩
  have hrun : run ≠ u := hrun
  refine Sparing.andThen (Asked.sparing (asks_newUids trivial _)) ?_
  rintro (e | uids) -
  · exact fun made h ↦ nomatch h
  refine ⟨trivial, fun time _ ↦ ⟨hrun, fun made _ ↦ ?_⟩⟩
  cases made with
  | error e => exact fun made h ↦ nomatch h
  | ok _ =>
    intro made h
    obtain rfl := Except.ok.inj h
    exact hrun

theorem practice_considerate (u : Uid) : Practice.Steady (· ≠ u) fun _ a ↦ Considerate u a where
  bind := by
    intro α β a f ha hf
    refine Sparing.andThen ha ?_
    rintro (e | x) -
    · trivial
    · exact hf x
  attempt := fun ha ↦ Sparing.bind ha fun _ _ ↦ trivial
  modest := fun h ↦ Asked.sparing (Asked.mono (fun _ hc ↦ Call.spares_of_isPlain hc.1 hc.2) h)
  detain := fun run hrun ↦ Asked.sparing <|
    asks_writeRunStatus (fun _ hc ↦ Call.spares_of_isPlain (Call.isPlain_of_isHarmless hc)
      (Call.not_detains_of_isHarmless hc)) fun hu ↦ absurd hu hrun
  publishWork := fun _ ↦ ⟨trivial, fun _ _ ↦ trivial⟩
  post := fun _ _ ↦ ⟨trivial, fun _ _ ↦ trivial⟩
  getFunction := fun _ ↦ ⟨trivial, fun _ _ ↦ trivial⟩
  deployFunction := fun _ ↦ ⟨trivial, fun _ _ ↦ trivial⟩
  getWorkflow := fun _ ↦ ⟨trivial, fun _ _ ↦ trivial⟩
  getStepList := fun _ ↦ ⟨trivial, fun _ _ ↦ trivial⟩
  make := by
    intro α f definition steps input parent parentStep hf
    refine Sparing.andThen (sparing_generate definition steps input parent parentStep) ?_
    rintro (e | made) hmade
    · trivial
    · exact hf made (hmade made rfl)
  setHeldStep := fun _ _ ↦ ⟨trivial, fun _ _ ↦ trivial⟩
  takeHeldStep := fun _ ↦ ⟨trivial, fun _ _ ↦ trivial⟩

/-- **Every operation spares every run that is there when it begins.** -/
theorem considerate_operation (setup : Setup) (o : Operation) : Considerate u (o.action setup) := by
  have h := practice_considerate u
  refine h.operation setup (fun m _ x ↦ ?_) fun keepDays maxCount _ ↦ ?_
  · unfold applyResult
    split
    · exact h.pure _
    · exact h.bind ⟨trivial, fun _ _ ↦ trivial⟩ fun _ ↦ h.bind ⟨trivial, fun _ _ ↦ trivial⟩ fun _ ↦
        h.ite (h.bind (h.harmless (harmless_announce _)) fun _ ↦
          h.bind (h.harmless (harmless_readStep _)) fun _ ↦ h.pure _) (h.pure _)
  · exact h.bind ⟨trivial, fun _ _ ↦ trivial⟩ fun _ ↦ h.bind ⟨trivial, fun _ _ ↦ trivial⟩ fun _ ↦
      h.ite (h.pure _) ⟨trivial, fun _ _ ↦ trivial⟩

/-! ## What becomes of a run that is spared -/

/-- A run that is there after a step of others was there before, and its record outlasts that. -/
def Unharmed (u : Uid) (s s' : Scene) : Prop :=
  ∀ q', s'.tables.run? u = some q' → ∃ q, s.tables.run? u = some q ∧ q.Outlasts q'

end Engine

theorem WorkflowInstance.Outlasts.refl (q : WorkflowInstance) : q.Outlasts q :=
  ⟨rfl, id, fun _ ↦ rfl, id, fun _ ↦ id⟩

namespace Engine

/-- **A call that spares a run leaves it unharmed.** -/
theorem Call.unharmed {c : Call} (hc : c.spares u) (answer : c.Answer) :
    Unharmed u s (s.after c answer) := by
  have hsame : (s.after c answer).tables.run? u = s.tables.run? u →
      Unharmed u s (s.after c answer) :=
    fun h q' hq' ↦ ⟨q', h ▸ hq', .refl q'⟩
  have honRun : ∀ {γ : Type} {v : Uid} {change : WorkflowInstance → γ × WorkflowInstance},
      (∀ q : WorkflowInstance, (change q).2.uid = q.uid) →
        (v = u → ∀ q : WorkflowInstance, q.Outlasts (change q).2) →
        ∀ q', (s.tables.onRun v change).2.run? u = some q' →
          ∃ q, s.tables.run? u = some q ∧ q.Outlasts q' := by
    intro γ v change huid hchange q' hq'
    rw [run?_onRun_eq huid] at hq'
    split at hq'
    · next hu =>
      subst hu
      obtain ⟨q, hq, rfl⟩ := Option.map_eq_some_iff.1 hq'
      exact ⟨q, hq, hchange rfl q⟩
    · exact ⟨q', hq', .refl q'⟩
  cases c with
  | store c =>
    cases c with
    | insertRun q steps => exact hsame (run?_insertRun hc)
    | getRun | getStep | listSteps | findStep | listTopLevelRuns => exact hsame rfl
    | updateRunStatus v status expected =>
      refine honRun (withStatus_uid status expected) fun hv q ↦ ?_
      unfold Store.Tables.withStatus
      split
      · exact .refl q
      · next hgoes =>
        have hgoes : q.runStatus.isTerminal = false := by
          rw [Bool.or_eq_true, not_or] at hgoes
          simpa using hgoes.1
        exact ⟨rfl, fun _ ↦ hc hv, fun hended ↦ (nomatch hgoes.symm.trans hended), id, fun _ ↦ id⟩
    | setRunStartTime | setRunOutput | setHeldStep | takeHeldStep =>
      exact honRun (fun _ ↦ rfl) fun _ q ↦ ⟨rfl, id, fun _ ↦ rfl, id, fun _ ↦ id⟩
    | setRunEndTime =>
      exact honRun (fun _ ↦ rfl) fun _ q ↦ ⟨rfl, id, fun _ ↦ rfl, fun _ ↦ rfl, fun _ ↦ id⟩
    | recordRunError v name reason =>
      refine honRun (fun _ ↦ rfl) fun _ q ↦ ⟨rfl, id, fun _ ↦ rfl, id, fun step hstep ↦ ?_⟩
      show (Dict.get? (Dict.insert name reason q.errorMessages) step).isSome = true
      rw [Dict.get?_insert]
      split
      · rfl
      · exact hstep
    | updateStepStatus v | launchStep v | setStepStartTime v | setStepEndTime v | setSelectedCase v
    | decrementRetry v => exact hsame (congrArg (List.find? _) (runs_onStep v _))
    | applyStepResult v =>
      exact hsame (Store.Tables.answer_applyStepResult_elim
        (P := fun t ↦ t.run? u = s.tables.run? u) rfl (congrArg (List.find? _) (runs_onStep v _)))
    | deleteRuns runs =>
      intro q' hq'
      have hq' : (s.tables.remove (s.tables.below runs)).run? u = some q' := hq'
      rw [run?_remove] at hq'
      split at hq'
      · cases hq'
      · exact ⟨q', hq', .refl q'⟩
  | publish channel payload =>
    refine hsame ?_
    show (s.publish channel payload (Except.isOk answer)).tables.run? _ = _
    rw [tables_publish]
  | getFunction | deployFunction | getWorkflow | getStepList | post | now | newUid | spawn =>
    exact hsame rfl

/-- What others do in any number of calls leaves a run unharmed that they spare. Whatever is said of
a run and holds of whatever outlasts it, if the run is there, goes on to hold. -/
theorem Unharmed.keeps {P : WorkflowInstance → Prop} (hP : ∀ q q', q.Outlasts q' → P q → P q')
    (hs : ∀ q, s.tables.run? u = some q → P q) (h : Relation.ReflTransGen (Unharmed u) s s') :
    ∀ q, s'.tables.run? u = some q → P q := by
  refine kept_of_company (P := fun s ↦ ∀ q, s.tables.run? u = some q → P q)
    (fun t t' hstep ht q hq ↦ ?_) hs h
  obtain ⟨p, hp, hlater⟩ := hstep q hq
  exact hP p q hlater (ht p hp)

/-- **A program among operations is in the company of those who spare a run**, if the run has its
identifier when they begin. -/
theorem Interleaves.unharmed {pool pool' : List (Rest α)} {log : List Turn} {p : Rest α}
    {b : α} {i : Nat} (h : Interleaves R pool s log pool' s') (hu : u ∈ s.issued)
    (hi : pool[i]? = some p)
    (hothers : ∀ j k, j ≠ i → pool[j]? = some k → Sparing u (fun _ ↦ True) k)
    (hend : pool'[i]? = some (.done b)) :
    Accompanied R (Unharmed u) p s (ownMoments i log) b s' := by
  refine h.accompanied (J := fun s ↦ u ∈ s.issued) (fun s c answer hs ↦ ?_)
    (fun s c next answer hk hs hadm ↦ ⟨Call.unharmed hk.1 answer, hk.2 answer fun hissues ↦ ?_⟩)
      hi hu hothers
    hend
  · by_cases hnew : c = .newUid
    · subst hnew
      exact List.mem_append_left _ hs
    · rwa [c.issued_after answer hnew]
  · cases c with
    | newUid =>
      obtain rfl : answer = u := hissues
      exact hadm hs
    | _ => exact hissues

end Engine

end Orchestration
