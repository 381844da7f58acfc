import Orchestration.Proofs.Effects
import Orchestration.Proofs.Recording
import Orchestration.Proofs.RefusedResults
import Orchestration.Proofs.Replaying

/-!
# Redelivered results

A result whose handling fails is delivered again. By then it has been written onto its step, so the
store refuses it, and whether the run goes on is a matter of what the records show.

What they show depends on where the failure has struck. As long as nothing has been launched the
second handling makes good for the first: it does what one handling without a failure could have
done (`resumed_of_unlaunched`). Once the follow-up has been launched it is taken for done, and
nothing comes of the second handling, whatever has become of the work that the launch was for.

The proof takes the first handling apart, up to where it has failed, and puts one that does not fail
together out of its beginning and the second handling. The two fit because a handling that fails
before it launches anything leaves one of three scenes: the one in which the result has been
written, the same with the case of a decision noted, or the end of the run with a report that nobody
has taken.
-/

namespace Orchestration

namespace Engine

variable {α β : Type} {R : Rule} {setup : Setup} {s s' s₁ s₂ : Scene} {log : List Moment}
variable {startChild : StartChild} {m : StepResult} {x y n : StepInstance} {q : WorkflowInstance}

/-! ## Executions that launch nothing -/

/-- Whether a call is for a launch, which may fail. -/
def Call.isLaunch : Call → Bool
  | .store (.launchStep ..) => true
  | _ => false

theorem Moment.launches_of_call {c : Moment} (h : c.call.isLaunch = false) {u : Uid} :
    c.launches u = false := by
  obtain ⟨t, c, a⟩ := c
  cases c with
  | store c =>
    cases c with
    | launchStep => cases h
    | _ => rfl
  | _ => rfl

/-- An action has an execution in which nothing is launched. -/
def Refrains (R : Rule) (a : Action α) (s : Scene) (r : Except EngineError α) (s' : Scene) : Prop :=
  ∃ log, Logs R a s log r s' ∧ ∀ c ∈ log, ∀ u, c.launches u = false

namespace Refrains

theorem runs {a : Action α} {r : Except EngineError α} (h : Refrains R a s r s') :
    Runs R a s r s' := by
  obtain ⟨log, hlogs, -⟩ := h
  exact hlogs.runs

theorem bind_cases {a : Action α} {f : α → Action β} {r : Except EngineError β}
    (h : Refrains R (a >>= f) s r s') : (∃ e, Refrains R a s (.error e) s' ∧ r = .error e) ∨
      ∃ x s₁, Refrains R a s (.ok x) s₁ ∧ Refrains R (f x) s₁ r s' := by
  obtain ⟨log, hlogs, hquiet⟩ := h
  rcases logs_bind.1 hlogs with ⟨e, h₁, rfl⟩ | ⟨l₁, l₂, x, s₁, rfl, h₁, h₂⟩
  · exact .inl ⟨e, ⟨log, h₁, hquiet⟩, rfl⟩
  · exact .inr ⟨x, s₁, ⟨l₁, h₁, fun c hc ↦ hquiet c (List.mem_append_left _ hc)⟩, l₂, h₂,
      fun c hc ↦ hquiet c (List.mem_append_right _ hc)⟩

theorem attempt {a : Action α} {r : Except EngineError (Except EngineError α)}
    (h : Refrains R (Action.attempt a) s r s') : ∃ o, Refrains R a s o s' ∧ r = .ok o := by
  obtain ⟨log, hlogs, hquiet⟩ := h
  obtain ⟨o, ho, hr⟩ := logs_attempt.1 hlogs
  exact ⟨o, ⟨log, ho, hquiet⟩, hr⟩

theorem found {a : Action α} {f : α → Action β} {x : α} {r : Except EngineError β}
    (hx : Finds s.tables a (.ok x)) (h : Refrains R (a >>= f) s r s') :
    Refrains R (f x) s r s' := by
  obtain ⟨log, hlogs, hquiet⟩ := h
  obtain ⟨l₁, l₂, rfl, hrest⟩ := hx.logs_next hlogs
  exact ⟨l₂, hrest, fun c hc ↦ hquiet c (List.mem_append_right _ hc)⟩

theorem written {a : Action α} {f : α → Action β} {x : α} {t' : Store.Tables}
    {r : Except EngineError β} (hx : Writes s.tables a x t') (h : Refrains R (a >>= f) s r s') :
    Refrains R (f x) { s with tables := t' } r s' := by
  obtain ⟨log, hlogs, hquiet⟩ := h
  have hmakes : Makes (fun _ ↦ True) a := by
    intro R s log r s' _ m _
    trivial
  obtain ⟨l₁, l₂, rfl, -, hrest⟩ := hx.logs_next hmakes hlogs
  exact ⟨l₂, hrest, fun c hc ↦ hquiet c (List.mem_append_right _ hc)⟩

end Refrains

theorem not_refrains_launchAttempt {input : Json.Object} {r : Except EngineError StepInstance}
    (hx : s.tables.step? n.uid = some x) : ¬Refrains R (launchAttempt n input) s r s' := by
  rintro ⟨log, hlogs, hquiet⟩
  obtain ⟨time, rest, rfl, hrest⟩ := hlogs.of_now
  have hans : (s.tables.answer (.launchStep n.uid input time)).1 = .ok () :=
    congrArg Prod.fst (Store.Tables.onStep_of_some hx _)
  have hlaunch : ∀ {l r s'}, Logs R (Action.store (.launchStep n.uid input time)) s l r s' →
      ∃ c ∈ l, c.launches n.uid = true := by
    intro l r s' h
    obtain ⟨rfl, hr, -⟩ := logs_store.1 h
    obtain rfl := hr.trans hans
    exact ⟨_, List.mem_singleton_self _, beq_self_eq_true n.uid⟩
  have hin : ∃ c ∈ rest, c.launches n.uid = true := by
    rcases logs_bind.1 hrest with ⟨e, h₁, -⟩ | ⟨l₁, l₂, _, _, rfl, h₁, -⟩
    · exact hlaunch h₁
    · obtain ⟨c, hc, hyes⟩ := hlaunch h₁
      exact ⟨c, List.mem_append_left _ hc, hyes⟩
  obtain ⟨c, hc, hyes⟩ := hin
  cases (hquiet c (List.mem_cons_of_mem _ hc) n.uid).symm.trans hyes

/-! ## A launch that puts nothing into an attempt -/

/-- Launches a step for a case of its decision. -/
def launchCase (setup : Setup) (startChild : StartChild) (n : StepInstance) (input : Json.Object) :
    CaseTarget → Action Unit
  | .function f => setup.dispatchFunction n input f
  | .subWorkflow w => Setup.startSubWorkflow startChild n input w

theorem tryLaunch_of_function (setup : Setup) (startChild : StartChild) {f : Uid}
    (h : n.shape = .simple f ∨ ∃ text, n.shape = .doWhile f text) :
    setup.tryLaunch startChild n = normalize n.inputData n.workflowInstanceUid (some n) >>=
      fun input ↦ setup.dispatchFunction n input f := by
  unfold Setup.tryLaunch
  rcases h with h | ⟨text, h⟩
  · rw [h]
  · rw [h]

theorem tryLaunch_of_subWorkflow (setup : Setup) (startChild : StartChild) {w : Uid}
    (h : n.shape = .subWorkflow w) :
    setup.tryLaunch startChild n = normalize n.inputData n.workflowInstanceUid (some n) >>=
      fun input ↦ Setup.startSubWorkflow startChild n input w := by
  unfold Setup.tryLaunch
  rw [h]

/-- What a decision comes to: the input of the launch and the case that is taken. -/
def decision (n : StepInstance) (expression : String) (cases : Dict CaseTarget) :
    Action (Json.Object × String × CaseTarget) := do
  let input ← normalize n.inputData n.workflowInstanceUid (some n)
  let value ← evaluateSwitch n expression
  let choice ← Action.ofExcept (chooseCase cases value)
  return (input, choice)

theorem reads_decision (n : StepInstance) (expression : String) (cases : Dict CaseTarget) :
    Reads (decision n expression cases) :=
  .bind (reads_normalize _ _ _) fun _ ↦ .bind (reads_evaluateSwitch _ _) fun _ ↦
    .bind (.ofExcept _) fun _ ↦ .pure _

theorem tryLaunch_of_switch (setup : Setup) (startChild : StartChild) {expression : String}
    {cases : Dict CaseTarget} (h : n.shape = .switch expression cases) :
    setup.tryLaunch startChild n = decision n expression cases >>= fun d ↦
      Action.store (.setSelectedCase n.uid d.2.1) >>= fun _ ↦
        launchCase setup startChild n d.1 d.2.2 := by
  unfold Setup.tryLaunch decision
  rw [h]
  simp only [bind_assoc, pure_bind]
  refine congrArg (bind _) (funext fun input ↦ congrArg (bind _) (funext fun value ↦
    congrArg (bind _) (funext fun choice ↦ congrArg (bind _) (funext fun _ ↦ ?_))))
  cases choice.2 with
  | function f => rfl
  | subWorkflow w => rfl

theorem CaseNoted.decision {t t' : Store.Tables} {u : Uid} {name expression : String}
    {cases : Dict CaseTarget} {d : Json.Object × String × CaseTarget} (h : CaseNoted u name t t')
    (hd : Finds t (decision n expression cases) (.ok d)) :
    Finds t' (Engine.decision (withCase u name n) expression cases) (.ok d) := by
  obtain ⟨input, hinput, hrest⟩ := finds_bind_ok.1 hd
  obtain ⟨value, hvalue, hrest⟩ := finds_bind_ok.1 hrest
  obtain ⟨choice, hchoice, hrest⟩ := finds_bind_ok.1 hrest
  exact finds_bind_ok.2 ⟨input, h.normalize hinput, finds_bind_ok.2 ⟨value, h.evaluateSwitch hvalue,
    finds_bind_ok.2 ⟨choice, finds_ofExcept.2 (finds_ofExcept.1 hchoice),
      finds_pure.2 (finds_pure.1 hrest)⟩⟩⟩

/-- What a launch leaves of the records that has not put its step into an attempt: all of them, or
all but the case of its decision. -/
inductive Prepared (t : Store.Tables) (n : StepInstance) : Store.Tables → Prop where
  | unchanged : Prepared t n t
  | decided (expression : String) (cases : Dict CaseTarget) (d : Json.Object × String × CaseTarget)
      (hshape : n.shape = .switch expression cases)
      (hd : Finds t (decision n expression cases) (.ok d)) :
      Prepared t n (t.putStep { n with selectedCaseName := some d.2.1 })

/-- The answer of the catalog to a question about a function says nothing of a configuration. -/
def Impartial (R : Rule) : Prop := ∀ f e, R (.getFunction f) (.error e) → e.isConfiguration = false

/-- What has been tried at a launch that has put nothing into an attempt. -/
structure Balked (R : Rule) (setup : Setup) (startChild : StartChild) (n : StepInstance) (s : Scene)
    (e : EngineError) (s' : Scene) : Prop where
  scene : ∃ t', Prepared s.tables n t' ∧ s' = { s with tables := t' }
  /-- What prevents the launch does so where no call fails, too. -/
  again : Impartial R → Setup.preventsLaunch e = true →
    Runs noFailure (setup.tryLaunch startChild n) s (.error e) s'

theorem Refrains.dispatchFunction {input : Json.Object} {f : Uid} {o : Except EngineError Unit}
    (hx : s.tables.step? n.uid = some x)
    (h : Refrains R (setup.dispatchFunction n input f) s o s') :
    ∃ e, o = .error e ∧ s' = s ∧ R (.getFunction f) (.error e) := by
  rcases h.bind_cases with ⟨e, h₁, rfl⟩ | ⟨info, s₁, h₁, h₂⟩
  · obtain ⟨he, rfl⟩ := runs_getFunction.1 h₁.runs
    exact ⟨e, rfl, rfl, he⟩
  · obtain ⟨-, rfl⟩ := runs_getFunction.1 h₁.runs
    rcases h₂.bind_cases with ⟨_, h₃, -⟩ | ⟨_, _, h₃, -⟩
    · exact absurd h₃ (not_refrains_launchAttempt hx)
    · exact absurd h₃ (not_refrains_launchAttempt hx)

theorem Refrains.startSubWorkflow {input : Json.Object} {w : Uid} {o : Except EngineError Unit}
    (hx : s.tables.step? n.uid = some x) :
    ¬Refrains R (Setup.startSubWorkflow startChild n input w) s o s' := by
  intro h
  rcases h.bind_cases with ⟨_, h₁, -⟩ | ⟨_, _, h₁, -⟩
  · exact not_refrains_launchAttempt hx h₁
  · exact not_refrains_launchAttempt hx h₁

theorem runs_dispatchFunction_again {input : Json.Object} {f : Uid} {e : EngineError}
    (hR : Impartial R) (he : R (.getFunction f) (.error e)) (hp : Setup.preventsLaunch e = true) :
    Runs noFailure (setup.dispatchFunction n input f) s (.error e) s := by
  have hkind : e.kind = .notFound := by
    have hconfig := hR f e he
    unfold Setup.preventsLaunch at hp
    rw [hconfig, Bool.false_or, beq_iff_eq] at hp
    exact hp
  have hanswer : noFailure (.getFunction f) (.error e) := fun _ h ↦ Except.error.inj h ▸ hkind
  exact runs_bind.2 (.inl ⟨e, runs_getFunction.2 ⟨hanswer, rfl⟩, rfl⟩)

/-- A launch that fails while its step is looked at leaves everything as it is. -/
theorem Balked.of_finds {a : Action α} {f : α → Action Unit} {e : EngineError}
    (htry : setup.tryLaunch startChild n = a >>= f) (h : Finds s.tables a (.error e)) :
    Balked R setup startChild n s e s where
  scene := ⟨s.tables, .unchanged, rfl⟩
  again _ _ := by
    rw [htry]
    exact runs_bind.2 (.inl ⟨e, h.runs lenient_noFailure.store, rfl⟩)

/-- A launch of a function that launches nothing has not found the function. -/
theorem Refrains.tryLaunch_function {f : Uid} {o : Except EngineError Unit}
    (hshape : n.shape = .simple f ∨ ∃ text, n.shape = .doWhile f text)
    (hn : s.tables.step? n.uid = some n) (h : Refrains R (setup.tryLaunch startChild n) s o s') :
    ∃ e, o = .error e ∧ Balked R setup startChild n s e s' := by
  have htry := tryLaunch_of_function setup startChild hshape
  rw [htry] at h
  obtain ⟨input | e, hinput⟩ := reads_normalize n.inputData n.workflowInstanceUid (some n) s.tables
  · obtain ⟨rfl, rfl⟩ := hinput.fails h.runs
    exact ⟨_, rfl, .of_finds htry hinput⟩
  · obtain ⟨e, rfl, rfl, he⟩ := (h.found hinput).dispatchFunction hn
    refine ⟨e, rfl, ⟨s'.tables, .unchanged, rfl⟩, fun hR hp ↦ ?_⟩
    rw [htry]
    exact lenient_noFailure.found hinput (runs_dispatchFunction_again hR he hp)

theorem Refrains.tryLaunch_subWorkflow {w : Uid} {o : Except EngineError Unit}
    (hshape : n.shape = .subWorkflow w) (hn : s.tables.step? n.uid = some n)
    (h : Refrains R (setup.tryLaunch startChild n) s o s') :
    ∃ e, o = .error e ∧ Balked R setup startChild n s e s' := by
  have htry := tryLaunch_of_subWorkflow setup startChild hshape
  rw [htry] at h
  obtain ⟨input | e, hinput⟩ := reads_normalize n.inputData n.workflowInstanceUid (some n) s.tables
  · obtain ⟨rfl, rfl⟩ := hinput.fails h.runs
    exact ⟨_, rfl, .of_finds htry hinput⟩
  · exact absurd (h.found hinput) (Refrains.startSubWorkflow hn)

/-- A decision that launches nothing falls on no case, or on a function that is not found. The case
is noted before the function is looked up. -/
theorem Refrains.tryLaunch_switch {expression : String} {cases : Dict CaseTarget}
    {o : Except EngineError Unit} (ht : s.tables.Keyed)
    (hshape : n.shape = .switch expression cases)
    (hn : s.tables.step? n.uid = some n) (h : Refrains R (setup.tryLaunch startChild n) s o s') :
    ∃ e, o = .error e ∧ Balked R setup startChild n s e s' := by
  have htry := tryLaunch_of_switch setup startChild hshape
  rw [htry] at h
  obtain ⟨e | ⟨input, name, target⟩, hd⟩ := reads_decision n expression cases s.tables
  · obtain ⟨rfl, rfl⟩ := hd.fails h.runs
    exact ⟨e, rfl, .of_finds htry hd⟩
  have hnoted := writes_setSelectedCase hn name
  have hrest := (h.found hd).written hnoted
  have hn' : (s.tables.putStep { n with selectedCaseName := some name }).step? n.uid =
      some { n with selectedCaseName := some name } := ht.step?_putStep hn rfl rfl
  cases target with
  | function f =>
    obtain ⟨e, rfl, rfl, he⟩ := Refrains.dispatchFunction hn' hrest
    refine ⟨e, rfl, ⟨_, .decided expression cases _ hshape hd, rfl⟩, fun hR hp ↦ ?_⟩
    rw [htry]
    refine lenient_noFailure.found hd ?_
    exact (lenient_noFailure.written hnoted).andThen (runs_dispatchFunction_again hR he hp)
  | subWorkflow w => exact absurd hrest (Refrains.startSubWorkflow hn')

/-- A launch that launches nothing fails, before it has changed more than the case of a decision. -/
theorem Refrains.tryLaunch {o : Except EngineError Unit} (ht : s.tables.Keyed)
    (hn : s.tables.step? n.uid = some n) (h : Refrains R (setup.tryLaunch startChild n) s o s') :
    ∃ e, o = .error e ∧ Balked R setup startChild n s e s' := by
  cases hshape : n.shape with
  | simple f => exact h.tryLaunch_function (.inl hshape) hn
  | doWhile f text => exact h.tryLaunch_function (.inr ⟨text, hshape⟩) hn
  | subWorkflow w => exact h.tryLaunch_subWorkflow hshape hn
  | switch expression cases => exact h.tryLaunch_switch ht hshape hn

/-! ## A run that does not get beyond a step -/

/-- What is left of the records where a run has moved on from a step and launched nothing: all of
them, or all but the case of what follows. -/
inductive Begun (t : Store.Tables) (y : StepInstance) : Store.Tables → Prop where
  | unchanged : Begun t y t
  | prepared (n : StepInstance) (t' : Store.Tables) (hn : Finds t (nextStep y) (.ok (some n)))
      (hmem : n ∈ t.steps) (h : Prepared t n t') : Begun t y t'

/-- Nothing that is known of a step has changed but the case of its decision. -/
theorem Begun.cases {t t' : Store.Tables} (h : Begun t y t') (ht : t.Keyed) :
    t' = t ∨ ∃ u name, CaseNoted u name t t' := by
  cases h with
  | unchanged => exact .inl rfl
  | prepared n _ _ hmem h =>
    cases h with
    | unchanged => exact .inl rfl
    | decided _ _ d => exact .inr ⟨n.uid, d.2.1, caseNoted_putStep ht hmem d.2.1⟩

theorem Begun.run? {t t' : Store.Tables} (h : Begun t y t') (ht : t.Keyed) (u : Uid) :
    t'.run? u = t.run? u := by
  unfold Store.Tables.run?
  rcases h.cases ht with rfl | ⟨v, name, hnoted⟩
  · rfl
  · rw [hnoted.runs]

theorem Begun.keyed {t t' : Store.Tables} (h : Begun t y t') (ht : t.Keyed) : t'.Keyed := by
  cases h with
  | unchanged => exact ht
  | prepared n _ _ hmem h =>
    cases h with
    | unchanged => exact ht
    | decided => exact ht.putStep hmem rfl

theorem Begun.step? {t t' : Store.Tables} (h : Begun t y t') (ht : t.Keyed) {u : Uid}
    (hx : t.step? u = some x) :
    ∃ case?, t'.step? u = some { x with selectedCaseName := case? } := by
  rcases h.cases ht with rfl | ⟨v, name, hnoted⟩
  · exact ⟨x.selectedCaseName, hx⟩
  · refine ⟨(withCase v name x).selectedCaseName, ?_⟩
    rw [hnoted.step?, hx]
    rfl

/-- What comes of moving on from a step where that fails before anything is launched. -/
inductive Failed (R : Rule) (setup : Setup) (y : StepInstance) (s : Scene) (e : EngineError)
    (s' : Scene) : Prop where
  /-- The run has not got beyond the step. -/
  | stopped (t' : Store.Tables) (h : Begun s.tables y t') (hs' : s' = { s with tables := t' })
  /-- The run has been ended, which fails with its report. Where no call fails it is ended as
  well. -/
  | ended (t' : Store.Tables) (h : Begun s.tables y t') (status : RunStatus)
      (failure : Option Failure) (output : Option Json.Object) (hends : Ends status failure output)
      (hrun : Runs R (setup.terminate y.workflowInstanceUid status failure output)
        { s with tables := t' } (.error e) s')
      (hagain : ∀ {r s''}, Runs noFailure
        (setup.terminate y.workflowInstanceUid status failure output)
          { s with tables := t' } r s'' → Runs noFailure (setup.advance y) s r s'')

/-- **A run that fails to move on and launches nothing** has not got beyond the step, or cannot
report that it has ended. -/
theorem Refrains.advance {ds : List Dispatch} {issued : List Uid} {e : EngineError}
    (hst : Stands (fun _ ↦ False) s.tables issued ds) (hy : s.tables.step? y.uid = some y)
    (hsucc : y.runStatus = .completed ∨ y.runStatus = .skipped) (hR : Impartial R)
    (h : Refrains R (setup.advance y) s (.error e) s') : Failed R setup y s e s' := by
  have hL := lenient_noFailure
  rw [advance_of_success hsucc] at h
  obtain ⟨o, ho⟩ := reads_nextStep y s.tables
  have hnext : Finds s.tables (Action.attempt (nextStep y)) (.ok o) := finds_attempt.2 ⟨o, ho, rfl⟩
  have hrest := h.found hnext
  have hgoOn : ∀ {r s''}, Runs noFailure (goOn setup y o) s r s'' →
      Runs noFailure (setup.advance y) s r s'' := by
    intro r s'' hrun
    rw [advance_of_success hsucc]
    exact hL.found hnext hrun
  -- The end of the run where nothing has been tried.
  have hend : ∀ {status failure output}, Ends status failure output →
      goOn setup y o = setup.terminate y.workflowInstanceUid status failure output →
      Failed R setup y s e s' := by
    intro status failure output hends hgo
    rw [hgo] at hrest hgoOn
    exact .ended s.tables .unchanged status failure output hends hrest.runs hgoOn
  rcases o with e' | _ | n
  · by_cases hconfig : e'.isConfiguration = true
    · exact hend (.failed ⟨y.name, e'.message⟩ (.inl rfl)) (if_pos hconfig)
    · rw [goOn, if_neg hconfig] at hrest
      exact .stopped s.tables .unchanged (runs_throw.1 hrest.runs).2
  · by_cases hlast : y.isLast = true
    · exact hend (.completed y.outputData) (if_pos hlast)
    · exact hend (.failed ⟨y.name, missingNext⟩ (.inl rfl)) (if_neg hlast)
  · obtain ⟨hmem, hown⟩ := exists_next hst (Store.Tables.mem_of_step? hy).1 ho
    have hn := hst.keyed.step?_iff.2 ⟨hmem, rfl⟩
    rcases hrest.bind_cases with ⟨_, h₁, -⟩ | ⟨o, s₁, h₁, h₂⟩
    · obtain ⟨_, -, hr⟩ := h₁.attempt
      cases hr
    obtain ⟨o', htry, hr⟩ := h₁.attempt
    obtain rfl := Except.ok.inj hr
    obtain ⟨e', rfl, hbalked⟩ := htry.tryLaunch hst.keyed hn
    obtain ⟨t', hprepared, rfl⟩ := hbalked.scene
    have hfail := h₂.runs
    dsimp only at hfail
    by_cases hp : Setup.preventsLaunch e' = true
    · rw [if_pos hp, Setup.fail, hown] at hfail
      refine .ended t' (.prepared n t' ho hmem hprepared) .failed (some ⟨n.name, e'.message⟩) none
        (.failed _ (.inl rfl)) hfail fun hrun ↦ hgoOn ?_
      refine Runs.andThen (runs_attempt.2 ⟨_, hbalked.again hR hp, rfl⟩) ?_
      dsimp only
      rw [if_pos hp, Setup.fail, hown]
      exact hrun
    · rw [if_neg hp] at hfail
      exact .stopped t' (.prepared n t' ho hmem hprepared) (runs_throw.1 hfail).2

/-! ## The second handling -/

theorem runs_processResult_refused (ht : s.tables.Keyed)
    (hy : s.tables.step? m.stepInstanceId = some y)
    (hrefused : y.runStatus ≠ .running ∨
      ∃ attempt, m.attempt = some attempt ∧ attempt ≠ y.runCount + 1)
    {r : Except EngineError Unit} (h : Runs R (setup.processResult m) s r s') :
    Runs R (setup.processRepeated y m) s r s' := by
  have hrest := (finds_readStep hy).next h
  have hself : s.tables.step? y.uid = some y := (Store.Tables.mem_of_step? hy).2.symm ▸ hy
  rcases runs_bind.1 hrest with ⟨e, h₁, -⟩ | ⟨applied, s₁, h₁, hrest⟩
  · cases (runs_applyResult_refused ht hself hrefused h₁).1
  obtain ⟨happlied, rfl⟩ := runs_applyResult_refused ht hself hrefused h₁
  obtain rfl := Except.ok.inj happlied
  exact hrest

/-- A repeated result makes a run that is running go on, if the follow-up of the step is not
there. -/
theorem runs_processRepeated_open (hrepeats : repeatsLast y m = true)
    (hq : s.tables.run? y.workflowInstanceUid = some q) (hgoes : q.runStatus = .running)
    (hopen : Unfollowed s.tables y) {r : Except EngineError Unit}
    (h : Runs R (setup.processRepeated y m) s r s') : Runs R (setup.advance y) s r s' := by
  unfold Setup.processRepeated at h
  rw [if_pos hrepeats] at h
  have hrest := (finds_readRun hq).next h
  rw [hgoes] at hrest
  have hrest := (finds_awaitsFollowUp.2 hopen).next hrest
  rw [if_pos rfl] at hrest
  exact hrest

theorem runs_processRepeated_ended (hrepeats : repeatsLast y m = true)
    (hq : s.tables.run? y.workflowInstanceUid = some q) (hended : q.runStatus.isTerminal = true)
    (hstopped : q.runStatus ≠ .stopped) {r : Except EngineError Unit}
    (h : Runs R (setup.processRepeated y m) s r s') :
    Runs R (reportToParent q q.runStatus (recordedReason q) q.outputData) s r s' := by
  unfold Setup.processRepeated at h
  rw [if_pos hrepeats] at h
  have hrest := (finds_readRun hq).next h
  revert hrest
  cases hstatus : q.runStatus with
  | running | paused | new | deployingFunctions | skipped => cases hstatus ▸ hended
  | stopped => exact absurd hstatus hstopped
  | completed | completedWithErrors | failed | failedWithTerminalError | canceled | timedOut =>
    exact id

/-- The launch of a step of which the case has been noted may as well be one of the step as it was
before. -/
theorem Prepared.runs_launchStep {t' : Store.Tables} (h : Prepared s.tables n t')
    (ht : s.tables.Keyed) (hn : s.tables.step? n.uid = some n) (hn' : t'.step? n.uid = some x)
    {r : Except EngineError Unit}
    (hrun : Runs noFailure (setup.launchStep x) { s with tables := t' } r s') :
    Runs noFailure (setup.launchStep n) s r s' := by
  have hL := lenient_noFailure
  cases h with
  | unchanged =>
    obtain rfl := Option.some.inj (hn.symm.trans hn')
    exact hrun
  | decided expression cases d hshape hd =>
    obtain ⟨input, name, target⟩ := d
    obtain ⟨hmem, -⟩ := Store.Tables.mem_of_step? hn
    have hnoted := caseNoted_putStep ht hmem name
    obtain rfl : withCase n.uid name n = x := by
      rw [hnoted.step?, hn] at hn'
      exact Option.some.inj hn'
    obtain ⟨o, s₁, htry, h₂⟩ := runs_attempt_bind.1 hrun
    refine runs_attempt_bind.2 ⟨o, s₁, ?_, h₂⟩
    -- The decision falls on the same case again, and noting it again changes nothing.
    have hshape' : (withCase n.uid name n).shape = .switch expression cases := hshape
    rw [tryLaunch_of_switch _ _ hshape'] at htry
    rw [tryLaunch_of_switch _ _ hshape]
    have hrest := Finds.next (hnoted.decision hd) htry
    have hnote := writes_setSelectedCase hn' name
    have hsame : (s.tables.putStep { n with selectedCaseName := some name }).putStep
        { withCase n.uid name n with selectedCaseName := some name } =
          s.tables.putStep { n with selectedCaseName := some name } :=
            Store.Tables.putStep_putStep rfl
    rw [hsame] at hnote
    have hlaunch := hnote.next hrest
    refine lenient_noFailure.found hd ?_
    refine (lenient_noFailure.written (writes_setSelectedCase hn name)).andThen ?_
    cases target with
    | function f => exact hlaunch
    | subWorkflow w => exact hlaunch

/-- Moving on from a step may as well begin before the case of what follows has been noted. -/
theorem Begun.runs_advance {t' : Store.Tables} (h : Begun s.tables y t') (ht : s.tables.Keyed)
    (hy : s.tables.step? y.uid = some y) (hsucc : y.runStatus = .completed ∨ y.runStatus = .skipped)
    (hx : t'.step? y.uid = some x) {r : Except EngineError Unit}
    (hrun : Runs noFailure (setup.advance x) { s with tables := t' } r s') :
    Runs noFailure (setup.advance y) s r s' := by
  have hL := lenient_noFailure
  cases h with
  | unchanged =>
    obtain rfl := Option.some.inj (hy.symm.trans hx)
    exact hrun
  | prepared n _ hn hmem hprepared =>
    have hn' := ht.step?_iff.2 ⟨hmem, rfl⟩
    have hgoOn : ∀ {x'}, t'.step? n.uid = some x' → Runs noFailure (setup.launchStep x')
        { s with tables := t' } r s' → Runs noFailure (setup.advance y) s r s' := by
      intro x' hx' hlaunch
      rw [advance_of_success hsucc]
      exact hL.found (finds_attempt.2 ⟨_, hn, rfl⟩) (hprepared.runs_launchStep ht hn' hx' hlaunch)
    rcases (Begun.prepared n t' hn hmem hprepared).cases ht with rfl | ⟨u, name, hnoted⟩
    · obtain rfl := Option.some.inj (hy.symm.trans hx)
      exact hrun
    · rw [hnoted.step?, hy] at hx
      obtain rfl := Option.some.inj hx
      have hsucc' : (withCase u name y).runStatus = .completed ∨
          (withCase u name y).runStatus = .skipped := hsucc
      rw [advance_of_success hsucc'] at hrun
      have hlaunch := Finds.next (finds_attempt.2 ⟨_, hnoted.nextStep hn, rfl⟩) hrun
      refine hgoOn ?_ hlaunch
      rw [hnoted.step?, hn']
      rfl

/-! ## One handling instead of two -/

def Scene.delivered (s : Scene) : List Parcel := (s.sent.filter (·.accepted)).map (·.parcel)

/-- Two scenes differ in nothing but parcels that nobody has taken. -/
structure Agrees (s s' : Scene) : Prop where
  tables : s'.tables = s.tables
  issued : s'.issued = s.issued
  made : s'.made = s.made
  delivered : s'.delivered = s.delivered

theorem Agrees.refl (s : Scene) : Agrees s s := ⟨rfl, rfl, rfl, rfl⟩

/-- A run that has not been able to report that it has ended reports it when the result is
repeated. -/
theorem Failed.reported {t' : Store.Tables} (hbegun : Begun s.tables y t')
    (hs : Sound setup (fun _ ↦ False) s) (hy : s.tables.step? y.uid = some y)
    (hq : s.tables.run? y.workflowInstanceUid = some q) (hgoes : q.runStatus.isTerminal = false)
    (hx : s₁.tables.step? y.uid = some x) (hrepeats : repeatsLast y m = true) {status : RunStatus}
    {failure : Option Failure} {output : Option Json.Object} (hends : Ends status failure output)
    {e : EngineError} (hrun : Runs R (setup.terminate y.workflowInstanceUid status failure output)
      { s with tables := t' } (.error e) s₁) {r : Except EngineError Unit}
    (hsecond : Runs noFailure (setup.processRepeated x m) s₁ r s₂) :
    ∃ s₃, Runs noFailure (setup.terminate y.workflowInstanceUid status failure output)
      { s with tables := t' } r s₃ ∧ Agrees s₃ s₂ := by
  have hL := lenient_noFailure
  have ht := hbegun.keyed hs.keyed
  have hq' : t'.run? y.workflowInstanceUid = some q := (hbegun.run? hs.keyed _).trans hq
  obtain ⟨hqm, hqu⟩ := Store.Tables.mem_of_run? hq
  obtain ⟨time, hreport⟩ := runs_terminate ht hq' hgoes hrun
  obtain ⟨hreason, houtput⟩ := hends.recorded time (hs.clean.unended q hqm hgoes)
  -- The first report has not been taken, and the second one is the same.
  obtain ⟨sent₁, hs₁, hnone, -⟩ := runs_reportToParent hreport
  subst hs₁
  obtain ⟨case?, hcase⟩ := hbegun.step? hs.keyed hy
  obtain rfl : { y with selectedCaseName := case? } = x := Option.some.inj (hcase.symm.trans hx)
  have hended : (t'.putRun (endedRun q status failure output time)).run? y.workflowInstanceUid =
      some (endedRun q status failure output time) := ht.run?_putRun hq' hqu
  have hstopped : status ≠ .stopped := by
    cases hends with
    | completed => decide
    | failed _ hstatus => rcases hstatus with rfl | rfl | rfl | rfl <;> decide
  have hrepeats' : repeatsLast { y with selectedCaseName := case? } m = true := hrepeats
  have hagain := runs_processRepeated_ended hrepeats' hended hends.isTerminal hstopped hsecond
  rw [← hreason, ← houtput] at hagain
  obtain ⟨sent₂, rfl, -, helsewhere⟩ := runs_reportToParent hagain
  refine ⟨_, hL.ended ht hq' hgoes time (helsewhere _ rfl hL), rfl, rfl, rfl, ?_⟩
  have hlost : sent₁.filter (·.accepted) = [] :=
    List.filter_eq_nil_iff.2 fun p hp ↦ Bool.eq_false_iff.1 (hnone e rfl p hp)
  simp [Scene.delivered, List.filter_append, hlost]

/-- **The second handling is what is missing of the first**, if the first has launched nothing. -/
theorem Failed.resumed {e : EngineError} (h : Failed R setup y s e s₁)
    (hs : Sound setup (fun _ ↦ False) s) (hy : s.tables.step? y.uid = some y)
    (hsucc : y.runStatus = .completed ∨ y.runStatus = .skipped)
    (hq : s.tables.run? y.workflowInstanceUid = some q) (hgoes : q.runStatus = .running)
    (hx : s₁.tables.step? y.uid = some x) (hrepeats : repeatsLast y m = true)
    (hopen : IsEnded s₁.tables y.workflowInstanceUid ∨ Unfollowed s₁.tables x)
    {r : Except EngineError Unit} (hsecond : Runs noFailure (setup.processRepeated x m) s₁ r s₂) :
    ∃ s₃, Runs noFailure (setup.advance y) s r s₃ ∧ Agrees s₃ s₂ := by
  cases h with
  | stopped t' hbegun hs₁ =>
    subst hs₁
    obtain ⟨case?, hcase⟩ := hbegun.step? hs.keyed hy
    obtain rfl := Option.some.inj (hcase.symm.trans hx)
    have hq' : t'.run? y.workflowInstanceUid = some q := (hbegun.run? hs.keyed _).trans hq
    have hunfollowed := hopen.resolve_left fun ⟨p, hp, hended⟩ ↦ by
      obtain rfl := Option.some.inj (hq'.symm.trans hp)
      rw [hgoes] at hended
      cases hended
    have hrepeats' : repeatsLast { y with selectedCaseName := case? } m = true := hrepeats
    have hadvance := runs_processRepeated_open hrepeats' hq' hgoes hunfollowed hsecond
    exact ⟨s₂, hbegun.runs_advance hs.keyed hy hsucc hcase hadvance, .refl s₂⟩
  | ended t' hbegun status failure output hends hrun hagain =>
    have hgoes' : q.runStatus.isTerminal = false := by rw [hgoes]; rfl
    obtain ⟨s₃, hs₃, hagrees⟩ :=
      Failed.reported hbegun hs hy hq hgoes' hx hrepeats hends hrun hsecond
    exact ⟨s₃, hagain hs₃, hagrees⟩

/-- A result that answers the attempt of a step of a run that is running. -/
structure Awaited (s : Scene) (m : StepResult) (x : StepInstance)
    (q : WorkflowInstance) : Prop where
  step : s.tables.step? m.stepInstanceId = some x
  running : x.runStatus = .running
  attempt : m.attempt = some (attemptOf x)
  run : s.tables.run? x.workflowInstanceUid = some q
  goes : q.runStatus = .running

section Accepted

variable (h : Awaited s m x q)

include h

theorem Awaited.self : s.tables.step? x.uid = some x :=
  (Store.Tables.mem_of_step? h.step).2.symm ▸ h.step

theorem Awaited.attempts : ∀ a ∈ m.attempt, a = attemptOf x := by
  intro a ha
  rw [h.attempt] at ha
  exact (Option.some.inj ha).symm

theorem Awaited.written (hs : Sound setup (fun _ ↦ False) s) (hcount : x.CanCount)
    (time : Instant) : Sound setup (fun _ ↦ False)
      { s with tables := s.tables.putStep (answeredStep x m time) } :=
  ⟨hs.standing.written h.self h.running hcount h.attempts time, hs.clean.putStep _⟩

/-- A handling that fails although its result is accepted has written the result and fails to move
the run on. -/
theorem Awaited.logs_failed (ht : s.tables.Keyed) (hcount : x.CanCount) {e : EngineError}
    (hfirst : Logs R (setup.processResult m) s log (.error e) s₁) :
    ∃ time l₁ l₂, log = l₁ ++ l₂ ∧
      Logs R (setup.advance (answeredStep x m time))
        { s with tables := s.tables.putStep (answeredStep x m time) } l₂ (.error e) s₁ := by
  obtain ⟨l₁, rest, rfl, h₁⟩ := (finds_readStep h.step).logs_next hfirst
  rcases logs_bind.1 h₁ with ⟨e', h₂, -⟩ | ⟨l₂, rest, applied, t, rfl, h₂, h₃⟩
  · obtain ⟨_, he, -⟩ := runs_applyResult_accepted ht h.self h.running hcount h.attempts h₂.runs
    cases he
  obtain ⟨time, happlied, rfl⟩ :=
    runs_applyResult_accepted ht h.self h.running hcount h.attempts h₂.runs
  obtain rfl := Except.ok.inj happlied
  have hread : Finds (s.tables.putStep (answeredStep x m time)) (readRun x.workflowInstanceUid)
      (.ok q) := finds_readRun h.run
  obtain ⟨l₃, l₄, rfl, h₄⟩ := Finds.logs_next hread h₃
  rw [h.goes, if_neg (by decide), if_neg (by decide)] at h₄
  exact ⟨time, l₁ ++ (l₂ ++ l₃), l₄, by simp, h₄⟩

/-- A handling that writes the result at a given time, and moves on from there. -/
theorem Awaited.runs_processResult (hcount : x.CanCount) (ht : s.tables.Keyed) (time : Instant)
    {r : Except EngineError Unit} (hrun : Runs noFailure (setup.advance (answeredStep x m time))
      { s with tables := s.tables.putStep (answeredStep x m time) } r s') :
    Runs noFailure (setup.processResult m) s r s' := by
  have hL := lenient_noFailure
  refine hL.found (finds_readStep h.step) ?_
  refine (hL.applied ht h.self h.running hcount h.attempts time).andThen ?_
  have hread : Finds (s.tables.putStep (answeredStep x m time)) (readRun x.workflowInstanceUid)
      (.ok q) := finds_readRun h.run
  refine hL.found hread ?_
  rw [h.goes, if_neg (by decide), if_neg (by decide)]
  exact hrun

end Accepted

/-- **A failure that strikes before anything has been launched is made good for by the
redelivery.** -/
theorem resumed_of_unlaunched (h : Reachable setup anyAnswer s) (hm : Awaited s m x q)
    (hsucc : m.runStatus = .completed ∨ m.runStatus = .skipped) {e : EngineError}
    (hfirst : Logs R (setup.processResult m) s log (.error e) s₁) {r : Except EngineError Unit}
    (hsecond : Runs noFailure (setup.processResult m) s₁ r s₂)
    (hy : s₁.tables.step? m.stepInstanceId = some y) :
    (Impartial R → (∀ c ∈ log, ∀ u, c.launches u = false) →
      IsEnded s₁.tables x.workflowInstanceUid ∨ Unfollowed s₁.tables y →
        ∃ s₃, Runs noFailure (setup.processResult m) s r s₃ ∧ Agrees s₃ s₂) ∧
    (¬Unfollowed s₁.tables y → Inert s₁ s₂) := by
  have hs := sound_of_reachable (guiding_nobody _) h
  have hcount := h.canCount x hm.step
  obtain ⟨hxm, hxu⟩ := Store.Tables.mem_of_step? hm.step
  obtain ⟨time, l₁, l₂, rfl, hadvance⟩ := hm.logs_failed hs.keyed hcount hfirst
  have hwritten := hm.written hs hcount time
  have hsucc' : (answeredStep x m time).runStatus = .completed ∨
      (answeredStep x m time).runStatus = .skipped := hsucc
  have hanswered : (s.tables.putStep (answeredStep x m time)).step? (answeredStep x m time).uid =
      some (answeredStep x m time) := hs.keyed.step?_putStep hm.self rfl rfl
  -- The result that has been written is not taken back, so it is refused the second time.
  have hrepeated : Runs noFailure (setup.processRepeated y m) s₁ r s₂ := by
    have hdeeds : Deeds setup (fun _ ↦ False) (.result m) _ l₂ s₁ :=
      (does_advance (guiding_nobody R) (.none hwritten) ⟨leaving_of_run hwritten hanswered hm.run
        ⟨by rw [hm.goes]; rfl, by rw [hm.goes]; decide⟩ (fun hG ↦ hG.elim) fun hG ↦ hG.elim,
        fun _ hc ↦ nomatch hc⟩ hadvance).1
    have hle : x.runCount + 1 ≤ y.runCount := by
      refine hdeeds.le_runCount (.inr (issued_of_step? hwritten hanswered)) (fun z hz ↦ ?_) y
        (hxu.symm ▸ hy)
      obtain rfl := Option.some.inj (hanswered.symm.trans hz)
      exact Int.le_refl _
    refine runs_processResult_refused hdeeds.sound.keyed hy (.inr ⟨_, hm.attempt, ?_⟩) hsecond
    unfold attemptOf
    omega
  constructor
  · intro hR hquiet hopen
    obtain ⟨ds, hst, -⟩ := hwritten.standing
    have hrefrains : Refrains R (setup.advance (answeredStep x m time)) _ (.error e) s₁ :=
      ⟨l₂, hadvance, fun c hc ↦ hquiet c (List.mem_append_right _ hc)⟩
    have hrepeats : repeatsLast (answeredStep x m time) m = true := by
      have hnot : m.runStatus ≠ .running := by rcases hsucc with h | h <;> simp [h]
      simp [repeatsLast, answeredStep, hm.attempt, attemptOf, hnot]
    obtain ⟨s₃, hs₃, hagrees⟩ := (hrefrains.advance hst hanswered hsucc' hR).resumed hwritten
      hanswered hsucc' hm.run hm.goes (hxu.symm ▸ hy) hrepeats hopen hrepeated
    exact ⟨s₃, hm.runs_processResult hcount hs.keyed time hs₃, hagrees⟩
  · intro hclosed
    have hstanding : Standing setup (fun _ ↦ False) s₁ :=
      keeps_operation (guiding_nobody R) (.result m) hs.standing hfirst.runs
    have hself := (Store.Tables.mem_of_step? hy).2.symm ▸ hy
    exact (inert_processRepeated hstanding (fun _ _ ha ↦ ha) hself hrepeated).2
      fun ⟨_, _, _, hopen, _⟩ ↦ hclosed hopen

/-- The first step is answered while the catalog of functions is out of reach. -/
def hinderedHandling : Except EngineError Unit × List Moment × Scene :=
  (willing.withoutFunctions.record 0 (queueSetup.processResult firstAnswer).run underwayScene).get
    (by decide +kernel)

def answeredCall : StepInstance :=
  (hinderedHandling.2.2.tables.step? (World.nthUid 1)).get (by decide +kernel)

def resumedHandling : Except EngineError Unit × Scene :=
  (willing.perform (queueSetup.processResult firstAnswer).run hinderedHandling.2.2).get
    (by decide +kernel)

theorem resumed_of_hinderedHandling :
    (Reachable queueSetup anyAnswer underwayScene ∧
      Awaited underwayScene firstAnswer underwayStep underwayRun ∧
      Logs willing.withoutFunctions.rule (queueSetup.processResult firstAnswer) underwayScene
        hinderedHandling.2.1 (.error outOfReach) hinderedHandling.2.2 ∧
      Runs noFailure (queueSetup.processResult firstAnswer) hinderedHandling.2.2 resumedHandling.1
        resumedHandling.2 ∧
      Impartial willing.withoutFunctions.rule ∧
      (∀ c ∈ hinderedHandling.2.1, ∀ u, c.launches u = false) ∧
      Unfollowed hinderedHandling.2.2.tables answeredCall) ∧
    (hinderedHandling.2.2.handOvers.length = 1 ∧ resumedHandling.2.handOvers.length = 2) ∧
    ∃ s₃, Runs noFailure (queueSetup.processResult firstAnswer) underwayScene resumedHandling.1 s₃ ∧
      Agrees s₃ resumedHandling.2 := by
  have hreach : Reachable queueSetup anyAnswer underwayScene :=
    (Collaborators.reachable_get _).weaken fun _ _ _ ↦ trivial
  have hawaited : Awaited underwayScene firstAnswer underwayStep underwayRun :=
    { step := by decide +kernel
      running := by decide +kernel
      attempt := by decide +kernel
      run := by decide +kernel
      goes := by decide +kernel }
  have hfirst : Logs willing.withoutFunctions.rule (queueSetup.processResult firstAnswer)
      underwayScene hinderedHandling.2.1 hinderedHandling.1 hinderedHandling.2.2 :=
    Collaborators.logged_get _ _
  have herror : hinderedHandling.1 = .error outOfReach := by rfl
  rw [herror] at hfirst
  have hsecond : Runs noFailure (queueSetup.processResult firstAnswer) hinderedHandling.2.2
      resumedHandling.1 resumedHandling.2 :=
    (Collaborators.leads_get _ _).weaken fun _ _ ↦ Collaborators.noFailure_of_single
  have himpartial : Impartial willing.withoutFunctions.rule := by
    intro f e he
    obtain rfl : e = outOfReach := Except.error.inj he
    rfl
  have hcalls : ∀ c ∈ hinderedHandling.2.1, c.call.isLaunch = false := by decide +kernel
  have hquiet : ∀ c ∈ hinderedHandling.2.1, ∀ u, c.launches u = false :=
    fun c hc _ ↦ Moment.launches_of_call (hcalls c hc)
  have hstep : hinderedHandling.2.2.tables.step? firstAnswer.stepInstanceId =
      some answeredCall := by
    decide +kernel
  have hopen : Unfollowed hinderedHandling.2.2.tables answeredCall :=
    finds_awaitsFollowUp.1 (by rfl)
  exact ⟨⟨hreach, hawaited, hfirst, hsecond, himpartial, hquiet, hopen⟩,
    ⟨by decide +kernel, by decide +kernel⟩,
    (resumed_of_unlaunched hreach hawaited (.inl rfl) hfirst hsecond hstep).1 himpartial hquiet
      (.inr hopen)⟩

end Engine

end Orchestration
