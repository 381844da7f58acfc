import Orchestration.Proofs.Collaborators
import Orchestration.Proofs.LaunchOutcome

/-!
# Refused results

The store refuses a result of a step that is not running, and one that names another attempt than
the one under way. Such a result is mostly a duplicate, and handling it should change nothing. It
may also be the first sign that a failure has kept the run from moving on, so the engine looks
whether what should have followed the result is there, and does it if it is not.

The question whether a refused result is inert has an exact answer in the records (`Redriven`). It
is not inert if it repeats the last result of its step, the run goes on, and what follows the step
looks undone. That may be so although everything was done: the stop condition of a loop may say
something else than when the loop was left, because it reads a step that has been launched since; a
step may have been answered with the status of a new one; and a step that has failed looks undone
for as long as its launch stalls.
-/

namespace Orchestration

namespace Engine

variable {R : Rule} {setup : Setup} {G : Uid → Prop} {s s' : Scene} {t : Store.Tables}
variable {x : StepInstance} {result : StepResult} {r : Except EngineError Unit}

/-- The store refuses a result: the step is not running, or the result names another attempt than
the one that the step is in. -/
def Refused (t : Store.Tables) (result : StepResult) : Prop :=
  ∀ x, t.step? result.stepInstanceId = some x →
    x.runStatus ≠ .running ∨ ∃ attempt, result.attempt = some attempt ∧ attempt ≠ x.runCount + 1

/-- Nothing has come of an operation: no record has changed, and no work has been handed over. -/
def Inert (s s' : Scene) : Prop := s'.tables = s.tables ∧ s'.handOvers = s.handOvers

/-- What follows a successful step is there, but cannot be launched for the time being. -/
def FollowUpStalls (t : Store.Tables) (x : StepInstance) : Prop :=
  (x.runStatus = .completed ∨ x.runStatus = .skipped) ∧
    ∃ n, Finds t (nextStep x) (.ok (some n)) ∧ LaunchStalls t n

/-- A refused result makes the run go on from its step once more: it repeats the last result of the
step, what should have followed is not there, and the run either is running, and what follows does
not stall, or is paused and does not hold the step yet. -/
def Redriven (t : Store.Tables) (result : StepResult) : Prop :=
  ∃ x q, t.step? result.stepInstanceId = some x ∧ t.run? x.workflowInstanceUid = some q ∧
    repeatsLast x result = true ∧ Unfollowed t x ∧
    (q.runStatus = .running ∧ ¬FollowUpStalls t x ∨
      q.runStatus = .paused ∧ q.heldStepInstanceUid ≠ some x.uid)

theorem Inert.refl (s : Scene) : Inert s s := ⟨rfl, rfl⟩

/-! ## What a refused result does not do -/

theorem runs_applyResult_refused {r : Except EngineError (Option StepInstance)}
    (ht : s.tables.Keyed) (hx : s.tables.step? x.uid = some x)
    (hrefused : x.runStatus ≠ .running ∨
      ∃ attempt, result.attempt = some attempt ∧ attempt ≠ x.runCount + 1)
    (h : Runs R (applyResult x result) s r s') : r = .ok none ∧ s' = s := by
  unfold applyResult at h
  cases hexp : expectedRunCount x result with
  | none =>
    rw [hexp] at h
    exact runs_pure.1 h
  | some expected =>
    rw [hexp] at h
    obtain ⟨time, h⟩ := Runs.of_now h
    set update := updateOf result time expected
    have hno : x.runStatus ≠ .running ∨ x.runCount ≠ update.expectedRunCount := by
      refine hrefused.imp_right fun ⟨attempt, hattempt, hne⟩ hcount ↦ ?_
      unfold expectedRunCount at hexp
      rw [hattempt] at hexp
      dsimp only at hexp
      split at hexp
      · cases hexp
      · have hexpected : attempt - 1 = expected := Option.some.inj hexp
        have hcount : x.runCount = expected := hcount
        omega
    have hans : s.tables.answer (.applyStepResult x.uid update) = (.ok false, s.tables) := by
      rw [Store.Tables.answer_applyStepResult (Store.Tables.isBeyondCount_of_unexpected hx hno),
        Store.Tables.onStep_of_some hx, Store.Tables.withResult, if_pos hno,
        ht.putStep_self (Store.Tables.mem_of_step? hx).1]
    have hwrites := Writes.store (c := .applyStepResult x.uid update) (x := false)
      (congrArg Prod.fst hans) rfl
    rw [hans] at hwrites
    have hrest := hwrites.next h
    exact runs_pure.1 hrest

theorem inert_reportToParent {q : WorkflowInstance} {status : RunStatus} {reason : Option String}
    {output : Json.Object} (h : Runs R (reportToParent q status reason output) s r s') :
    Inert s s' := by
  refine keeps_reportToParent_of (I := Inert s) (fun answer s₁ r₁ s₁' hs₁ hrun ↦ ?_) _ _ _ _
    (Inert.refl s) h
  obtain ⟨-, rfl⟩ := runs_publish.1 hrun
  refine ⟨hs₁.1, ?_⟩
  rw [← hs₁.2, Scene.handOvers, Scene.publish, if_neg (by decide), Scene.send, List.map_append,
    List.filter_append]
  simp [Scene.handOvers, Parcel.handsOver]

theorem FollowUpStalls.runs_advance (hstalls : FollowUpStalls s.tables x)
    (h : Runs R (setup.advance x) s r s') : s' = s := by
  obtain ⟨hsucc, n, hn, hlaunch⟩ := hstalls
  rw [advance_of_success hsucc] at h
  have hrest := Finds.next (finds_attempt.2 ⟨_, hn, rfl⟩) h
  exact hlaunch.runs_launch hrest

/-! ## What a follow-up does -/

theorem exists_next {issued : List Uid} {ds : List Dispatch} (hst : Stands G t issued ds)
    (hx : x ∈ t.steps) {n : StepInstance} (hn : Finds t (nextStep x) (.ok (some n))) :
    n ∈ t.steps ∧ n.workflowInstanceUid = x.workflowInstanceUid := by
  rcases finds_nextStep hn with ⟨-, -, -, -, hr⟩ | ⟨-, hr⟩ | ⟨_, _, _, -, -, hr⟩
  · obtain rfl := Option.some.inj (Except.ok.inj hr)
    exact ⟨hx, rfl⟩
  · obtain ⟨hmem, hw, -⟩ := hst.step?_bind hx (Except.ok.inj hr).symm
    exact ⟨hmem, hw⟩
  · cases hr

/-- A launch of a step that is not running, of a run that has not ended, stalls or changes the
records. -/
theorem changes_launchStep (hs : Standing setup (fun _ ↦ False) s)
    (hR : ∀ f a, R (.getFunction f) a → ∀ e, a = .error e → e.kind = .notFound)
    (hx : s.tables.step? x.uid = some x) (hidle : x.runStatus ≠ .running) {q : WorkflowInstance}
    (hq : s.tables.run? x.workflowInstanceUid = some q) (hend : q.runStatus.isTerminal = false)
    (h : Runs R (setup.launchStep x) s r s') :
    (LaunchStalls s.tables x ∧ s' = s) ∨ s'.tables ≠ s.tables := by
  rcases outcome_launchStep hs hR hx ⟨q, hq⟩ h with
    hstalls | ⟨⟨y, hy, hrunning⟩, -⟩ | ⟨p, hp, hended⟩
  · exact .inl hstalls
  · refine .inr fun htables ↦ hidle ?_
    rw [htables, hx] at hy
    rw [Option.some.inj hy, hrunning]
  · refine .inr fun htables ↦ ?_
    rw [htables, hq] at hp
    rw [Option.some.inj hp, hended] at hend
    cases hend

theorem changes_terminate (ht : s.tables.Keyed) {run : Uid} {q : WorkflowInstance}
    (hq : s.tables.run? run = some q) (hend : q.runStatus.isTerminal = false) {status : RunStatus}
    (hstatus : status.isTerminal = true) {failure : Option Failure} {output : Option Json.Object}
    (h : Runs R (setup.terminate run status failure output) s r s') : s'.tables ≠ s.tables := by
  obtain ⟨p, hp, hended⟩ := isEnded_of_terminate ht ⟨q, hq⟩ hstatus h
  intro htables
  rw [htables, hq] at hp
  rw [Option.some.inj hp, hended] at hend
  cases hend

theorem changes_retry (hs : Standing setup (fun _ ↦ False) s)
    (hR : ∀ f a, R (.getFunction f) a → ∀ e, a = .error e → e.kind = .notFound)
    (hx : s.tables.step? x.uid = some x) (hfailed : x.runStatus = .failed ∨ x.runStatus = .timedOut)
    {q : WorkflowInstance} (hq : s.tables.run? x.workflowInstanceUid = some q)
    (hend : q.runStatus.isTerminal = false) (h : Runs R (setup.retry x) s r s') :
    s'.tables ≠ s.tables := by
  have ht := hs.named.keyed
  have hidle : x.runStatus ≠ .running := by rcases hfailed with hf | hf <;> simp [hf]
  by_cases hleft : x.retryCount ≤ 0
  · have hwrites : Writes s.tables (Action.store (.decrementRetry x.uid)) false
        (s.tables.putStep x) := by
      have h := writes_onStep (c := .decrementRetry x.uid) (g := Store.Tables.withRetryUsed)
        hx rfl rfl
      rw [Store.Tables.withRetryUsed, if_pos hleft] at h
      exact h
    rw [ht.putStep_self (Store.Tables.mem_of_step? hx).1] at hwrites
    have hterminal : x.runStatus.isTerminal = true := by
      rcases hfailed with hf | hf <;> rw [hf] <;> rfl
    have hrest := hwrites.next h
    rw [if_neg (by simp)] at hrest
    exact changes_terminate ht hq hend hterminal hrest
  · set y : StepInstance := { x with retryCount := x.retryCount - 1 }
    have hwrites : Writes s.tables (Action.store (.decrementRetry x.uid)) true
        (s.tables.putStep y) := by
      have h := writes_onStep (c := .decrementRetry x.uid) (g := Store.Tables.withRetryUsed)
        hx rfl rfl
      rw [Store.Tables.withRetryUsed, if_neg hleft] at h
      exact h
    have hy : (s.tables.putStep y).step? y.uid = some y := ht.step?_putStep hx rfl rfl
    have hrest := (finds_readStep hy).next (hwrites.next h)
    have hs₁ : Standing setup (fun _ ↦ False) { s with tables := s.tables.putStep y } := by
      obtain ⟨ds, hst, hds⟩ := hs
      exact ⟨ds, hst.putStep (Store.Tables.mem_of_step? hx).1 ⟨rfl, rfl, rfl, rfl, rfl⟩
        (fun hG ↦ hG.elim), hds⟩
    rcases outcome_launchStep hs₁ hR hy ⟨q, hq⟩ hrest with
      ⟨-, rfl⟩ | ⟨⟨z, hz, hrunning⟩, -⟩ | ⟨p, hp, hended⟩
    · intro htables
      have hyx : x = y := Option.some.inj (hx.symm.trans (htables ▸ hy))
      have hcount : x.retryCount = x.retryCount - 1 := congrArg (·.retryCount) hyx
      omega
    · intro htables
      rw [htables] at hz
      have hzx : x = z := Option.some.inj (hx.symm.trans hz)
      exact hidle (hzx ▸ hrunning)
    · intro htables
      rw [htables] at hp
      have hpq : q = p := Option.some.inj (hq.symm.trans hp)
      rw [hpq, hended] at hend
      cases hend

/-- **Going on from a step whose follow-up is not there changes the records**, unless the follow-up
stalls. -/
theorem changes_advance (hs : Standing setup (fun _ ↦ False) s)
    (hR : ∀ f a, R (.getFunction f) a → ∀ e, a = .error e → e.kind = .notFound)
    (hx : s.tables.step? x.uid = some x) (hopen : Unfollowed s.tables x)
    (hstalls : ¬FollowUpStalls s.tables x) {q : WorkflowInstance}
    (hq : s.tables.run? x.workflowInstanceUid = some q) (hend : q.runStatus.isTerminal = false)
    (h : Runs R (setup.advance x) s r s') : s'.tables ≠ s.tables := by
  have ht := hs.named.keyed
  obtain ⟨hmem, -⟩ := Store.Tables.mem_of_step? hx
  have hleave : x.runStatus = .completed ∨ x.runStatus = .skipped →
      ∀ {o}, Finds s.tables (nextStep x) o → Runs R (goOn setup x o) s r s' := by
    intro hsucc o ho
    rw [advance_of_success hsucc] at h
    exact Finds.next (finds_attempt.2 ⟨o, ho, rfl⟩) h
  cases hopen with
  | failed hfailed =>
    rcases hfailed with hf | hf | hf | hf
    · rw [Setup.advance, hf] at h
      exact changes_retry hs hR hx (.inl hf) hq hend h
    · rw [Setup.advance, hf] at h
      exact changes_retry hs hR hx (.inr hf) hq hend h
    · rw [Setup.advance, hf] at h
      exact changes_terminate ht hq hend rfl h
    · rw [Setup.advance, hf] at h
      exact changes_terminate ht hq hend rfl h
  | unlaunched hsucc n hn hnew =>
    obtain ⟨ds, hst, hds⟩ := hs
    obtain ⟨hnm, hnw⟩ := exists_next hst hmem hn
    have hidle : n.runStatus ≠ .running := by
      rcases hnew with hself | hnew
      · rw [ht.eq_of_step hnm hmem hself]
        rcases hsucc with hs | hs <;> simp [hs]
      · simp [hnew]
    refine (changes_launchStep ⟨ds, hst, hds⟩ hR (ht.step?_iff.2 ⟨hnm, rfl⟩) hidle (hnw ▸ hq) hend
      (hleave hsucc hn)).resolve_left fun hstall ↦ ?_
    exact hstalls ⟨hsucc, n, hn, hstall.1⟩
  | ended hsucc hn =>
    have hrest := hleave hsucc hn
    rw [goOn] at hrest
    by_cases hlast : x.isLast = true
    · rw [if_pos hlast] at hrest
      exact changes_terminate ht hq hend rfl hrest
    · rw [if_neg hlast] at hrest
      exact changes_terminate ht hq hend rfl hrest
  | misconfigured hsucc e hn he =>
    have hrest := hleave hsucc hn
    rw [goOn, if_pos he] at hrest
    exact changes_terminate ht hq hend rfl hrest

/-! ## When a refused result is inert -/

theorem tables_hold {q : WorkflowInstance} (ht : s.tables.Keyed)
    (hq : s.tables.run? x.workflowInstanceUid = some q)
    (h : Runs R (Setup.hold q.uid x.uid) s r s') :
    (s'.tables = s.tables ↔ q.heldStepInstanceUid = some x.uid) ∧ s'.sent = s.sent := by
  obtain ⟨hmem, hqu⟩ := Store.Tables.mem_of_run? hq
  obtain ⟨-, -, rfl⟩ := runs_store.1 h
  have htables : (s.afterStore (.setHeldStep q.uid (some x.uid))).tables =
      s.tables.putRun { q with heldStepInstanceUid := some x.uid } := by
    show (s.tables.onRun q.uid _).2 = _
    rw [Store.Tables.onRun_of_some (hqu.symm ▸ hq)]
  refine ⟨?_, rfl⟩
  rw [htables]
  constructor
  · intro hsame
    have hheld : (s.tables.putRun { q with heldStepInstanceUid := some x.uid }).run?
        x.workflowInstanceUid = some { q with heldStepInstanceUid := some x.uid } :=
      ht.run?_putRun hq hqu
    rw [hsame, hq] at hheld
    exact congrArg (·.heldStepInstanceUid) (Option.some.inj hheld)
  · intro hheld
    rw [← hheld]
    exact ht.putRun_self hmem

/-- What handling a repeated result of a step comes to, where a function that is looked up is found
or is not known. -/
theorem inert_processRepeated (hs : Standing setup (fun _ ↦ False) s)
    (hR : ∀ f a, R (.getFunction f) a → ∀ e, a = .error e → e.kind = .notFound)
    (hx : s.tables.step? x.uid = some x) (h : Runs R (setup.processRepeated x result) s r s') :
    Inert s s' ↔ ¬∃ q, s.tables.run? x.workflowInstanceUid = some q ∧
      repeatsLast x result = true ∧ Unfollowed s.tables x ∧
      (q.runStatus = .running ∧ ¬FollowUpStalls s.tables x ∨
        q.runStatus = .paused ∧ q.heldStepInstanceUid ≠ some x.uid) := by
  have ht := hs.named.keyed
  unfold Setup.processRepeated at h
  by_cases hrepeats : repeatsLast x result = true
  swap
  · rw [if_neg hrepeats] at h
    rw [(runs_pure.1 h).2]
    exact iff_of_true (Inert.refl s) fun ⟨_, _, hyes, _⟩ ↦ hrepeats hyes
  rw [if_pos hrepeats] at h
  cases hq : s.tables.run? x.workflowInstanceUid with
  | none =>
    rw [((finds_readRun_none hq).fails h).2]
    exact iff_of_true (Inert.refl s) fun ⟨_, hsome, _⟩ ↦ nomatch hsome
  | some q =>
    have hrest := (finds_readRun hq).next h
    obtain ⟨-, hqu⟩ := Store.Tables.mem_of_run? hq
    -- The run is looked at for what should have followed only while it goes on.
    have hsimple : (∃ q', some q = some q' ∧ repeatsLast x result = true ∧
        Unfollowed s.tables x ∧ (q'.runStatus = .running ∧ ¬FollowUpStalls s.tables x ∨
          q'.runStatus = .paused ∧ q'.heldStepInstanceUid ≠ some x.uid)) ↔
        Unfollowed s.tables x ∧ (q.runStatus = .running ∧ ¬FollowUpStalls s.tables x ∨
          q.runStatus = .paused ∧ q.heldStepInstanceUid ≠ some x.uid) := by
      constructor
      · rintro ⟨q', hq', -, hboth⟩
        obtain rfl := Option.some.inj hq'
        exact hboth
      · exact fun hboth ↦ ⟨q, rfl, hrepeats, hboth⟩
    rw [hsimple]
    obtain ⟨o, ho⟩ := reads_awaitsFollowUp x s.tables
    have hclosed : o ≠ .ok true → ¬Unfollowed s.tables x := fun hne hopen ↦
      hne (ho.unique (finds_awaitsFollowUp.2 hopen))
    cases hstatus : q.runStatus with
    | running =>
      rw [hstatus] at hrest
      rcases o with e | _ | _
      · rw [(ho.fails hrest).2]
        exact iff_of_true (Inert.refl s) fun hboth ↦ hclosed (by simp) hboth.1
      · have hrest := ho.next hrest
        rw [(runs_pure.1 hrest).2]
        exact iff_of_true (Inert.refl s) fun hboth ↦ hclosed (by simp) hboth.1
      · have hopen := finds_awaitsFollowUp.1 ho
        have hrest := ho.next hrest
        rw [if_pos rfl] at hrest
        by_cases hstalls : FollowUpStalls s.tables x
        · rw [hstalls.runs_advance hrest]
          refine iff_of_true (Inert.refl s) fun ⟨_, hor⟩ ↦ ?_
          simp [hstalls] at hor
        · refine iff_of_false (fun hinert ↦ ?_) fun hno ↦ hno ⟨hopen, .inl ⟨rfl, hstalls⟩⟩
          exact changes_advance hs hR hx hopen hstalls hq (by simp [hstatus,
            RunStatus.isTerminal]) hrest hinert.1
    | paused =>
      rw [hstatus] at hrest
      rcases o with e | _ | _
      · rw [(ho.fails hrest).2]
        exact iff_of_true (Inert.refl s) fun hboth ↦ hclosed (by simp) hboth.1
      · have hrest := ho.next hrest
        rw [(runs_pure.1 hrest).2]
        exact iff_of_true (Inert.refl s) fun hboth ↦ hclosed (by simp) hboth.1
      · have hopen := finds_awaitsFollowUp.1 ho
        have hrest := ho.next hrest
        rw [if_pos rfl] at hrest
        obtain ⟨htables, hsent⟩ := tables_hold ht hq hrest
        have hinert : Inert s s' ↔ s'.tables = s.tables := by
          refine ⟨fun hi ↦ hi.1, fun hi ↦ ⟨hi, ?_⟩⟩
          rw [Scene.handOvers, hsent]
          rfl
        rw [hinert, htables]
        simp [hopen]
    | new | deployingFunctions | skipped | stopped =>
      rw [hstatus] at hrest
      rw [(runs_pure.1 hrest).2]
      exact iff_of_true (Inert.refl s) (by simp)
    | completed | completedWithErrors | failed | failedWithTerminalError | canceled | timedOut =>
      rw [hstatus] at hrest
      exact iff_of_true (inert_reportToParent hrest) (by simp)

/-- What handling a refused result comes to, where a function that is looked up is found or is not
known. -/
theorem inert_of_refused (hst : Standing setup (fun _ ↦ False) s)
    (hR : ∀ f a, R (.getFunction f) a → ∀ e, a = .error e → e.kind = .notFound)
    (hrefused : Refused s.tables result) (h : Runs R (setup.processResult result) s r s') :
    Inert s s' ↔ ¬Redriven s.tables result := by
  cases hx : s.tables.step? result.stepInstanceId with
  | none =>
    rw [((finds_readStep_none hx).fails h).2]
    refine iff_of_true (Inert.refl s) fun ⟨y, q, hsome, _⟩ ↦ ?_
    rw [hx] at hsome
    cases hsome
  | some x =>
    obtain ⟨hmem, hxu⟩ := Store.Tables.mem_of_step? hx
    have hrest := (finds_readStep hx).next h
    have hself : s.tables.step? x.uid = some x := hxu.symm ▸ hx
    rcases runs_bind.1 hrest with ⟨e, h₁, -⟩ | ⟨applied, s₁, h₁, hrest⟩
    · cases (runs_applyResult_refused hst.named.keyed hself (hrefused x hx) h₁).1
    obtain ⟨happlied, rfl⟩ := runs_applyResult_refused hst.named.keyed hself (hrefused x hx) h₁
    obtain rfl := Except.ok.inj happlied
    rw [inert_processRepeated hst hR hself hrest, not_iff_not]
    constructor
    · rintro ⟨q, hq, hrepeats, hopen, hor⟩
      exact ⟨x, q, hx, hq, hrepeats, hopen, hor⟩
    · rintro ⟨y, q, hy, hq, hrepeats, hopen, hor⟩
      obtain rfl := Option.some.inj (hx.symm.trans hy)
      exact ⟨q, hq, hrepeats, hopen, hor⟩

/-- **Exactly those refused results are not inert that make the run go on once more.** -/
theorem inert_iff_not_redriven (hs : Reachable setup noFailure s)
    (hrefused : Refused s.tables result)
    (h : Runs noFailure (setup.processResult result) s r s') :
    Inert s s' ↔ ¬Redriven s.tables result :=
  inert_of_refused (standing_of_reachable (fun _ _ _ _ hG ↦ hG.elim) hs)
    (fun _ _ ha ↦ ha) hrefused h

/-- An answer to the first attempt of the second step of the first run, with the status of a step to
which nothing has happened. -/
def newAnswer : StepResult :=
  { stepInstanceId := World.nthUid 2
    workflowInstanceId := World.nthUid 0
    runStatus := .new
    attempt := some 1 }

/-- The run of `callThenLoop` after its second step has got that answer. -/
def unlaunchedScene : Scene :=
  ((Collaborators.single deployedFunction callThenLoop).performAll queueSetup
    [.start (.ofNat 1) [] none none, .result firstAnswer, .result newAnswer] {}).get
      (by decide +kernel)

/-- What becomes of it when the answer to the first step arrives again. -/
def relaunchedScene : Except EngineError Unit × Scene :=
  ((Collaborators.single deployedFunction callThenLoop).perform
    (queueSetup.processResult firstAnswer).run unlaunchedScene).get (by decide +kernel)

theorem not_inert_relaunchedScene :
    (Reachable queueSetup noFailure unlaunchedScene ∧ Refused unlaunchedScene.tables firstAnswer ∧
      Runs noFailure (queueSetup.processResult firstAnswer) unlaunchedScene relaunchedScene.1
        relaunchedScene.2) ∧
    (Inert unlaunchedScene relaunchedScene.2 ↔ ¬Redriven unlaunchedScene.tables firstAnswer) ∧
    unlaunchedScene.handOvers.length = 2 ∧ relaunchedScene.2.handOvers.length = 3 := by
  have hreach : Reachable queueSetup noFailure unlaunchedScene :=
    (Collaborators.reachable_get _).weaken fun _ _ ↦ Collaborators.noFailure_of_single
  have hruns : Runs noFailure (queueSetup.processResult firstAnswer) unlaunchedScene
      relaunchedScene.1 relaunchedScene.2 :=
    (Collaborators.leads_get _ _).weaken fun _ _ ↦ Collaborators.noFailure_of_single
  have hrefused : Refused unlaunchedScene.tables firstAnswer := by
    intro x hx
    have hstatus : (unlaunchedScene.tables.step? firstAnswer.stepInstanceId).map (·.runStatus) =
        some .completed := by decide +kernel
    rw [hx] at hstatus
    have hcompleted : x.runStatus = .completed := Option.some.inj hstatus
    exact .inl (by rw [hcompleted]; decide)
  exact ⟨⟨hreach, hrefused, hruns⟩, inert_iff_not_redriven hreach hrefused hruns, by decide +kernel,
    by decide +kernel⟩

end Engine

end Orchestration
