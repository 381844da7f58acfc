import Orchestration.Proofs.Driving
import Orchestration.Proofs.Orderly

/-!
# Messages that are dropped

A message that can never be handled is dropped: its handling has failed, and not for the time being.
It may be no document, or be for a channel that the engine does not consume, or speak of a step or a
run that is not there. Such a message leaves no trace.

But whether a message is dropped is decided by the error that its handling ends with, and that error
may come late. A result is written onto its step before its status is looked at, so one with a
status that no step can end with is dropped and has ended the attempt (`dropped_of_unexpected`); no
other result of the attempt is accepted after it. An outcome has moved its run on before the first
step turns out not to be launchable.

What a dropped message has done is therefore said in two parts. Work is handed over last of all, and
nothing fails after it but for the time being (`Orderly`), so no work has been handed over. Whether
the records have changed is a matter of what the message says and of the records, and has an exact
answer (`trace_of_dropped`).
-/

namespace Orchestration

namespace Engine

variable {α β : Type} {R : Rule} {setup : Setup} {s s' : Scene} {m : StepResult} {x : StepInstance}
variable {r : Except EngineError Unit}

theorem runCount_lt_of_answered (hs : Sound setup (fun _ ↦ False) s)
    (hx : s.tables.step? m.stepInstanceId = some x) (hcount : x.CanCount)
    (hm : AnswersAttempt m x) (h : Runs R (setup.processResult m) s r s') {z : StepInstance}
    (hz : s'.tables.step? m.stepInstanceId = some z) : x.runCount < z.runCount := by
  have ht := hs.keyed
  obtain ⟨-, hxu⟩ := Store.Tables.mem_of_step? hx
  have hself : s.tables.step? x.uid = some x := hxu.symm ▸ hx
  rw [← hxu] at hz
  have hrest := (finds_readStep hx).next h
  rcases runs_bind.1 hrest with ⟨e, h₁, -⟩ | ⟨applied, s₁, h₁, hrest⟩
  · obtain ⟨_, he, -⟩ := runs_applyResult_accepted ht hself hm.1 hcount hm.2 h₁
    cases he
  obtain ⟨time, happlied, rfl⟩ := runs_applyResult_accepted ht hself hm.1 hcount hm.2 h₁
  obtain rfl := Except.ok.inj happlied
  set y := answeredStep x m time
  set s₁ : Scene := { s with tables := s.tables.putStep y } with hs₁
  have hy : s₁.tables.step? y.uid = some y := ht.step?_putStep hself rfl rfl
  -- Whatever leaves the records of the steps as they are now leaves the step answered.
  have hwritten : s'.tables.steps = s₁.tables.steps → x.runCount < z.runCount := by
    intro hsteps
    rw [Store.Tables.step?, hsteps] at hz
    obtain rfl : y = z := Option.some.inj (hy.symm.trans hz)
    exact Int.lt_add_one_of_le (Int.le_refl _)
  cases hq : s₁.tables.run? y.workflowInstanceUid with
  | none =>
    obtain ⟨-, rfl⟩ := (finds_readRun_none hq).fails hrest
    exact hwritten rfl
  | some q =>
    have hrest := (finds_readRun hq).next hrest
    by_cases hend : q.runStatus.isTerminal = true
    · rw [if_pos hend] at hrest
      exact hwritten (by rw [(runs_pure.1 hrest).2])
    rw [if_neg hend] at hrest
    by_cases hpaused : q.runStatus = .paused
    · rw [if_pos hpaused] at hrest
      obtain ⟨-, -, rfl⟩ := runs_store.1 hrest
      exact hwritten (Store.Tables.steps_onRun _ _)
    rw [if_neg hpaused] at hrest
    obtain ⟨log, hlog⟩ := runs_iff_logs.1 hrest
    have hsound : Sound setup (fun _ ↦ False) s₁ :=
      ⟨hs.standing.written hself hm.1 hcount hm.2 time, hs.clean.putStep _⟩
    have hleaving := leaving_of_run hsound hy hq ⟨by simpa using hend, hpaused⟩
      (fun hG ↦ hG.elim) fun hG ↦ hG.elim
    have hdeeds : Deeds setup (fun _ ↦ False) (.result m) s₁ log s' :=
      (does_advance (guiding_nobody R) (.none hsound)
        ⟨hleaving, fun _ hc ↦ absurd hc List.not_mem_nil⟩ hlog).1
    refine hdeeds.le_runCount (.inr (issued_of_step? hsound hy)) (fun z hz ↦ ?_) z hz
    obtain rfl := Option.some.inj (hy.symm.trans hz)
    exact Int.le_refl _

/-- A result has changed the records when it has been handled, and handed no work over, if it
answers the attempt of its step or makes its run go on once more, and only then. -/
theorem tables_processResult (hs : Sound setup (fun _ ↦ False) s)
    (hcount : ∀ x, s.tables.step? m.stepInstanceId = some x → x.CanCount)
    (hR : ∀ f a, R (.getFunction f) a → ∀ e, a = .error e → e.kind = .notFound)
    (h : Runs R (setup.processResult m) s r s') (hover : s'.handOvers = s.handOvers) :
    s'.tables = s.tables ↔
      ¬((∃ x, s.tables.step? m.stepInstanceId = some x ∧ AnswersAttempt m x) ∨
        Redriven s.tables m) := by
  by_cases hanswers : ∃ x, s.tables.step? m.stepInstanceId = some x ∧ AnswersAttempt m x
  · obtain ⟨x, hx, hm⟩ := hanswers
    refine iff_of_false (fun hsame ↦ ?_) fun hno ↦ hno (.inl ⟨x, hx, hm⟩)
    have hlt := runCount_lt_of_answered hs hx (hcount x hx) hm h (hsame ▸ hx)
    exact Int.lt_irrefl _ hlt
  · have hrefused : Refused s.tables m := fun x hx ↦
      refused_of_not_answersAttempt fun hm ↦ hanswers ⟨x, hx, hm⟩
    rw [or_iff_right hanswers, ← inert_of_refused hs.standing hR hrefused h]
    exact ⟨fun hsame ↦ ⟨hsame, hover⟩, fun hinert ↦ hinert.1⟩

/-- The outcome of a wait moves its run on: the run still waits, or it has begun and its first step
has yet to be launched. -/
inductive MovesRun (t : Store.Tables) (o : DeploymentOutcome) : Prop where
  | waiting (q : WorkflowInstance) (hq : t.run? o.workflowInstanceId = some q)
      (hwaits : q.runStatus = .deployingFunctions)
  | unlaunched (q : WorkflowInstance) (x : StepInstance) (hready : o.ready = true)
      (hq : t.run? o.workflowInstanceId = some q) (hrunning : q.runStatus = .running)
      (hx : Finds t (firstStep o.workflowInstanceId) (.ok x)) (hnew : x.runStatus = .new)
      (hlaunch : ¬LaunchStalls t x)

/-- A message is one that leaves a trace in the records if its handling fails. -/
inductive LeavesTrace (t : Store.Tables) : Channel → String → Prop where
  /-- A result that answers the attempt of its step. -/
  | answered {payload : String} {m : StepResult} (x : StepInstance)
      (hm : decodePayload StepResult.decode payload = .ok m)
      (hx : t.step? m.stepInstanceId = some x) (h : AnswersAttempt m x) :
      LeavesTrace t .results payload
  /-- A result that makes its run go on once more. -/
  | redriven {payload : String} {m : StepResult}
      (hm : decodePayload StepResult.decode payload = .ok m) (h : Redriven t m) :
      LeavesTrace t .results payload
  /-- An outcome that moves its run on. -/
  | outcome {payload : String} {o : DeploymentOutcome}
      (ho : decodePayload DeploymentOutcome.decode payload = .ok o) (h : MovesRun t o) :
      LeavesTrace t .deployments payload

theorem first_of_finds {t : Store.Tables} (ht : t.Keyed) {run : Uid} {y : StepInstance}
    (h : Finds t (firstStep run) (.ok y)) :
    t.step? y.uid = some y ∧ y.workflowInstanceUid = run := by
  have hrun : Runs anyAnswer (firstStep run) { tables := t } (.ok y) { tables := t } :=
    h.runs fun _ _ ↦ trivial
  obtain ⟨hmem, hw⟩ := Store.Tables.mem_chainOf.1 (runs_firstStep hrun).1
  exact ⟨ht.step?_iff.2 ⟨hmem, rfl⟩, hw⟩

theorem not_waiting_of_ready (hs : Standing setup (fun _ ↦ False) s)
    (hR : ∀ f a, R (.getFunction f) a → ∀ e, a = .error e → e.kind = .notFound)
    {o : DeploymentOutcome} (hready : o.ready = true) {q : WorkflowInstance}
    (hq : s.tables.run? o.workflowInstanceId = some q) (hwaits : q.runStatus = .deployingFunctions)
    (h : Runs R (setup.processOutcome o) s r s') :
    s'.tables.run? o.workflowInstanceId ≠ some q := by
  have ht := hs.named.keyed
  set run := o.workflowInstanceId with hrun
  set p : WorkflowInstance := { q with runStatus := .running }
  have hp : (s.tables.putRun p).run? run = some p :=
    ht.run?_putRun hq (Store.Tables.mem_of_run? hq).2
  have hans : s.tables.answer (.updateRunStatus run .running (some .deployingFunctions)) =
      (.ok true, s.tables.putRun p) := by
    show s.tables.onRun run (Store.Tables.withStatus _ _) = _
    rw [Store.Tables.onRun_of_some hq, Store.Tables.withStatus, hwaits, if_neg (by decide)]
  have hother : ∀ {p' : WorkflowInstance}, p'.runStatus ≠ q.runStatus → some p' ≠ some q :=
    fun hne hsame ↦ hne (Option.some.inj hsame ▸ rfl)
  have hleft : p.runStatus ≠ q.runStatus := by
    rw [hwaits]
    intro hsame
    cases hsame
  unfold Setup.processOutcome at h
  rw [if_pos hready, ← hrun] at h
  rcases runs_bind.1 h with ⟨e, h₁, -⟩ | ⟨moved, s₁, h₁, hrest⟩
  · cases (congrArg Prod.fst hans).symm.trans (runs_writeRunStatus h₁).2.symm
  obtain ⟨hs₁, hmoved⟩ := runs_writeRunStatus h₁
  obtain rfl : moved = true := Except.ok.inj (hmoved.trans (congrArg Prod.fst hans))
  have htables : s₁.tables = s.tables.putRun p := by rw [hs₁, Scene.afterStore, hans]
  have hstanding : Standing setup (fun _ ↦ False) s₁ := keeps_beginning hs h₁
  rw [← htables] at hp
  obtain ⟨found, hfound⟩ := reads_firstStep run s₁.tables
  cases found with
  | error e =>
    rw [(hfound.fails hrest).2, hp]
    exact hother hleft
  | ok first =>
    have hlaunch : Runs R (setup.launchStep first) s₁ r s' := hfound.next hrest
    obtain ⟨hx, hw⟩ := first_of_finds hstanding.named.keyed hfound
    rcases outcome_launchStep hstanding hR hx ⟨p, hw.symm ▸ hp⟩ hlaunch with
      ⟨-, rfl⟩ | ⟨-, hsame⟩ | ⟨p', hp', hended⟩
    · rw [hp]
      exact hother hleft
    · rw [hw] at hsame
      rw [hsame, hp]
      exact hother hleft
    · rw [hw] at hp'
      rw [hp']
      refine hother fun hstatus ↦ ?_
      rw [hstatus, hwaits] at hended
      cases hended

theorem tables_processOutcome_of_not_waiting (hs : Standing setup (fun _ ↦ False) s)
    (hR : ∀ f a, R (.getFunction f) a → ∀ e, a = .error e → e.kind = .notFound)
    {o : DeploymentOutcome} {q : WorkflowInstance}
    (hq : s.tables.run? o.workflowInstanceId = some q) (hwaits : q.runStatus ≠ .deployingFunctions)
    {e : EngineError} (h : Runs R (setup.processOutcome o) s (.error e) s') :
    s'.tables = s.tables ↔ ¬MovesRun s.tables o := by
  have ht := hs.named.keyed
  have hnotwaiting : ∀ q', s.tables.run? o.workflowInstanceId = some q' →
      q'.runStatus ≠ .deployingFunctions := by
    intro q' hq' hw
    obtain rfl := Option.some.inj (hq.symm.trans hq')
    exact hwaits hw
  unfold Setup.processOutcome at h
  by_cases hready : o.ready = true
  swap
  · rw [if_neg hready] at h
    have hrest := (finds_readRun hq).next h
    rw [if_neg hwaits] at hrest
    cases (runs_pure.1 hrest).1
  rw [if_pos hready] at h
  have hans : s.tables.answer (.updateRunStatus o.workflowInstanceId .running
      (some .deployingFunctions)) = (.ok false, s.tables) := by
    show s.tables.onRun o.workflowInstanceId (Store.Tables.withStatus _ _) = _
    have hno : Store.Tables.withStatus .running (some .deployingFunctions) q = (false, q) :=
      if_pos (by simp [Ne.symm hwaits])
    rw [Store.Tables.onRun_of_some hq, hno, ht.putRun_self (Store.Tables.mem_of_run? hq).1]
  have hrest := (writes_writeRunStatus hans).next h
  obtain ⟨found, hfound⟩ := reads_firstStep o.workflowInstanceId s.tables
  cases found with
  | error e' =>
    rw [(hfound.fails hrest).2]
    refine iff_of_true rfl ?_
    rintro (⟨q', hq', hw⟩ | ⟨_, x, -, -, -, hx, -⟩)
    · exact hnotwaiting q' hq' hw
    · cases hfound.unique hx
  | ok x =>
    have hrest := (finds_readRun hq).next (hfound.next hrest)
    obtain ⟨hx, hw⟩ := first_of_finds ht hfound
    by_cases hbegun : q.runStatus = .running ∧ x.runStatus = .new
    swap
    · rw [if_neg hbegun] at hrest
      cases (runs_pure.1 hrest).1
    rw [if_pos hbegun] at hrest
    have hmoves : MovesRun s.tables o ↔ ¬LaunchStalls s.tables x := by
      refine ⟨?_, .unlaunched q x hready hq hbegun.1 hfound hbegun.2⟩
      rintro (⟨q', hq', hw'⟩ | ⟨_, y, -, -, -, hy, -, hlaunch⟩)
      · exact absurd hw' (hnotwaiting q' hq')
      · rwa [Except.ok.inj (hfound.unique hy)]
    rw [hmoves, not_not]
    rcases changes_launchStep hs hR hx (by rw [hbegun.2]; decide) (hw.symm ▸ hq)
      (by rw [hbegun.1]; rfl) hrest with ⟨hstalls, rfl⟩ | hchanged
    · exact iff_of_true rfl hstalls
    · refine iff_of_false hchanged fun hstalls ↦ hchanged ?_
      rw [hstalls.runs_launch hrest]

theorem tables_processOutcome (hs : Standing setup (fun _ ↦ False) s)
    (hR : ∀ f a, R (.getFunction f) a → ∀ e, a = .error e → e.kind = .notFound)
    {o : DeploymentOutcome} {e : EngineError}
    (h : Runs R (setup.processOutcome o) s (.error e) s') :
    s'.tables = s.tables ↔ ¬MovesRun s.tables o := by
  cases hq : s.tables.run? o.workflowInstanceId with
  | none =>
    have hno : ¬MovesRun s.tables o := by
      rintro (⟨q, hq', -⟩ | ⟨q, _, -, hq', -⟩)
      · cases hq.symm.trans hq'
      · cases hq.symm.trans hq'
    refine iff_of_true ?_ hno
    unfold Setup.processOutcome at h
    by_cases hready : o.ready = true
    · rw [if_pos hready] at h
      have hans : s.tables.answer (.updateRunStatus o.workflowInstanceId .running
          (some .deployingFunctions)) = (.error (.runNotFound o.workflowInstanceId), s.tables) :=
        Store.Tables.onRun_of_none hq _
      rcases runs_bind.1 h with ⟨e', h₁, -⟩ | ⟨moved, s₁, h₁, -⟩
      · rw [(runs_writeRunStatus h₁).1, Scene.afterStore, hans]
      · cases (runs_writeRunStatus h₁).2.trans (congrArg Prod.fst hans)
    · rw [if_neg hready] at h
      rw [((finds_readRun_none hq).fails h).2]
  | some q =>
    by_cases hwaits : q.runStatus = .deployingFunctions
    swap
    · exact tables_processOutcome_of_not_waiting hs hR hq hwaits h
    refine iff_of_false ?_ fun hno ↦ hno (.waiting q hq hwaits)
    by_cases hready : o.ready = true
    · intro hsame
      exact not_waiting_of_ready hs hR hready hq hwaits h (hsame ▸ hq)
    · unfold Setup.processOutcome at h
      rw [if_neg hready] at h
      have hrest := (finds_readRun hq).next h
      rw [if_pos hwaits] at hrest
      exact changes_terminate hs.named.keyed hq (by rw [hwaits]; rfl) rfl hrest

theorem leavesTrace_results {t : Store.Tables} {payload : String} :
    LeavesTrace t .results payload ↔ ∃ m, decodePayload StepResult.decode payload = .ok m ∧
      ((∃ x, t.step? m.stepInstanceId = some x ∧ AnswersAttempt m x) ∨ Redriven t m) := by
  constructor
  · intro h
    cases h with
    | answered x hm hx hanswers => exact ⟨_, hm, .inl ⟨x, hx, hanswers⟩⟩
    | redriven hm hredriven => exact ⟨_, hm, .inr hredriven⟩
  · rintro ⟨m, hm, ⟨x, hx, hanswers⟩ | hredriven⟩
    · exact .answered x hm hx hanswers
    · exact .redriven hm hredriven

theorem leavesTrace_deployments {t : Store.Tables} {payload : String} :
    LeavesTrace t .deployments payload ↔
      ∃ o, decodePayload DeploymentOutcome.decode payload = .ok o ∧ MovesRun t o := by
  constructor
  · intro h
    cases h with
    | outcome ho hmoves => exact ⟨_, ho, hmoves⟩
  · rintro ⟨o, ho, hmoves⟩
    exact .outcome ho hmoves

theorem runs_decoded {o : Except EngineError α} {f : α → Action β} {r : Except EngineError β}
    (h : Runs R (Action.ofExcept o >>= f) s r s') :
    (s' = s ∧ ∀ x, o ≠ .ok x) ∨ ∃ x, o = .ok x ∧ Runs R (f x) s r s' := by
  cases o with
  | error e => exact .inl ⟨(runs_throw.1 h).2, nofun⟩
  | ok x => exact .inr ⟨x, rfl, h⟩

/-- **Of a message that is dropped no work has been handed over.** Its trace may be in the records:
there is one if the message was a result that answers the attempt of its step or makes its run go on
once more, or an outcome that moves its run on, and only then. A result that answers an attempt has
used it up, so no other result of that attempt is accepted any more. -/
theorem trace_of_dropped (h : Reachable setup anyAnswer s) {channel : Channel} {payload : String}
    (hrun : Leads honest (setup.handle channel payload) s .reject s') :
    s'.handOvers = s.handOvers ∧
    (s'.tables = s.tables ↔ ¬LeavesTrace s.tables channel payload) ∧
    ∀ m x, channel = .results → decodePayload StepResult.decode payload = .ok m →
      s.tables.step? m.stepInstanceId = some x → AnswersAttempt m x →
      ∀ m', m'.stepInstanceId = m.stepInstanceId → m'.attempt = some (attemptOf x) →
        Refused s'.tables m' := by
  have hs := sound_of_reachable (guiding_nobody _) h
  -- What is dropped has failed, and not for the time being.
  obtain ⟨r, s₁, hconsume, hr, rfl⟩ := leads_bind.1 hrun
  obtain ⟨e, rfl, hlasting⟩ : ∃ e, r = .error e ∧ e.kind.isTransient = false := by
    cases r with
    | ok _ => cases hr
    | error e =>
      refine ⟨e, rfl, ?_⟩
      cases hkind : e.kind.isTransient with
      | false => rfl
      | true => simp [dispositionOf, hkind] at hr
  rcases orderly_consume channel payload s hconsume with ⟨e', he, hkind⟩ | ⟨hfinds, hover⟩
  · rw [← Except.error.inj he, hlasting] at hkind
    cases hkind
  have hover := hover ⟨e, rfl⟩
  refine ⟨hover, ?_⟩
  cases channel with
  | work | notifications =>
    obtain ⟨-, rfl⟩ := runs_throw.1 hfinds
    exact ⟨iff_of_true rfl fun htrace ↦ (nomatch htrace), fun _ _ hc ↦ nomatch hc⟩
  | results =>
    rw [leavesTrace_results]
    rcases runs_decoded hfinds with ⟨rfl, hno⟩ | ⟨m, hm, hresult⟩
    · exact ⟨iff_of_true rfl fun ⟨m, hm, _⟩ ↦ hno m hm, fun m _ _ hm ↦ absurd hm (hno m)⟩
    have hcount : ∀ x, s.tables.step? m.stepInstanceId = some x → x.CanCount :=
      h.canCount
    constructor
    · rw [tables_processResult hs hcount (fun _ _ ha ↦ ha) hresult hover, not_iff_not]
      refine ⟨fun htrace ↦ ⟨m, hm, htrace⟩, ?_⟩
      rintro ⟨m', hm', htrace⟩
      obtain rfl := Except.ok.inj (hm.symm.trans hm')
      exact htrace
    · rintro m' x - hm' hx hanswers m₂ hstep hattempt z hz
      obtain rfl := Except.ok.inj (hm.symm.trans hm')
      have hlt := runCount_lt_of_answered hs hx (hcount x hx) hanswers hresult (hstep ▸ hz)
      refine .inr ⟨_, hattempt, ?_⟩
      unfold attemptOf
      omega
  | deployments =>
    rw [leavesTrace_deployments]
    refine ⟨?_, fun _ _ hc ↦ nomatch hc⟩
    rcases runs_decoded hfinds with ⟨rfl, hno⟩ | ⟨o, ho, houtcome⟩
    · exact iff_of_true rfl fun ⟨o, ho, _⟩ ↦ hno o ho
    rw [tables_processOutcome hs.standing (fun _ _ ha ↦ ha) houtcome, not_iff_not]
    refine ⟨fun hmoves ↦ ⟨o, ho, hmoves⟩, ?_⟩
    rintro ⟨o', ho', hmoves⟩
    obtain rfl := Except.ok.inj (ho.symm.trans ho')
    exact hmoves

/-- A result that answers an attempt with a status that no step can end with is dropped, and has
ended the attempt all the same. -/
theorem dropped_of_unexpected (h : Reachable setup anyAnswer s) {payload : String}
    (hm : decodePayload StepResult.decode payload = .ok m)
    (hx : s.tables.step? m.stepInstanceId = some x) (hanswers : AnswersAttempt m x)
    {q : WorkflowInstance} (hq : s.tables.run? x.workflowInstanceUid = some q) (hgoes : GoesOn q)
    (hstatus : m.runStatus ∉ [.completed, .skipped, .failed, .timedOut, .canceled,
      .failedWithTerminalError]) {d : Disposition}
        (hrun : Leads R (setup.handle .results payload) s d s') :
    d = .reject ∧
      ∃ time, s' = { s with tables := s.tables.putStep (answeredStep x m time) } := by
  have ht := (sound_of_reachable (guiding_nobody _) h).keyed
  have hcount := h.canCount x hx
  have hself : s.tables.step? x.uid = some x := (Store.Tables.mem_of_step? hx).2.symm ▸ hx
  obtain ⟨r, s₁, hconsume, rfl, rfl⟩ := leads_bind.1 hrun
  rcases runs_decoded hconsume with ⟨-, hno⟩ | ⟨m', hm', hresult⟩
  · exact absurd hm (hno m)
  obtain rfl := Except.ok.inj (hm'.symm.trans hm)
  have hrest := (finds_readStep hx).next hresult
  rcases runs_bind.1 hrest with ⟨e, h₁, -⟩ | ⟨applied, s₂, h₁, hrest⟩
  · obtain ⟨_, he, -⟩ := runs_applyResult_accepted ht hself hanswers.1 hcount hanswers.2 h₁
    cases he
  obtain ⟨time, happlied, rfl⟩ :=
    runs_applyResult_accepted ht hself hanswers.1 hcount hanswers.2 h₁
  obtain rfl := Except.ok.inj happlied
  have hread : Finds (s.tables.putStep (answeredStep x m' time)) (readRun x.workflowInstanceUid)
      (.ok q) := finds_readRun hq
  have hrest := Finds.next (s := { s with tables := s.tables.putStep (answeredStep x m' time) })
    hread hrest
  rw [hgoes.1, if_neg (by decide), if_neg hgoes.2] at hrest
  -- The status is looked at only now, when the result has been written.
  have hadvance : setup.advance (answeredStep x m' time) =
      throw (.unexpectedStatus x.name m'.runStatus) := by
    have hsame : (answeredStep x m' time).runStatus = m'.runStatus := rfl
    unfold Setup.advance
    rw [hsame]
    cases hs : m'.runStatus with
    | new | deployingFunctions | running | paused | completedWithErrors | stopped => rfl
    | completed | skipped | failed | timedOut | canceled | failedWithTerminalError =>
      simp [hs] at hstatus
  rw [hadvance] at hrest
  obtain ⟨rfl, rfl⟩ := runs_throw.1 hrest
  exact ⟨rfl, time, rfl⟩

-- A statement about a document that can be unfolded is elaborated by decoding the document.
/-- A message that answers the first step of the first run with the status of a run that is paused.
The members of the answer stand in their order, without their names. -/
@[irreducible]
def pausedPayload : String :=
  "[\"f0000000-0000-4000-8000-000000000001\", \"f0000000-0000-4000-8000-000000000000\", \"PAUSED\"]"

/-- The first step is under way, and is answered so. -/
def droppedHandling : Disposition × Scene :=
  (willing.perform (queueSetup.handle .results pausedPayload) underwayScene).get (by decide +kernel)

/-- The run goes on, and its first step is neither in an attempt nor over. -/
theorem trace_of_droppedHandling :
    (Reachable queueSetup anyAnswer underwayScene ∧
      Leads honest (queueSetup.handle .results pausedPayload) underwayScene .reject
        droppedHandling.2) ∧
    (droppedHandling.2.tables.run? (World.nthUid 0)).map (·.runStatus) = some .running ∧
    (droppedHandling.2.tables.step? (World.nthUid 1)).map (fun x ↦ (x.runStatus, x.runCount)) =
      some (.paused, 1) ∧
    droppedHandling.2.handOvers = underwayScene.handOvers ∧
    (droppedHandling.2.tables = underwayScene.tables ↔
      ¬LeavesTrace underwayScene.tables .results pausedPayload) ∧
    ∀ m x, Channel.results = .results → decodePayload StepResult.decode pausedPayload = .ok m →
      underwayScene.tables.step? m.stepInstanceId = some x → AnswersAttempt m x →
      ∀ m', m'.stepInstanceId = m.stepInstanceId → m'.attempt = some (attemptOf x) →
        Refused droppedHandling.2.tables m' := by
  have hreach : Reachable queueSetup anyAnswer underwayScene :=
    (Collaborators.reachable_get _).weaken fun _ _ _ ↦ trivial
  obtain ⟨hdropped, hrun, hstep⟩ : droppedHandling.1 = .reject ∧
      (droppedHandling.2.tables.run? (World.nthUid 0)).map (·.runStatus) = some .running ∧
      (droppedHandling.2.tables.step? (World.nthUid 1)).map (fun x ↦ (x.runStatus, x.runCount)) =
        some (.paused, 1) := by
    decide +kernel
  have hleads : Leads honest (queueSetup.handle .results pausedPayload) underwayScene
      droppedHandling.1 droppedHandling.2 :=
    (willing.leads_get _).weaken fun _ _ hanswer ↦
      honest_of_noFailure (Collaborators.noFailure_of_single hanswer)
  rw [hdropped] at hleads
  exact ⟨⟨hreach, hleads⟩, hrun, hstep, trace_of_dropped hreach hleads⟩

end Engine

end Orchestration
