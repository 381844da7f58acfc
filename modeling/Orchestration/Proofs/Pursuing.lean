import Orchestration.Proofs.Errands

/-!
# Every handling goes through its stages

On firm ground the handling of a result makes no call but those that are allowed at the stages that
it goes through, whatever it is answered and whoever else is at work (`takes_processResult`). It
never ends successfully where a repetition has been granted and the step is still to be launched.

An action takes the stages in this sense if its tree does (`Errand.Takes`). What the action ends at
is told apart by its outcome: `E` says at which stages it may fail, and `P` at which stages it may
succeed, and with what. Most of what is done on the way is idle: it leaves the stage as it is.
-/

namespace Orchestration

namespace Engine

namespace Errand

variable {α β : Type} {e : Errand} {setup : Setup} {startChild : StartChild}
variable {st : Stage} {x : StepInstance} {run : Uid}

/-! ## Programs that take the stages -/

/-- A program makes only calls that are allowed at the stages which it goes through on firm ground,
and comes to an end of a kind. -/
def Pursues (e : Errand) (Q : Stage → α → Prop) : Stage → Rest α → Prop
  | st, .done a => Q st a
  | st, .call c next => e.allows st c ∧ ∀ s answer, e.Ground s → s.Admits c answer →
      Pursues e Q (e.after st c answer) (next answer)

theorem Pursues.bind {Q : Stage → α → Prop} {Q' : Stage → β → Prop} {p : Rest α} {k : α → Rest β}
    (hp : e.Pursues Q st p) (hk : ∀ st a, Q st a → e.Pursues Q' st (k a)) :
    e.Pursues Q' st (p >>= k) := by
  induction p generalizing st with
  | done a => exact hk st a hp
  | call c next ih => exact ⟨hp.1, fun s answer hs hadm ↦ ih answer (hp.2 s answer hs hadm)⟩

theorem Pursues.mono {Q Q' : Stage → α → Prop} {p : Rest α} (hp : e.Pursues Q st p)
    (hQ : ∀ st a, Q st a → Q' st a) : e.Pursues Q' st p := by
  induction p generalizing st with
  | done a => exact hQ st a hp
  | call c next ih => exact ⟨hp.1, fun s answer hs hadm ↦ ih answer (hp.2 s answer hs hadm)⟩

/-- Where an action ends, by its outcome. -/
def Ends (E : Stage → Prop) (P : Stage → α → Prop) (st : Stage) : Except EngineError α → Prop
  | .error _ => E st
  | .ok x => P st x

/-- An action takes the stages, and ends where it may fail or succeed. -/
def Takes (e : Errand) (E : Stage → Prop) (P : Stage → α → Prop) (st : Stage)
    (a : Action α) : Prop :=
  e.Pursues (Ends E P) st a.run

/-- A call may be made at a stage, and leaves it as it is. -/
def Idle (e : Errand) (st : Stage) (c : Call) : Prop :=
  e.allows st c ∧ ∀ answer, e.after st c answer = st

namespace Takes

variable {E E' : Stage → Prop} {P : Stage → α → Prop} {P' : Stage → β → Prop} {a : Action α}
variable {f : α → Action β}

theorem mono {P' : Stage → α → Prop} (ha : e.Takes E P st a) (hE : ∀ st, E st → E' st)
    (hP : ∀ st x, P st x → P' st x) : e.Takes E' P' st a := by
  refine Pursues.mono ha ?_
  rintro st (e | x) h
  · exact hE st h
  · exact hP st x h

theorem bind (ha : e.Takes E P st a) (hE : ∀ st, E st → E' st)
    (hf : ∀ st x, P st x → e.Takes E' P' st (f x)) : e.Takes E' P' st (a >>= f) := by
  refine Pursues.bind (k := ExceptT.bindCont f) ha ?_
  rintro st (e | x) h
  · exact hE st h
  · exact hf st x h

theorem attempt (ha : e.Takes E P st a) :
    e.Takes (fun _ ↦ False) (fun st o ↦ Ends E P st o) st (Action.attempt a) :=
  Pursues.bind ha fun _ _ h ↦ h

theorem pure {x : α} (h : P st x) : e.Takes E P st (Pure.pure x) := h

theorem throw {err : EngineError} (h : E st) : e.Takes E P st (throw err : Action α) := h

theorem ite {p : Prop} [Decidable p] {b : Action α} (ha : p → e.Takes E P st a)
    (hb : ¬p → e.Takes E P st b) : e.Takes E P st (if p then a else b) := by
  split
  · next h => exact ha h
  · next h => exact hb h

/-- An action that makes only idle calls ends where it has begun. -/
theorem idle (ha : Asks (e.Idle st) a) : e.Takes (· = st) (fun st' _ ↦ st' = st) st a := by
  have hprogram : ∀ {p : Rest (Except EngineError α)}, Asked (e.Idle st) p →
      e.Pursues (Ends (· = st) fun st' _ ↦ st' = st) st p := by
    intro p hp
    induction p with
    | done o =>
      cases o with
      | error => exact rfl
      | ok => exact rfl
    | call c next ih =>
      refine ⟨hp.1.1, fun s answer _ _ ↦ ?_⟩
      rw [hp.1.2 answer]
      exact ih answer (hp.2 answer)
  exact hprogram ha

theorem after_idle (ha : Asks (e.Idle st) a) (hE : E st) (hf : ∀ x, e.Takes E P' st (f x)) :
    e.Takes E P' st (a >>= f) := by
  refine (idle ha).bind (fun _ h ↦ h ▸ hE) ?_
  rintro _ x rfl
  exact hf x

theorem store {c : Store.Call} {f : c.Value → Action β} (hc : e.allows st (.store c))
    (herr : ∀ s err, e.Ground s → (s.tables.answer c).1 = .error err →
      E (e.after st (.store c) (.error err)))
    (hok : ∀ s v, e.Ground s → (s.tables.answer c).1 = .ok v →
      e.Takes E P' (e.after st (.store c) (.ok v)) (f v)) :
    e.Takes E P' st (Action.store c >>= f) := by
  refine ⟨hc, fun s answer hs hadm ↦ ?_⟩
  rcases answer with err | v
  · exact herr s err hs hadm.symm
  · exact hok s v hs hadm.symm

end Takes

variable {E : Stage → Prop} {P : Stage → α → Prop}

/-! ## Idle calls -/

theorem idle_of_isHarmless (hst : ¬st.Seeks) {c : Call} (hc : c.isHarmless) : e.Idle st c := by
  have hne := Stage.ne_unread_of_not_seeks hst
  have hidle : ∀ {c : Call}, e.permits st c → (∀ answer, e.after st c answer = st) → e.Idle st c :=
    fun hc h ↦ ⟨allows_of_ne hne hc, h⟩
  cases c with
  | store c =>
    cases c with
    | getStep =>
      refine hidle (fun hs ↦ absurd hs hst) ?_
      rintro (err | _ | x)
      · rfl
      · rfl
      · exact Stage.find_of_not_seeks hst
    | getRun | listSteps | findStep | listTopLevelRuns | setRunStartTime | setRunEndTime
    | recordRunError | setRunOutput => exact hidle trivial fun _ ↦ rfl
    | _ => exact hc.elim
  | publish channel =>
    cases channel with
    | work => exact absurd rfl hc
    | _ => exact hidle nofun fun _ ↦ rfl
  | now | spawn => exact hidle trivial fun _ ↦ rfl
  | getFunction | deployFunction | getWorkflow | getStepList | post | newUid => exact hc.elim

theorem spares_of_isHarmless {c : Call} (hc : c.isHarmless) : e.Spares c := by
  cases c with
  | store c =>
    cases c with
    | getRun | getStep | listSteps | findStep | listTopLevelRuns | setRunStartTime | setRunEndTime
    | recordRunError | setRunOutput => trivial
    | _ => exact hc.elim
  | _ => trivial

theorem idle_of_harmless (hst : ¬st.Seeks) {a : Action α} (ha : Harmless a) : Asks (e.Idle st) a :=
  ha.mono fun _ ↦ idle_of_isHarmless hst

theorem idle_of_catalog (hst : ¬st.Seeks) {c : Call}
    (hc : c matches .getFunction _ | .deployFunction _ | .getWorkflow _ | .getStepList _) :
    e.Idle st c := by
  have hne := Stage.ne_unread_of_not_seeks hst
  cases c with
  | getFunction | deployFunction | getWorkflow | getStepList =>
    exact ⟨allows_of_ne hne trivial, fun _ ↦ rfl⟩
  | _ => cases hc

theorem takes_readRun {f : WorkflowInstance → Action β} {P : Stage → β → Prop} (hst : ¬st.Seeks)
    (hf : ∀ q : WorkflowInstance, q.runStatus = .running ∨ q.runStatus.isTerminal = true →
      e.Takes E P st (f q)) : e.Takes E P st (readRun e.run >>= f) := by
  have hcall : e.Idle st (.store (.getRun e.run)) := idle_of_isHarmless hst trivial
  rw [readRun, bind_assoc]
  refine .store hcall.1 (fun s err _ h ↦ nomatch h) fun s v hs hv ↦ ?_
  rw [hcall.2]
  obtain ⟨q, hq, hstatus⟩ := hs.run
  obtain rfl : v = some q := (Except.ok.inj hv).symm.trans hq
  exact hf q hstatus

theorem takes_readStep {v : Uid} {f : StepInstance → Action β} {P : Stage → β → Prop}
    (hv : v ∈ e.own) (hcall : e.allows st (.store (.getStep v)))
    (hf : ∀ x, x.uid = v → e.Fits x → e.Takes E P (st.find x) (f x)) :
    e.Takes E P st (readStep v >>= f) := by
  rw [readStep, bind_assoc]
  refine .store hcall (fun s err _ h ↦ nomatch h) fun s o hs ho ↦ ?_
  obtain ⟨x, hx⟩ := hs.there v hv
  obtain rfl : o = some x := (Except.ok.inj ho).symm.trans hx
  obtain ⟨hmem, hxv⟩ := Store.Tables.mem_of_step? hx
  exact hf x hxv (hs.steps x hmem)

/-! ## How actions end -/

/-- An action that is carried out when a step has been launched changes nothing about that. -/
abbrev Stays (e : Errand) (st : Stage) (a : Action α) : Prop :=
  e.Takes Stage.Launched (fun st' _ ↦ st'.Launched) st a

/-- An action launches a step. If it fails, it may have failed before. -/
abbrev Tries (e : Errand) (st : Stage) (a : Action α) : Prop :=
  e.Takes (fun st' ↦ st' = st ∨ st'.Launched) (fun st' _ ↦ st'.Launched) st a

/-- Nothing is successful where a repetition has been granted and nothing has been launched. -/
abbrev Settled : Stage → Except EngineError α → Prop := Ends (fun _ ↦ True) fun st _ ↦ st ≠ .granted

/-- An action takes the stages, and leaves no repetition that it is granted unused if it is
successful. -/
abbrev Settles (e : Errand) (st : Stage) (a : Action α) : Prop :=
  e.Takes (fun _ ↦ True) (fun st' _ ↦ st' ≠ .granted) st a

theorem stays_of_idle {a : Action α} (hst : st.Launched) (ha : Asks (e.Idle st) a) : e.Stays st a :=
  (Takes.idle ha).mono (fun _ h ↦ h ▸ hst) fun _ _ h ↦ h ▸ hst

theorem stays_of_harmless {a : Action α} (hst : st.Launched) (ha : Harmless a) : e.Stays st a :=
  stays_of_idle hst (idle_of_harmless (hst.ready (m := e.result)).not_seeks ha)

/-! ## Handing work over -/

theorem takes_handOver (setup : Setup) {v : Uid} (x : StepInstance) (input : Json.Object)
    (f : FunctionInfo) : e.Stays (.launched v false) (setup.handOver x input f) := by
  unfold Setup.handOver
  split
  · -- The work is put into the queue.
    refine ⟨allows_of_ne nofun fun _ ↦ ⟨v, rfl⟩, fun s answer _ _ ↦ ?_⟩
    cases answer with
    | error => trivial
    | ok => trivial
  · -- The function is called at its address, if it has one.
    unfold Setup.push
    split
    · trivial
    · refine ⟨allows_of_ne nofun ⟨v, rfl⟩, fun s answer _ _ ↦ ?_⟩
      cases answer with
      | error => trivial
      | ok response => exact Takes.ite (fun _ ↦ trivial) fun _ ↦ trivial

theorem takes_send (setup : Setup) {v : Uid} (x : StepInstance) (input : Json.Object)
    (f : FunctionInfo) : e.Stays (.launched v false) (setup.send x input f) := by
  refine (takes_handOver setup x input f).attempt.bind (fun _ h ↦ h.elim) fun st o ho ↦ ?_
  cases o with
  | ok => exact .pure ho
  | error => exact stays_of_harmless ho (harmless_publishResult _)

/-! ## Launching -/

/-- A step may be launched: it is one of the run and follows there, or it is one of a run that a
step of the run has started. -/
structure Launches (e : Errand) (st : Stage) (x : StepInstance) : Prop where
  own : x.uid ∈ e.own → st.MayLaunch e.result x.uid
  select : x.uid ∈ e.own → (∃ text cases, x.shape = .switch text cases) →
    st.MaySelect e.result x.uid
  other : x.uid ∉ e.own → ∃ v, st = .launched v false

theorem Launches.not_seeks (h : e.Launches st x) : ¬st.Seeks := by
  by_cases hx : x.uid ∈ e.own
  · exact (h.own hx).ready.not_seeks
  · obtain ⟨v, rfl⟩ := h.other hx
    exact id

theorem takes_launchAttempt (h : e.Launches st x) (input : Json.Object) :
    e.Takes (fun st' ↦ st' = st ∨ st'.Launched) (fun st' _ ↦ ∃ v, st' = .launched v false) st
      (launchAttempt x input) := by
  have hst := h.not_seeks
  have hallow : ∀ time, e.allows st (.store (.launchStep x.uid input time)) := fun _ ↦
    allows_of_ne (Stage.ne_unread_of_not_seeks hst) h.own
  have hlaunched : ∀ time answer,
      ∃ v, e.after st (.store (.launchStep x.uid input time)) answer = .launched v false := by
    intro time answer
    show ∃ v, (if x.uid ∈ e.own then _ else _ : Stage) = _
    split
    · exact ⟨_, rfl⟩
    · next hx => exact h.other hx
  refine .after_idle ⟨idle_of_isHarmless hst trivial, fun _ ↦ trivial⟩ (.inl rfl) fun time ↦ ?_
  refine .store (hallow time) (fun s err _ _ ↦ ?_) fun s _ _ _ ↦ ?_
  · obtain ⟨v, hv⟩ := hlaunched time (.error err)
    exact .inr (hv ▸ trivial)
  obtain ⟨v, hv⟩ := hlaunched time (.ok ())
  rw [hv]
  have hseeks : ¬(Stage.launched v false).Seeks := id
  refine (Takes.idle (idle_of_harmless hseeks (.bind (harmless_announce _) fun _ ↦
    harmless_readStep _))).mono (fun _ h ↦ .inr (h ▸ trivial)) fun _ _ h ↦ ⟨v, h⟩

theorem takes_dispatchFunction (setup : Setup) (h : e.Launches st x)
    (input : Json.Object) (f : Uid) : e.Tries st (setup.dispatchFunction x input f) := by
  refine .after_idle ⟨idle_of_catalog h.not_seeks rfl, fun _ ↦ trivial⟩ (.inl rfl) fun info ↦ ?_
  refine (takes_launchAttempt h input).bind (fun _ h ↦ h) ?_
  rintro _ running ⟨v, rfl⟩
  exact (takes_send setup running input info).mono (fun _ h ↦ .inr h) fun _ _ h ↦ h

/-- Whoever starts sub-workflows for a step that has been launched does no more than hand work
over. -/
def StartsApart (e : Errand) (startChild : StartChild) : Prop :=
  ∀ workflow input parent parentStep v,
    e.Stays (.launched v false) (startChild workflow input parent parentStep)

theorem takes_startSubWorkflow (hc : e.StartsApart startChild) (h : e.Launches st x)
    (input : Json.Object) (workflow : Uid) :
    e.Tries st (Setup.startSubWorkflow startChild x input workflow) := by
  refine (takes_launchAttempt h input).bind (fun _ h ↦ h) ?_
  rintro _ running ⟨v, rfl⟩
  exact (hc _ _ _ _ v).mono (fun _ h ↦ .inr h) fun _ _ h ↦ h

theorem takes_tryLaunch (setup : Setup) (hc : e.StartsApart startChild) (h : e.Launches st x) :
    e.Tries st (setup.tryLaunch startChild x) := by
  have hst := h.not_seeks
  refine .after_idle (idle_of_harmless hst (harmless_normalize _ _ _)) (.inl rfl) fun input ↦ ?_
  cases hshape : x.shape with
  | simple f => exact takes_dispatchFunction setup h input f
  | doWhile f text => exact takes_dispatchFunction setup h input f
  | subWorkflow w => exact takes_startSubWorkflow hc h input w
  | switch text cases =>
    have hselect : ∀ name, e.Idle st (.store (.setSelectedCase x.uid name)) := fun _ ↦
      ⟨allows_of_ne (Stage.ne_unread_of_not_seeks hst) fun hx ↦ h.select hx ⟨text, cases, hshape⟩,
        fun _ ↦ rfl⟩
    refine .after_idle (idle_of_harmless hst (harmless_evaluateSwitch _ _)) (.inl rfl) fun value ↦
      .after_idle (.ofExcept _) (.inl rfl) fun chosen ↦
        .after_idle (.store (hselect _)) (.inl rfl) fun _ ↦ ?_
    split
    · exact takes_dispatchFunction setup h input _
    · exact takes_startSubWorkflow hc h input _

/-! ## Ending runs -/

theorem idle_terminate (setup : Setup) (hst : ¬st.Seeks) (hrun : run ≠ e.run) (status : RunStatus)
    (failure : Option Failure) (output : Option Json.Object) :
    Asks (e.Idle st) (setup.terminate run status failure output) := by
  have hstatus : e.Idle st (.store (.updateRunStatus run status none)) :=
    ⟨allows_of_ne (Stage.ne_unread_of_not_seeks hst) fun hv ↦ absurd hv hrun, fun _ ↦ if_neg hrun⟩
  rw [terminate_eq]
  exact .bind (.bind (.store hstatus) fun _ ↦
    .ite (.bind (idle_of_harmless hst (harmless_announce _)) fun _ ↦ .pure _) (.pure _)) fun _ ↦
      .ite (idle_of_harmless hst (harmless_finishing setup run status failure output)) (.pure _)

theorem takes_terminate (setup : Setup) (hst : st.Ready e.result) (hrun : run = e.run)
    {status : RunStatus} (hstatus : status.isTerminal = true) (failure : Option Failure)
    (output : Option Json.Object) : e.Takes (· = .ended) (fun st' _ ↦ st' = .ended) st
      (setup.terminate run status failure output) := by
  have hended : ¬Stage.ended.Seeks := id
  have hallow : e.allows st (.store (.updateRunStatus run status none)) :=
    allows_of_ne (Stage.ne_unread_of_not_seeks hst.not_seeks) fun _ ↦ ⟨hstatus, rfl, hst⟩
  have hafter : ∀ answer, e.after st (.store (.updateRunStatus run status none)) answer = .ended :=
    fun _ ↦ if_pos hrun
  rw [terminate_eq, updateRunStatus, writeRunStatus, bind_assoc]
  refine .store hallow (fun s err _ _ ↦ hafter _) fun s moved _ _ ↦ ?_
  rw [hafter]
  exact .idle (.bind (.ite (.bind (idle_of_harmless hended (harmless_announce _)) fun _ ↦ .pure _)
    (.pure _)) fun _ ↦ .ite (idle_of_harmless hended (harmless_finishing setup run status failure
      output)) (.pure _))

/-! ## Starting sub-workflows -/

theorem takes_launch_apart (setup : Setup) (hc : e.StartsApart startChild) {v : Uid}
    (hx : x.uid ∉ e.own) (hrun : x.workflowInstanceUid ≠ e.run) :
    e.Stays (.launched v false) (setup.launch startChild x) := by
  have hl : e.Launches (.launched v false) x :=
    ⟨fun h ↦ absurd h hx, fun h ↦ absurd h hx, fun _ ↦ ⟨v, rfl⟩⟩
  refine (takes_tryLaunch setup hc hl).attempt.bind (fun _ h ↦ h.elim) fun st o ho ↦ ?_
  cases o with
  | ok => exact .pure ho
  | error err =>
    -- The error fails the other run, if anything.
    have hst : st.Launched := ho.elim (fun h ↦ h ▸ trivial) id
    have hseeks := (hst.ready (m := e.result)).not_seeks
    exact .ite (fun _ ↦ stays_of_idle hst (idle_terminate setup hseeks hrun _ _ _)) fun _ ↦
      .throw hst

theorem takes_newUid {f : Uid → Action β} {P : Stage → β → Prop} (hst : st ≠ .unread)
    (hf : ∀ v, v ≠ e.run → v ∉ e.own → e.Takes E P st (f v)) :
    e.Takes E P st (Action.newUid >>= f) := by
  refine ⟨allows_of_ne hst trivial, fun s v hs hadm ↦ ?_⟩
  refine hf v ?_ fun hv ↦ hadm (hs.known.2 v hv)
  rintro rfl
  exact hadm hs.known.1

theorem takes_newUids (hst : st ≠ .unread) (n : Nat) :
    e.Takes (· = st) (fun st' vs ↦ st' = st ∧ ∀ v ∈ vs, v ∉ e.own) st (Action.newUids n) := by
  induction n with
  | zero => exact ⟨rfl, fun _ h ↦ nomatch h⟩
  | succ n ih =>
    refine takes_newUid hst fun v _ hv ↦ ih.bind (fun _ h ↦ h) ?_
    rintro _ vs ⟨rfl, hvs⟩
    refine .pure ⟨rfl, fun w hw ↦ ?_⟩
    rcases List.mem_cons.1 hw with rfl | hw
    · exact hv
    · exact hvs w hw

/-- A run that is made is another one, and its steps are none of the run. -/
theorem takes_generate (hst : ¬st.Seeks) (definition : WorkflowDefinition)
    (steps : List StepDefinition) (input : Json.Object) (parent parentStep : Option Uid) :
    e.Takes (· = st) (fun st' made ↦ st' = st ∧ made.1.uid ≠ e.run) st
      (generate definition steps input parent parentStep) := by
  have hne : st ≠ .unread := fun h ↦ hst (h ▸ trivial)
  refine .ite (fun _ ↦ .throw rfl) fun _ ↦ takes_newUid hne fun uid huid _ ↦
    (takes_newUids hne _).bind (fun _ h ↦ h) ?_
  rintro st uids ⟨rfl, huids⟩
  refine .after_idle ⟨idle_of_isHarmless hst trivial, fun _ ↦ trivial⟩ rfl fun time ↦ ?_
  have hinsert : e.Idle st (.store (.insertRun (newRun uid definition
      (buildStepInstances uid steps input uids) input parent parentStep time)
      (buildStepInstances uid steps input uids))) := by
    -- Identifiers are given out once, and those of the run have been given out.
    have hnew : ∀ x ∈ buildStepInstances uid steps input uids,
        x.uid ∉ e.own ∧ x.workflowInstanceUid ≠ e.run := by
      intro x hx
      obtain ⟨hmem, -, hwi⟩ := mem_buildStepInstances hx
      exact ⟨huids _ hmem, hwi ▸ huid⟩
    exact ⟨allows_of_ne hne ⟨huid, hnew⟩, fun _ ↦ rfl⟩
  exact .after_idle (.store hinsert) rfl fun _ ↦ .pure ⟨rfl, huid⟩

theorem takes_firstStep (hst : ¬st.Seeks) (hrun : run ≠ e.run) :
    e.Takes (· = st) (fun st' x ↦ st' = st ∧ x.uid ∉ e.own ∧ x.workflowInstanceUid ≠ e.run) st
      (firstStep run) := by
  have hcall : e.Idle st (.store (.listSteps run)) := idle_of_isHarmless hst trivial
  refine .store hcall.1 (fun s err _ _ ↦ hcall.2 _) fun s steps hs hsteps ↦ ?_
  rw [hcall.2]
  split
  · next x hx =>
    have hmem : x ∈ inExecutionOrder (s.tables.chainOf run) :=
      Except.ok.inj hsteps ▸ List.mem_of_find?_eq_some hx
    obtain ⟨hmem, hwi⟩ := Store.Tables.mem_chainOf.1 ((mem_ordered _).1 hmem)
    have hne : x.workflowInstanceUid ≠ e.run := hwi ▸ hrun
    exact .pure ⟨rfl, fun hown ↦ hne ((hs.steps x hmem).own.2 hown), hne⟩
  · exact .throw rfl

theorem idle_lookUpFunctions (hst : ¬st.Seeks) (refs : List (Uid × String)) :
    Asks (e.Idle st) (Setup.lookUpFunctions refs) := by
  induction refs with
  | nil => exact .pure _
  | cons ref rest ih =>
    refine .bind (.attempt ⟨idle_of_catalog hst rfl, fun _ ↦ trivial⟩) fun o ↦ ?_
    split
    · exact .bind ih fun _ ↦ .pure _
    · exact .ite (.pure _) (.throw _)

theorem idle_requestDeployments (hst : ¬st.Seeks) (functions : List FunctionInfo) :
    Asks (e.Idle st) (Setup.requestDeployments functions) := by
  induction functions with
  | nil => exact .pure _
  | cons f rest ih =>
    exact .ite ih (.bind ⟨idle_of_catalog hst rfl, fun _ ↦ trivial⟩ fun _ ↦ ih)

theorem idle_updateRunStatus (hst : ¬st.Seeks) (hrun : run ≠ e.run) (status : RunStatus) :
    Asks (e.Idle st) (updateRunStatus run status) := by
  have hstatus : e.Idle st (.store (.updateRunStatus run status none)) :=
    ⟨allows_of_ne (Stage.ne_unread_of_not_seeks hst) fun hv ↦ absurd hv hrun, fun _ ↦ if_neg hrun⟩
  exact .bind (.store hstatus) fun _ ↦
    .ite (.bind (idle_of_harmless hst (harmless_announce _)) fun _ ↦ .pure _) (.pure _)

theorem takes_prepareFunctions (setup : Setup) (hc : e.StartsApart startChild) {v : Uid}
    (hrun : run ≠ e.run) (steps : List StepDefinition) (hx : x.uid ∉ e.own)
    (hxrun : x.workflowInstanceUid ≠ e.run) :
    e.Stays (.launched v false) (setup.prepareFunctions startChild run steps x) := by
  have hst : ¬(Stage.launched v false).Seeks := id
  refine .after_idle (idle_lookUpFunctions hst _) trivial fun found ↦ ?_
  split
  · exact stays_of_idle trivial (idle_terminate setup hst hrun _ _ _)
  split
  · exact stays_of_idle trivial (idle_terminate setup hst hrun _ _ _)
  refine .ite (fun _ ↦ ?_) fun _ ↦ stays_of_idle trivial ?_
  · exact .after_idle (idle_updateRunStatus hst hrun _) trivial fun _ ↦
      takes_launch_apart setup hc hx hxrun
  · exact .bind (idle_requestDeployments hst _) fun _ ↦
      .bind (idle_updateRunStatus hst hrun _) fun _ ↦
        ⟨idle_of_isHarmless hst trivial, fun _ ↦ trivial⟩

theorem takes_startRun (setup : Setup) (hc : e.StartsApart startChild) {v : Uid}
    (hrun : run ≠ e.run) (definition : WorkflowDefinition) (steps : List StepDefinition) :
    e.Stays (.launched v false) (setup.startRun startChild run definition steps) := by
  have hst : ¬(Stage.launched v false).Seeks := id
  have hstate : ∀ st : Stage, st.Launched → e.Stays st (state run) := fun _ h ↦
    stays_of_harmless h (harmless_state run)
  refine .after_idle (idle_of_harmless hst (harmless_setRunStartTime run)) trivial fun _ ↦
    (takes_firstStep hst hrun).attempt.bind (fun _ h ↦ h.elim) fun st o ho ↦ ?_
  cases o with
  | ok first =>
    obtain ⟨rfl, hx, hxrun⟩ := ho
    refine .ite (fun _ ↦ ?_) fun _ ↦ ?_
    · exact .after_idle (idle_updateRunStatus hst hrun _) trivial fun _ ↦
        (takes_launch_apart setup hc hx hxrun).bind (fun _ h ↦ h) fun st _ h ↦ hstate st h
    · exact (takes_prepareFunctions setup hc hrun steps hx hxrun).bind (fun _ h ↦ h)
        fun st _ h ↦ hstate st h
  | error err =>
    obtain rfl : st = .launched v false := ho
    refine .ite (fun _ ↦ ?_) fun _ ↦ .throw trivial
    exact .after_idle (idle_terminate setup hst hrun _ _ _) trivial fun _ ↦ hstate _ trivial

theorem startsApart_startNested (setup : Setup) (depth : Nat) (workflow : Uid) (input : Json.Object)
    (parent parentStep : Option Uid) (v : Uid) :
    e.Stays (.launched v false) (setup.startNested depth workflow input parent parentStep) := by
  induction depth generalizing workflow input parent parentStep v with
  | zero => exact .throw trivial
  | succ depth ih =>
    refine .after_idle ⟨idle_of_catalog id rfl, fun _ ↦ trivial⟩ trivial fun definition ↦
      .after_idle (.ite ⟨idle_of_catalog id rfl, fun _ ↦ trivial⟩ (.pure _)) trivial fun steps ↦
        (takes_generate id _ _ _ _ _).bind (fun _ h ↦ h ▸ trivial) ?_
    rintro _ ⟨q, instances⟩ ⟨rfl, hq⟩
    exact takes_startRun setup (fun _ _ _ _ v ↦ (ih _ _ _ _ v).bind (fun _ h ↦ h) fun _ _ h ↦
      .pure h) hq _ _

/-! ## Moving the run on -/

theorem settles_of_idle {a : Action α} (hst : st ≠ .granted) (ha : Asks (e.Idle st) a) :
    e.Settles st a := (Takes.idle ha).mono (fun _ _ ↦ trivial) fun _ _ h ↦ h ▸ hst

theorem settles_terminate (setup : Setup) (hst : st.Ready e.result) (hrun : run = e.run)
    {status : RunStatus} (hstatus : status.isTerminal = true) (failure : Option Failure)
    (output : Option Json.Object) : e.Settles st (setup.terminate run status failure output) :=
  (takes_terminate setup hst hrun hstatus failure output).mono (fun _ _ ↦ trivial) fun _ _ h ↦
    h ▸ nofun

theorem takes_launchStep (setup : Setup) (h : e.Launches st x) (hx : x.uid ∈ e.own)
    (hrun : x.workflowInstanceUid = e.run) :
    e.Settles st (setup.launchStep x) := by
  have hlaunched : ∀ {st : Stage}, st.Launched → st ≠ .granted := by
    rintro _ h rfl
    exact h
  refine (takes_tryLaunch setup (fun _ _ _ _ v ↦ (startsApart_startNested setup _ _ _ _ _ v).bind
    (fun _ h ↦ h) fun _ _ h ↦ .pure h) h).attempt.bind (fun _ h ↦ h.elim) fun st' o ho ↦ ?_
  cases o with
  | ok => exact .pure (hlaunched ho)
  | error err =>
    -- Whether or not the step was launched before the error, the run may be ended.
    have hready : st'.Ready e.result :=
      ho.elim (fun h' ↦ h' ▸ (h.own hx).ready) Stage.Launched.ready
    exact .ite (fun _ ↦ settles_terminate setup hready hrun rfl _ _) fun _ ↦ .throw trivial

/-- A step is the next one to be launched after the step that the result is for. -/
structure Next (e : Errand) (x n : StepInstance) : Prop where
  own : n.uid ∈ e.own
  run : n.workflowInstanceUid = e.run
  target : n.uid = x.uid ∨ x.nextStepId = some n.uid ∧ x.Stops
  loops : n.uid = e.step → ∃ f text, n.shape = .doWhile f text

/-- A step that is to be left for another one has the next step that it names. -/
theorem nextStep_of_stops (hguided : StepInstance.SelfGuided x.shape) (hstops : x.Stops) :
    nextStep x = followLink x := by
  by_cases hloop : ∃ f text, x.shape = .doWhile f text
  · obtain ⟨f, text, hshape⟩ := hloop
    rw [nextStep_of_loop hshape, evaluateStop_eq (hguided f text hshape).1, hstops f text hshape]
    rfl
  · exact nextStep_of_not_loop fun f text hshape ↦ hloop ⟨f, text, hshape⟩

theorem takes_followLink (hst : ¬st.Seeks) (hx : e.Fits x) (hu : x.uid = e.step)
    (hstops : x.Stops) :
    e.Takes (· = st) (fun st' o ↦ st' = st ∧ ∀ n ∈ o, e.Next x n) st (followLink x) := by
  have hown : x.workflowInstanceUid = e.run := hx.own.2 (hu ▸ e.mem)
  unfold followLink
  split
  · next v hv =>
    obtain ⟨hvown, hne⟩ := hx.next hown v hv
    have hcall : e.Idle st (.store (.getStep v)) := idle_of_isHarmless hst trivial
    rw [← bind_pure (Action.store (.getStep v))]
    refine .store hcall.1 (fun _ _ _ _ ↦ hcall.2 _) fun s o hs ho ↦ ?_
    rw [hcall.2]
    refine .pure ⟨rfl, fun n hn ↦ ?_⟩
    obtain ⟨hmem, rfl⟩ := Store.Tables.mem_of_step? ((Except.ok.inj ho).trans hn)
    exact ⟨hvown, (hs.steps n hmem).own.2 hvown, .inr ⟨hv, hstops⟩,
      fun h ↦ absurd (h.trans hu.symm) hne⟩
  · exact .pure ⟨rfl, fun _ h ↦ nomatch h⟩

theorem takes_nextStep (hst : ¬st.Seeks) (hx : e.Fits x) (hu : x.uid = e.step) :
    e.Takes (· = st) (fun st' o ↦ st' = st ∧ ∀ n ∈ o, e.Next x n) st (nextStep x) := by
  have hguided := hx.guided hu
  by_cases hstops : x.Stops
  · rw [nextStep_of_stops hguided hstops]
    exact takes_followLink hst hx hu hstops
  · -- The step is a loop that goes on, or whose stop condition has no value.
    obtain ⟨f, text, hshape, hvalue⟩ : ∃ f text, x.shape = .doWhile f text ∧
        stopValue x text ≠ .ok true := by
      by_contra hno
      exact hstops fun f text hshape ↦ by_contra fun hvalue ↦ hno ⟨f, text, hshape, hvalue⟩
    rw [nextStep_of_loop hshape, evaluateStop_eq (hguided f text hshape).1]
    rcases hstop : stopValue x text with err | _ | _
    · exact .throw rfl
    · refine .pure ⟨rfl, fun n hn ↦ ?_⟩
      obtain rfl := Option.some.inj hn
      exact ⟨hu ▸ e.mem, hx.own.2 (hu ▸ e.mem), .inl rfl, fun _ ↦ ⟨f, text, hshape⟩⟩
    · exact absurd hstop hvalue

/-- The run may be moved on from a step that has been read. -/
inductive At (e : Errand) (x : StepInstance) : Stage → Prop where
  | again (h : repeatsLast x e.result = true) : At e x (.read x)
  | applied : At e x (.reread x)

theorem At.ready (h : e.At x st) : st.Ready e.result := by
  cases h with
  | again h => exact h
  | applied => trivial

theorem At.launches (h : e.At x st) (hstatus : x.runStatus = .completed ∨ x.runStatus = .skipped)
    {n : StepInstance} (hn : e.Next x n) : e.Launches st n where
  own := by
    intro _
    cases h with
    | again h => exact ⟨h, hstatus, hn.target⟩
    | applied => exact ⟨hstatus, hn.target⟩
  select := by
    rintro - ⟨text, cases, hswitch⟩
    have hne : n.uid ≠ e.step := by
      intro hu
      obtain ⟨f, text, hloop⟩ := hn.loops hu
      cases hloop.symm.trans hswitch
    cases h with
    | again | applied => exact hne
  other := fun hno ↦ absurd hn.own hno

theorem takes_retry (setup : Setup) (h : e.At x st) (hx : e.Fits x) (hu : x.uid = e.step)
    (hstatus : x.runStatus.isTerminal = true) : e.Settles st (setup.retry x) := by
  have hallow : e.allows st (.store (.decrementRetry x.uid)) := by
    cases h with
    | again h => exact allows_of_ne nofun ⟨hu, h⟩
    | applied => exact allows_of_ne nofun ⟨hu, trivial⟩
  have hown : x.workflowInstanceUid = e.run := hx.own.2 (hu ▸ e.mem)
  refine .store hallow (fun _ _ _ _ ↦ trivial) fun s granted hs _ ↦ ?_
  cases granted with
  | false =>
    show e.Takes _ _ st (setup.fail x.workflowInstanceUid x.runStatus x.name (failureReason x))
    exact settles_terminate setup h.ready hown hstatus _ _
  | true =>
    -- Whoever is granted the repetition launches the step itself, and no other one.
    show e.Takes _ _ .granted (readStep x.uid >>= setup.launchStep)
    refine takes_readStep (hu ▸ e.mem) (allows_of_ne nofun nofun) fun y hy hfits ↦ ?_
    have hyu : y.uid = e.step := hy.trans hu
    have hyown : y.uid ∈ e.own := hyu ▸ e.mem
    exact takes_launchStep setup ⟨fun _ ↦ hyu, fun _ _ ↦ trivial, fun hno ↦ absurd hyown hno⟩ hyown
      (hfits.own.2 hyown)

theorem takes_leave (setup : Setup) (h : e.At x st) (hx : e.Fits x) (hu : x.uid = e.step)
    (hstatus : x.runStatus = .completed ∨ x.runStatus = .skipped) :
    e.Settles st (setup.leave x) := by
  have hown : x.workflowInstanceUid = e.run := hx.own.2 (hu ▸ e.mem)
  refine (takes_nextStep h.ready.not_seeks hx hu).attempt.bind (fun _ h ↦ h.elim) ?_
  intro st' o ho
  cases o with
  | error err =>
    obtain rfl : st' = st := ho
    exact .ite (fun _ ↦ settles_terminate setup h.ready hown rfl _ _) fun _ ↦ .throw trivial
  | ok next =>
    obtain ⟨rfl, hnext⟩ := ho
    cases next with
    | none =>
      -- The run is completed after its last step, and failed if a step is missing.
      exact .ite (fun _ ↦ settles_terminate setup h.ready hown rfl _ _) fun _ ↦
        settles_terminate setup h.ready hown rfl _ _
    | some n =>
      have hn := hnext n rfl
      exact takes_launchStep setup (h.launches hstatus hn) hn.own hn.run

theorem takes_advance (setup : Setup) (h : e.At x st) (hx : e.Fits x) (hu : x.uid = e.step) :
    e.Settles st (setup.advance x) := by
  have hown : x.workflowInstanceUid = e.run := hx.own.2 (hu ▸ e.mem)
  unfold Setup.advance
  cases hstatus : x.runStatus with
  | completed => exact takes_leave setup h hx hu (.inl hstatus)
  | skipped => exact takes_leave setup h hx hu (.inr hstatus)
  | failed | timedOut => exact takes_retry setup h hx hu (by rw [hstatus]; rfl)
  | canceled | failedWithTerminalError => exact settles_terminate setup h.ready hown rfl _ _
  | _ => exact .throw trivial

/-! ## Handling the result -/

theorem takes_applyResult (hu : x.uid = e.step) :
    e.Takes (fun _ ↦ True) (fun st' o ↦ (o = none ∧ st' = .read x) ∨
      ∃ y, o = some y ∧ st' = .reread y ∧ y.uid = e.step ∧ e.Fits y) (.read x)
      (applyResult x e.result) := by
  unfold applyResult
  cases hexp : expectedRunCount x e.result with
  | none => exact .pure (.inl ⟨rfl, rfl⟩)
  | some expected =>
    refine .after_idle ⟨idle_of_isHarmless id trivial, fun _ ↦ trivial⟩ trivial fun time ↦ ?_
    refine .store (allows_of_ne nofun ⟨hu, x, rfl, hexp⟩) (fun _ _ _ _ ↦ trivial)
      fun s taken _ _ ↦ ?_
    cases taken with
    | false => exact .pure (.inl ⟨rfl, rfl⟩)
    | true =>
      show e.Takes _ _ .written (announceStep x e.result.runStatus >>= fun _ ↦
        readStep x.uid >>= fun y ↦ pure (some y))
      have hannounce : Asks (e.Idle .written) (announceStep x e.result.runStatus) :=
        .bind (.attempt ⟨⟨allows_of_ne nofun nofun, fun _ ↦ rfl⟩, fun _ ↦ trivial⟩) fun _ ↦ .pure _
      refine .after_idle hannounce trivial fun _ ↦ takes_readStep (hu ▸ e.mem)
        (allows_of_ne nofun fun _ ↦ hu)
        fun y hy hfits ↦ .pure (.inr ⟨y, rfl, rfl, hy.trans hu, hfits⟩)

theorem takes_processRepeated (setup : Setup) (hx : e.Fits x) (hu : x.uid = e.step) :
    e.Settles (.read x) (setup.processRepeated x e.result) := by
  have hst : ¬(Stage.read x).Seeks := id
  have hown : x.workflowInstanceUid = e.run := hx.own.2 (hu ▸ e.mem)
  unfold Setup.processRepeated
  by_cases hrep : repeatsLast x e.result = true
  · rw [if_pos hrep, hown]
    refine takes_readRun hst fun q hq ↦ ?_
    rcases hq with hq | hq
    · rw [hq]
      refine .after_idle (idle_of_harmless hst (readsSteps_awaitsFollowUp x).harmless) trivial
        fun _ ↦ .ite (fun _ ↦ takes_advance setup (.again hrep) hx hu) fun _ ↦ .pure nofun
    · cases hstatus : q.runStatus with
      | running | paused => rw [hstatus] at hq; cases hq
      | stopped => exact .pure nofun
      | _ =>
        exact settles_of_idle nofun
          (idle_of_harmless hst (.ite (harmless_reportToParent _ _ _ _) (.pure _)))
  · rw [if_neg hrep]
    exact .pure nofun

/-- **A result is handled stage by stage.** On firm ground nothing is asked that is not allowed at
the stage that has been reached, and the handling does not succeed where a repetition has been
granted but not been launched. -/
theorem takes_processResult (setup : Setup) (e : Errand) :
    e.Settles .unread (setup.processResult e.result) := by
  rw [processResult_eq]
  refine takes_readStep e.mem ⟨fun _ ↦ rfl, fun _ ↦ rfl⟩ fun x hu hx ↦
    (takes_applyResult hu).bind (fun _ h ↦ h) ?_
  rintro st o (⟨rfl, rfl⟩ | ⟨y, rfl, rfl, hyu, hy⟩)
  · exact takes_processRepeated setup hx hu
  · have hown : y.workflowInstanceUid = e.run := hy.own.2 (hyu ▸ e.mem)
    show e.Takes _ _ _ (readRun y.workflowInstanceUid >>= fun run ↦ _)
    rw [hown]
    refine takes_readRun id fun q hq ↦ .ite (fun _ ↦ .pure nofun) fun hnt ↦ .ite (fun hpaused ↦ ?_)
      fun _ ↦ takes_advance setup .applied hy hyu
    rcases hq with hq | hq
    · cases hq.symm.trans hpaused
    · exact absurd hq hnt

end Errand

end Engine

end Orchestration
