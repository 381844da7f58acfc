import Orchestration.Proofs.Detaining
import Orchestration.Proofs.Reading
import Orchestration.Proofs.Watching

/-!
# How a watch ends

A watch over a run comes to its end in one of three ways (`Discharged`). Its outcome has been
accepted, and it has left the statuses of all runs alone. Or nothing has been accepted, and somebody
else has ended the wait of the run. Or nothing has been accepted, and the watch has ended the wait
itself: the run has failed then, and its record says when and why.

All of this is said of a watch in the company of others who spare the run (`Unharmed`). So what the
watch has read of the run may be out of date when it acts on it, but a wait that has ended does not
begin again.
-/

namespace Orchestration

namespace Engine

open Relation (ReflTransGen)

variable {α : Type} {R : Rule} {u : Uid} {s s' t : Scene} {l l₁ l₂ : List Moment}
variable {outcome : DeploymentOutcome}

/-! ## Statuses -/

/-- The status of a run, if the run is there. -/
def Scene.statusOf? (s : Scene) (u : Uid) : Option RunStatus := (s.tables.run? u).map (·.runStatus)

def Moment.after (m : Moment) : Scene := m.scene.after m.call m.answer

/-- A call leaves the status of every run as it is. -/
def Moment.KeepsStatuses (m : Moment) : Prop := ∀ v, m.after.statusOf? v = m.scene.statusOf? v

/-- A call ends the wait of a run, which has failed then, and leaves the status of every other run
as it is. -/
structure Moment.EndsWait (u : Uid) (m : Moment) : Prop where
  waited : m.scene.statusOf? u = some .deployingFunctions
  failed : m.after.statusOf? u = some .failedWithTerminalError
  others : ∀ v, v ≠ u → m.after.statusOf? v = m.scene.statusOf? v

/-- The call that ends the wait of a run, which has failed then. -/
abbrev endWait (u : Uid) : Store.Call :=
  .updateRunStatus u .failedWithTerminalError (some .deployingFunctions)

/-- Whether a call is one of those of a watch over a run. -/
def Call.watchesOver (u : Uid) (c : Call) : Prop :=
  c.isHarmless ∨ (∃ f, c = .getFunction f) ∨ c = .store (endWait u)

theorem statusOf?_of_run? {q : WorkflowInstance} (hq : s.tables.run? u = some q) :
    s.statusOf? u = some q.runStatus := congrArg (Option.map _) hq

theorem statusOf?_onRun {γ : Type} {v : Uid} {change : WorkflowInstance → γ × WorkflowInstance}
    (huid : ∀ q : WorkflowInstance, (change q).2.uid = q.uid)
    (hstatus : ∀ q : WorkflowInstance, (change q).2.runStatus = q.runStatus) (w : Uid) :
    ((s.tables.onRun v change).2.run? w).map (·.runStatus) = s.statusOf? w := by
  rw [run?_onRun_eq huid]
  split
  · next hw =>
    subst hw
    rw [Option.map_map]
    exact Option.map_congr fun q _ ↦ hstatus q
  · rfl

theorem Moment.keepsStatuses_of_isHarmless {m : Moment} (h : m.call.isHarmless) :
    m.KeepsStatuses := by
  obtain ⟨s, c, answer⟩ := m
  intro v
  cases c with
  | store c =>
    cases c with
    | getRun | getStep | listSteps | findStep | listTopLevelRuns => rfl
    | setRunStartTime | setRunEndTime | recordRunError | setRunOutput =>
      exact statusOf?_onRun (fun _ ↦ rfl) (fun _ ↦ rfl) v
    | _ => exact h.elim
  | publish channel payload =>
    show ((s.publish channel payload (Except.isOk answer)).tables.run? v).map _ = _
    rw [tables_publish]
    rfl
  | now | spawn => rfl
  | _ => exact h.elim

/-! ## Ending a wait -/

/-- A wait is ended where the run waits. Elsewhere the records of all runs stay as they are. -/
theorem answer_endWait (t : Store.Tables) (u : Uid) :
    (∃ q, t.run? u = some q ∧ q.runStatus = .deployingFunctions ∧
      (t.answer (endWait u)).1 = .ok true ∧ (t.answer (endWait u)).2.run? u =
      some { q with runStatus := .failedWithTerminalError } ∧
      ∀ v, v ≠ u → (t.answer (endWait u)).2.run? v = t.run? v) ∨
    ((∀ q, t.run? u = some q → q.runStatus ≠ .deployingFunctions) ∧
      (t.answer (endWait u)).1 ≠ .ok true ∧ ∀ v, (t.answer (endWait u)).2.run? v = t.run? v) := by
  have hanswer : t.answer (endWait u) =
      t.onRun u (Store.Tables.withStatus .failedWithTerminalError (some .deployingFunctions)) := rfl
  have hrun : ∀ v, (t.answer (endWait u)).2.run? v = if v = u then
      (t.run? u).map fun q ↦ (Store.Tables.withStatus .failedWithTerminalError
        (some .deployingFunctions) q).2
      else t.run? v := fun v ↦ run?_onRun_eq (withStatus_uid _ _) v
  cases hq : t.run? u with
  | none =>
    rw [hanswer, Store.Tables.onRun_of_none hq]
    exact .inr ⟨fun _ h ↦ (by cases h), fun h ↦ (by cases h), fun _ ↦ rfl⟩
  | some q =>
    by_cases hwaits : q.runStatus = .deployingFunctions
    · have hgranted : Store.Tables.withStatus .failedWithTerminalError
          (some .deployingFunctions) q =
          (true, { q with runStatus := .failedWithTerminalError }) := by
        simp [Store.Tables.withStatus, hwaits, RunStatus.isTerminal]
      refine .inl ⟨q, rfl, hwaits, ?_, ?_, fun v hv ↦ ?_⟩
      · rw [hanswer, Store.Tables.onRun_of_some hq, hgranted]
      · rw [hrun, if_pos rfl, hq, Option.map_some, hgranted]
      · rw [hrun, if_neg hv]
    · have hrefused : Store.Tables.withStatus .failedWithTerminalError
          (some .deployingFunctions) q = (false, q) := by
        rw [Store.Tables.withStatus, if_pos]
        simp [Ne.symm hwaits]
      refine .inr ⟨fun p hp ↦ Option.some.inj hp ▸ hwaits, ?_, fun v ↦ ?_⟩
      · rw [hanswer, Store.Tables.onRun_of_some hq, hrefused]
        exact fun h ↦ by cases h
      · rw [hrun]
        split
        · next hv => rw [hv, hq, Option.map_some, hrefused]
        · rfl

/-- **A watch changes no status but that of its run, and that only to end its wait.** -/
theorem Moment.keeps_or_endsWait {m : Moment} (hc : m.call.watchesOver u) :
    m.KeepsStatuses ∨ m.EndsWait u := by
  obtain ⟨s, c, answer⟩ := m
  rcases hc with hc | ⟨f, rfl⟩ | rfl
  · exact .inl (keepsStatuses_of_isHarmless hc)
  · exact .inl fun _ ↦ rfl
  rcases answer_endWait s.tables u with ⟨q, hq, hwaits, -, hfailed, hothers⟩ | ⟨-, -, hsame⟩
  · refine .inr ⟨?_, congrArg (Option.map _) hfailed, fun v hv ↦
      congrArg (Option.map _) (hothers v hv)⟩
    rw [statusOf?_of_run? hq, hwaits]
  · exact .inl fun v ↦ congrArg (Option.map _) (hsame v)

/-- A wait that has ended does not begin again among those who spare the run. -/
theorem released_stays (hs : s.statusOf? u ≠ some .deployingFunctions)
    (h : ReflTransGen (Unharmed u) s s') : s'.statusOf? u ≠ some .deployingFunctions := by
  have hkept := Unharmed.keeps (P := fun q ↦ q.runStatus ≠ .deployingFunctions)
    (fun _ _ h ↦ h.released) (fun q hq hwaits ↦ hs (by rw [statusOf?_of_run? hq, hwaits])) h
  intro hwaits
  obtain ⟨q, hq, hstatus⟩ := Option.map_eq_some_iff.1 hwaits
  exact hkept q hq hstatus

theorem failed_stays (hs : ∀ q, s.tables.run? u = some q → q.runStatus = .failedWithTerminalError)
    (h : ReflTransGen (Unharmed u) s s') :
    ∀ q, s'.tables.run? u = some q → q.runStatus = .failedWithTerminalError := by
  refine Unharmed.keeps (fun p p' hlasts hp ↦ ?_) hs h
  rw [hlasts.ended (by rw [hp]; rfl), hp]

/-- A run that has been removed is not put in again by those who spare it. -/
theorem gone_stays (hs : s.tables.run? u = none) (h : ReflTransGen (Unharmed u) s s') :
    s'.tables.run? u = none := by
  refine Option.eq_none_iff_forall_ne_some.2 fun q hq ↦ ?_
  exact Unharmed.keeps (P := fun _ ↦ False) (fun _ _ _ ↦ id)
    (fun p hp ↦ nomatch hs.symm.trans hp) h q hq

/-! ## What has been accepted -/

/-- The outcomes that have been accepted from a log. -/
def accepted (l : List Moment) : List String := l.filterMap (Moment.published? .deployments)

theorem accepted_append (l₁ l₂ : List Moment) : accepted (l₁ ++ l₂) = accepted l₁ ++ accepted l₂ :=
  List.filterMap_append

theorem accepted_eq_nil (h : ∀ m ∈ l, m.call.isMute) : accepted l = [] := by
  refine List.filterMap_eq_nil_iff.2 fun m hm ↦ Option.eq_none_iff_forall_ne_some.2
    fun payload htold ↦ ?_
  cases (Moment.offered?_eq_none (h m hm)).symm.trans (Moment.offered?_of_published htold)

/-- A log in which nothing is accepted and no status is changed. -/
def Discreet (l : List Moment) : Prop := accepted l = [] ∧ ∀ m ∈ l, m.KeepsStatuses

theorem Discreet.append (h₁ : Discreet l₁) (h₂ : Discreet l₂) : Discreet (l₁ ++ l₂) :=
  ⟨by rw [accepted_append, h₁.1, h₂.1]; rfl,
    fun m hm ↦ (List.mem_append.1 hm).elim (h₁.2 m) (h₂.2 m)⟩

/-! ## Delivering -/

theorem amid_readRun {N : Scene → Scene → Prop} {r : Except EngineError WorkflowInstance}
    (h : Amid R N (readRun u) s l r s') :
    ∃ t, ReflTransGen N s t ∧ ReflTransGen N t s' ∧ (∀ q, r = .ok q → t.tables.run? u = some q) ∧
      ∀ e, r = .error e → t.tables.run? u = none := by
  rcases amid_bind h with ⟨e, h₁, rfl⟩ | ⟨l₁, l₂, found, t, rfl, h₁, h⟩
  · obtain ⟨t, -, -, hanswer, -⟩ := amid_store h₁
    cases hanswer
  · obtain ⟨t₁, -, hbefore, hanswer, hafter⟩ := amid_store h₁
    obtain rfl : found = t₁.tables.run? u := Except.ok.inj hanswer
    rw [afterStore_of_isReading rfl] at hafter
    refine ⟨t₁, hbefore, ?_⟩
    cases hq : t₁.tables.run? u with
    | some q =>
      rw [hq] at h
      obtain ⟨-, rfl, hrest⟩ := amid_pure h
      exact ⟨hafter.trans hrest, fun q' hq' ↦ congrArg some (Except.ok.inj hq'), nofun⟩
    | none =>
      rw [hq] at h
      obtain ⟨-, rfl, hrest⟩ := amid_throw h
      exact ⟨hafter.trans hrest, fun _ h ↦ (nomatch h), fun _ _ ↦ rfl⟩

/-- Whoever tries to deliver an outcome has it accepted, or nothing is. If there is nothing more to
do then, the run does not wait any more. -/
theorem amid_deliver {r : Except EngineError Bool} (hu : outcome.workflowInstanceId = u)
    (hdeliver : Amid R (Unharmed u) (deliver outcome) s l r s') :
    ∃ delivered, r = .ok delivered ∧
      (delivered = true ∧ accepted l = [outcome.toJson.text] ∨
        accepted l = [] ∧ (delivered = true → s'.statusOf? u ≠ some .deployingFunctions)) := by
  rcases amid_bind hdeliver with ⟨e, h₁, -⟩ | ⟨l₁, l₂, published, t, rfl, h₁, h⟩
  · obtain ⟨_, -, he⟩ := amid_attempt h₁
    cases he
  obtain ⟨published', h₁, hpublished⟩ := amid_attempt h₁
  obtain rfl := Except.ok.inj hpublished
  obtain ⟨t₁, rfl, -, -⟩ := amid_publish h₁
  cases published with
  | ok =>
    obtain ⟨rfl, rfl, -⟩ := amid_pure h
    exact ⟨true, rfl, .inl ⟨rfl, rfl⟩⟩
  | error e =>
    rcases amid_bind h with ⟨e, h₂, -⟩ | ⟨l₃, l₄, found, t₂, rfl, h₂, h⟩
    · obtain ⟨_, -, he⟩ := amid_attempt h₂
      cases he
    obtain ⟨found', h₂, hfound⟩ := amid_attempt h₂
    obtain rfl := Except.ok.inj hfound
    rw [hu] at h₂
    have hmute : accepted l₃ = [] :=
      accepted_eq_nil ((asks_readRun (φ := Call.isMute) nofun).amid h₂)
    have hnone : accepted ([⟨t₁, .publish .deployments outcome.toJson.text, .error e⟩] ++
        (l₃ ++ [])) = [] := by
      rw [accepted_append, accepted_append, hmute]
      rfl
    cases found with
    | error e' =>
      obtain ⟨rfl, rfl, -⟩ := amid_pure h
      exact ⟨false, rfl, .inr ⟨hnone, fun hfalse ↦ nomatch hfalse⟩⟩
    | ok q =>
      obtain ⟨rfl, rfl, hrest⟩ := amid_pure h
      obtain ⟨t₃, -, hafter, hread, -⟩ := amid_readRun h₂
      refine ⟨_, rfl, .inr ⟨hnone, fun hleft ↦ released_stays ?_ (hafter.trans hrest)⟩⟩
      rw [statusOf?_of_run? (hread q rfl)]
      exact fun hwaits ↦ of_decide_eq_true hleft (Option.some.inj hwaits)

/-! ## Giving up -/

theorem amid_announce {N : Scene → Scene → Prop} {n : RunNotification} {r : Except EngineError Unit}
    (h : Amid R N (announce n) s l r s') : r = .ok () := by
  rcases amid_bind h with ⟨e, h₁, -⟩ | ⟨l₁, l₂, published, t, rfl, h₁, h⟩
  · obtain ⟨_, -, he⟩ := amid_attempt h₁
    cases he
  · exact (amid_pure h).2.1

/-- Whoever writes the status of a run asks the store, and then does no more than announce the
status. -/
theorem amid_writeRunStatus {N : Scene → Scene → Prop} {status : RunStatus}
    {expected : Option RunStatus} {r : Except EngineError Bool}
      (hN : ∀ (s : Scene) (c : Call) (answer : c.Answer), c.isHarmless → N s (s.after c answer))
      (h : Amid R N (writeRunStatus u status expected) s l r s') :
    ∃ l₁ l₂ t, l = l₁ ++ l₂ ∧
      Amid R N (Action.store (.updateRunStatus u status expected)) s l₁ r t ∧
      (∀ m ∈ l₂, m.call.isHarmless) ∧ ReflTransGen N t s' := by
  rcases amid_bind h with ⟨e, h₁, rfl⟩ | ⟨l₁, l₂, applied, t, rfl, h₁, h⟩
  · exact ⟨l, [], s', (List.append_nil l).symm, h₁, List.forall_mem_nil _, .refl⟩
  refine ⟨l₁, l₂, t, rfl, ?_⟩
  split at h
  · rcases amid_bind h with ⟨e, h₂, -⟩ | ⟨l₃, l₄, _, t₂, rfl, h₂, h⟩
    · cases amid_announce h₂
    · obtain ⟨rfl, rfl, hrest⟩ := amid_pure h
      rw [List.append_nil]
      have hannounce := harmless_announce (runNotification u status)
      exact ⟨h₁, Asks.amid hannounce h₂, (Asked.through hannounce hN h₂).trans hrest⟩
  · obtain ⟨rfl, rfl, hrest⟩ := amid_pure h
    exact ⟨h₁, List.forall_mem_nil _, hrest⟩

theorem Call.unharmed_of_isHarmless {c : Call} (hc : c.isHarmless) (answer : c.Answer) :
    Unharmed u s (s.after c answer) :=
  Call.unharmed (Call.spares_of_isPlain (Call.isPlain_of_isHarmless hc)
    (Call.not_detains_of_isHarmless hc)) answer

/-- Whoever ends the wait of a run has ended it, or the run did not wait any more. -/
theorem amid_endWait {r : Except EngineError Bool}
    (h : Amid R (Unharmed u)
      (moveRunStatus u .deployingFunctions .failedWithTerminalError) s l r s') :
    s'.statusOf? u ≠ some .deployingFunctions ∧
      (r ≠ .ok true ∧ (∀ m ∈ l, m.KeepsStatuses) ∨
        r = .ok true ∧ (∃ m ∈ l, m.EndsWait u) ∧
          ∀ q, s'.tables.run? u = some q → q.runStatus = .failedWithTerminalError) := by
  obtain ⟨l₁, l₂, t, rfl, hstore, hharmless, hrest⟩ :=
    amid_writeRunStatus (fun _ _ answer hc ↦ Call.unharmed_of_isHarmless hc answer) h
  obtain ⟨t₁, rfl, -, hanswer, hafter⟩ := amid_store hstore
  have hlater := hafter.trans hrest
  rcases answer_endWait t₁.tables u with ⟨q, hq, hwaits, hgranted, hfailed,
    hothers⟩ | ⟨hleft, hno, hsame⟩
  · have hstatus : (t₁.afterStore (endWait u)).statusOf? u = some .failedWithTerminalError :=
      congrArg (Option.map _) hfailed
    refine ⟨released_stays (hstatus ▸ nofun) hlater, .inr ⟨hanswer.trans hgranted, ?_, ?_⟩⟩
    · refine ⟨_, List.mem_cons_self, ?_, hstatus, fun v hv ↦ congrArg (Option.map _) (hothers v hv)⟩
      rw [statusOf?_of_run? hq, hwaits]
    · refine failed_stays (fun p hp ↦ ?_) hlater
      cases hfailed.symm.trans hp
      rfl
  · refine ⟨released_stays ?_ hlater, .inl ⟨fun ho ↦ hno (hanswer.symm.trans ho), fun m hm ↦ ?_⟩⟩
    · intro hwaits
      obtain ⟨q, hq, hstatus⟩ := Option.map_eq_some_iff.1 hwaits
      exact hleft q ((hsame u).symm.trans hq) hstatus
    · rcases List.mem_cons.1 hm with rfl | hm
      · exact fun v ↦ congrArg (Option.map _) (hsame v)
      · exact Moment.keepsStatuses_of_isHarmless (hharmless m hm)

/-- The wait of a run has been ended for an outcome that could not be delivered. If the run is still
there, its record says that it has failed and when, and has an entry of why. -/
structure GivenUp (outcome : DeploymentOutcome) (l : List Moment) (s : Scene) : Prop where
  ended : ∃ m ∈ l, m.EndsWait outcome.workflowInstanceId
  recorded : ∀ q, s.tables.run? outcome.workflowInstanceId = some q →
    q.runStatus = .failedWithTerminalError ∧ q.endTime.isSome = true ∧
      (Dict.get? q.errorMessages q.name).isSome = true ∧
      ∃ m ∈ l, m.call = .store (.recordRunError outcome.workflowInstanceId q.name
        (undelivered outcome))

/-- What is written into the record of a run is there until the run is removed, as long as what
outlasts the record has it. If there is no record to write into, there is none from then on. -/
theorem amid_onRun {c : Store.Call} {change : WorkflowInstance → c.Value × WorkflowInstance}
    {P : WorkflowInstance → Prop} {r : Except EngineError c.Value}
    (hc : ∀ t : Store.Tables, t.answer c = t.onRun u change)
    (huid : ∀ q : WorkflowInstance, (change q).2.uid = q.uid) (hchange : ∀ q, P (change q).2)
    (hP : ∀ q q', q.Outlasts q' → P q → P q') (h : Amid R (Unharmed u) (Action.store c) s l r s') :
    (∃ t, l = [⟨t, .store c, r⟩]) ∧ (∀ q, s'.tables.run? u = some q → P q) ∧
      ∀ e, r = .error e → s'.tables.run? u = none := by
  obtain ⟨t, rfl, -, hanswer, hafter⟩ := amid_store h
  have htables : (t.afterStore c).tables.run? u = (t.tables.run? u).map fun q ↦ (change q).2 := by
    show (t.tables.answer c).2.run? u = _
    rw [hc, run?_onRun_eq huid, if_pos rfl]
  refine ⟨⟨t, rfl⟩, Unharmed.keeps hP (fun q hq ↦ ?_) hafter, fun e he ↦ ?_⟩
  · obtain ⟨p, -, rfl⟩ := Option.map_eq_some_iff.1 (htables.symm.trans hq)
    exact hchange p
  · have hnone : t.tables.run? u = none := by
      cases hq : t.tables.run? u with
      | none => rfl
      | some q =>
        rw [hc, Store.Tables.onRun_of_some hq] at hanswer
        cases he.symm.trans hanswer
    rw [hnone] at htables
    exact gone_stays htables hafter

theorem amid_setRunEndTime {r : Except EngineError Unit}
    (h : Amid R (Unharmed u) (setRunEndTime u) s l r s') :
      (∀ q, s'.tables.run? u = some q → q.endTime.isSome = true) ∧ ∀ e, r = .error e →
      s'.tables.run? u = none := by
  rcases amid_bind h with ⟨e, h₁, -⟩ | ⟨l₁, l₂, time, t, rfl, h₁, h⟩
  · obtain ⟨_, _, -, he, -⟩ := amid_now h₁
    cases he
  · exact (amid_onRun (c := .setRunEndTime u time) (fun _ ↦ rfl) (fun _ ↦ rfl) (fun _ ↦ rfl)
      (fun _ _ hlasts ↦ hlasts.endTime) h).2

theorem Harmless.unharmed {a : Action α} {r : Except EngineError α} (ha : Harmless a)
    (h : Amid R (Unharmed u) a s l r s') : ReflTransGen (Unharmed u) s s' :=
  Asked.through ha (fun _ _ answer hc ↦ Call.unharmed_of_isHarmless hc answer) h

theorem harmless_recordRunError (u : Uid) (name reason : String) :
    Harmless (Action.store (.recordRunError u name reason)) := ⟨trivial, fun _ ↦ trivial⟩

/-- Whoever notes that a run is over, and why, has noted it, or the run has been removed. -/
theorem amid_noteEnd {reason : String} {r : Except EngineError Unit}
    (h : Amid R (Unharmed u) (do
      let q ← readRun u
      setRunEndTime u
      Action.store (.recordRunError u q.name reason)) s l r s') :
    ∀ q, s'.tables.run? u = some q → q.endTime.isSome = true ∧
      (Dict.get? q.errorMessages q.name).isSome = true ∧
      ∃ m ∈ l, m.call = .store (.recordRunError u q.name reason) := by
  intro q hq
  rcases amid_bind h with ⟨e, h₁, -⟩ | ⟨l₁, l₂, p, t₁, rfl, h₁, h⟩
  · obtain ⟨t, -, hafter, -, hnone⟩ := amid_readRun h₁
    cases (gone_stays (hnone e rfl) hafter).symm.trans hq
  rcases amid_bind h with ⟨e, h₂, -⟩ | ⟨l₃, l₄, _, t₂, rfl, h₂, h₃⟩
  · cases ((amid_setRunEndTime h₂).2 e rfl).symm.trans hq
  obtain ⟨t, -, hafter, hfound, -⟩ := amid_readRun h₁
  have hlater := (harmless_recordRunError u p.name reason).unharmed h₃
  -- The name of a run does not change, so the entry is under the name that the run has in the end.
  have hname : q.name = p.name := by
    refine Unharmed.keeps (P := fun q ↦ q.name = p.name) (fun _ _ hlasts h ↦ hlasts.name.trans h)
      (fun p' hp' ↦ ?_) (hafter.trans (((harmless_setRunEndTime u).unharmed h₂).trans hlater)) q hq
    rw [Option.some.inj ((hfound p rfl).symm.trans hp')]
  obtain ⟨⟨t₃, rfl⟩, hentry, -⟩ := amid_onRun
    (P := fun q ↦ (Dict.get? q.errorMessages p.name).isSome = true) (fun _ ↦ rfl) (fun _ ↦ rfl)
    (fun q ↦ by simp [Dict.get?_insert]) (fun _ _ hlasts ↦ hlasts.errors p.name) h₃
  refine ⟨?_, hname ▸ hentry q hq, _, List.mem_append_right _ (List.mem_append_right _
    (List.mem_singleton_self _)), by rw [hname]⟩
  exact Unharmed.keeps (fun _ _ hlasts ↦ hlasts.endTime) (amid_setRunEndTime h₂).1 hlater q hq

/-- **Whoever ends the wait of a run for an outcome that cannot be delivered** has ended it and has
noted why, or the run did not wait any more. -/
theorem amid_failRun {r : Except EngineError Unit} (hu : outcome.workflowInstanceId = u)
    (h : Amid R (Unharmed u) (failRun outcome) s l r s') :
    s'.statusOf? u ≠ some .deployingFunctions ∧
      ((∀ m ∈ l, m.KeepsStatuses) ∨ GivenUp outcome l s') := by
  subst hu
  rcases amid_bind h with ⟨e, h₁, -⟩ | ⟨l₁, l₂, moved, t, rfl, hmove, h⟩
  · obtain ⟨hleft, ⟨-, hkeeps⟩ | ⟨he, -⟩⟩ := amid_endWait h₁
    · exact ⟨hleft, .inl hkeeps⟩
    · cases he
  obtain ⟨hleft, ⟨hno, hkeeps⟩ | ⟨hmoved, ⟨m, hm, hends⟩, hfailed⟩⟩ := amid_endWait hmove
  · rw [if_neg fun hmoved ↦ hno (congrArg Except.ok hmoved)] at h
    obtain ⟨rfl, -, hrest⟩ := amid_pure h
    rw [List.append_nil]
    exact ⟨released_stays hleft hrest, .inl hkeeps⟩
  · rw [if_pos (Except.ok.inj hmoved)] at h
    have hrest := Harmless.unharmed (Asks.bind (harmless_readRun _) fun q ↦
      Asks.bind (harmless_setRunEndTime _) fun _ ↦ harmless_recordRunError _ q.name _) h
    refine ⟨released_stays hleft hrest, .inr ⟨⟨m, List.mem_append_left _ hm, hends⟩, fun q hq ↦ ?_⟩⟩
    obtain ⟨htime, hentry, m', hm', hcall⟩ := amid_noteEnd h q hq
    exact ⟨failed_stays hfailed hrest q hq, htime, hentry, m', List.mem_append_right _ hm', hcall⟩

/-! ## Reporting -/

/-- What has become of a run whose watch has come to its end. Either an outcome has been accepted,
once, and the watch has changed no status. Or nothing has been accepted and the run does not wait
any more: somebody else has ended its wait, or the watch has. -/
inductive Discharged (u : Uid) (l : List Moment) (s : Scene) : Prop where
  | told (outcome : DeploymentOutcome) (hrun : outcome.workflowInstanceId = u)
      (honce : accepted l = [outcome.toJson.text]) (hkeeps : ∀ m ∈ l, m.KeepsStatuses)
  | left (hnone : accepted l = []) (hleft : s.statusOf? u ≠ some .deployingFunctions)
      (hkeeps : ∀ m ∈ l, m.KeepsStatuses)
  | givenUp (outcome : DeploymentOutcome) (hrun : outcome.workflowInstanceId = u)
      (hnone : accepted l = []) (hleft : s.statusOf? u ≠ some .deployingFunctions)
      (hrecord : GivenUp outcome l s)

theorem GivenUp.append_left (h : GivenUp outcome l₂ s) (l₁ : List Moment) :
    GivenUp outcome (l₁ ++ l₂) s := by
  obtain ⟨⟨m, hm, hends⟩, hrecorded⟩ := h
  refine ⟨⟨m, List.mem_append_right _ hm, hends⟩, fun q hq ↦ ?_⟩
  obtain ⟨hfailed, htime, hentry, m', hm', hcall⟩ := hrecorded q hq
  exact ⟨hfailed, htime, hentry, m', List.mem_append_right _ hm', hcall⟩

/-- What a watch has done discreetly before makes no difference to how it ends. -/
theorem Discharged.after (h : Discharged u l₂ s) (h₁ : Discreet l₁) :
    Discharged u (l₁ ++ l₂) s := by
  have haccepted : accepted (l₁ ++ l₂) =
      accepted l₂ := by rw [accepted_append, h₁.1, List.nil_append]
  have hkeeps : (∀ m ∈ l₂, m.KeepsStatuses) → ∀ m ∈ l₁ ++ l₂, m.KeepsStatuses := fun h₂ m hm ↦
    (List.mem_append.1 hm).elim (h₁.2 m) (h₂ m)
  cases h with
  | told outcome hrun honce h₂ => exact .told outcome hrun (haccepted.trans honce) (hkeeps h₂)
  | left hnone hleft h₂ => exact .left (haccepted.trans hnone) hleft (hkeeps h₂)
  | givenUp outcome hrun hnone hleft hrecord =>
    exact .givenUp outcome hrun (haccepted.trans hnone) hleft (hrecord.append_left l₁)

/-- How a phase of a watch ends: the watch has come to its end, or it sleeps and has done nothing
yet that others could see. -/
inductive BreaksOff (u : Uid) (l : List Moment) (s : Scene) : Except EngineError Next → Prop where
  | finished (h : Discharged u l s) : BreaksOff u l s (.ok .finished)
  | sleep (wake : Nat) (phase : Phase) (h : Discreet l) : BreaksOff u l s (.ok (.sleep wake phase))

theorem BreaksOff.after {r : Except EngineError Next} (h : BreaksOff u l₂ s r) (h₁ : Discreet l₁) :
    BreaksOff u (l₁ ++ l₂) s r := by
  cases h with
  | finished h => exact .finished (h.after h₁)
  | sleep wake phase h => exact .sleep wake phase (h₁.append h)

theorem breaksOff_reportOutcome {time attempt pause : Nat} {r : Except EngineError Next}
    (hu : outcome.workflowInstanceId = u)
    (h : Amid R (Unharmed u) (reportOutcome outcome time attempt pause) s l r s') :
    BreaksOff u l s' r := by
  have hasks : Asks Call.isHarmless (deliver outcome) := asks_deliver nofun trivial
  rcases amid_bind h with ⟨e, h₁, -⟩ | ⟨l₁, l₂, delivered, t, rfl, hdeliver, h⟩
  · obtain ⟨_, he, -⟩ := amid_deliver hu h₁
    cases he
  have hkeeps : ∀ m ∈ l₁, m.KeepsStatuses := fun m hm ↦
    Moment.keepsStatuses_of_isHarmless (hasks.amid hdeliver m hm)
  obtain ⟨_, hdelivered, hcases⟩ := amid_deliver hu hdeliver
  obtain rfl := Except.ok.inj hdelivered
  split at h
  · next htrue =>
    obtain ⟨rfl, rfl, hrest⟩ := amid_pure h
    rw [List.append_nil]
    rcases hcases with ⟨-, honce⟩ | ⟨hnone, hleft⟩
    · exact .finished (.told outcome hu honce hkeeps)
    · exact .finished (.left hnone (released_stays (hleft htrue) hrest) hkeeps)
  · next hfalse =>
    have hnone : accepted l₁ = [] := by
      rcases hcases with ⟨htrue, -⟩ | ⟨hnone, -⟩
      · exact absurd htrue hfalse
      · exact hnone
    split at h
    · obtain ⟨rfl, rfl, -⟩ := amid_pure h
      rw [List.append_nil]
      exact .sleep _ _ ⟨hnone, hkeeps⟩
    · rcases amid_bind h with ⟨e, h₂, -⟩ | ⟨l₃, l₄, _, t₂, rfl, h₂, h⟩
      · obtain ⟨_, -, he⟩ := amid_attempt h₂
        cases he
      obtain ⟨o, hfail, -⟩ := amid_attempt h₂
      obtain ⟨rfl, rfl, hrest⟩ := amid_pure h
      rw [List.append_nil]
      have hmute : accepted l₃ = [] :=
        accepted_eq_nil ((asks_failRun (φ := Call.isMute) nofun fun _ _ hmute ↦ hmute).amid hfail)
      obtain ⟨hleft, hkeeps₃ | hrecord⟩ := amid_failRun hu (Accompanied.follow hfail hrest)
      · exact .finished (.after (.left hmute hleft hkeeps₃) ⟨hnone, hkeeps⟩)
      · exact .finished (.after (.givenUp outcome hu hmute hleft hrecord) ⟨hnone, hkeeps⟩)

/-! ## Looking -/

/-- Whether a call is one of those of a look at the functions that a run waits for. -/
def Call.looksAfter (u : Uid) (c : Call) : Prop := c = .store (.getRun u) ∨ ∃ f, c = .getFunction f

theorem Call.isMute_of_looksAfter {c : Call} (h : c.looksAfter u) : c.isMute := by
  rcases h with rfl | ⟨f, rfl⟩ <;> exact nofun

theorem discreet_of_looksAfter (h : ∀ m ∈ l, m.call.looksAfter u) : Discreet l := by
  refine ⟨accepted_eq_nil fun m hm ↦ Call.isMute_of_looksAfter (h m hm), fun m hm ↦ ?_⟩
  rcases h m hm with hlook | ⟨f, hlook⟩
  · exact Moment.keepsStatuses_of_isHarmless (hlook ▸ trivial)
  · obtain ⟨t, c, answer⟩ := m
    obtain rfl : c = .getFunction f := hlook
    exact fun _ ↦ rfl

theorem looksAfter_look (u : Uid) (functions : List Uid) :
    Asks (Call.looksAfter u) (look u functions) :=
  asks_look (.inl rfl) (fun f ↦ .inr ⟨f, rfl⟩) functions

theorem released_of_abandoned {functions : List Uid}
    (h : Amid R (Unharmed u) (look u functions) s l (.ok .abandoned) s') :
    s'.statusOf? u ≠ some .deployingFunctions := by
  rcases amid_bind h with ⟨e, -, he⟩ | ⟨l₁, l₂, q, t, rfl, hread, h⟩
  · cases he
  split at h
  · next hleft =>
    obtain ⟨t₁, -, hafter, hfound, -⟩ := amid_readRun hread
    refine released_stays ?_ (hafter.trans (amid_pure h).2.2)
    rw [statusOf?_of_run? (hfound q rfl)]
    exact fun hwaits ↦ hleft (Option.some.inj hwaits)
  · rcases amid_bind h with ⟨e, -, he⟩ | ⟨l₃, l₄, pending, t₁, rfl, -, h⟩
    · cases he
    · have hfound := Except.ok.inj (amid_pure h).2.1
      split at hfound
      · cases hfound
      · cases hfound

theorem breaksOff_lookUntil {setup : Setup} {functions : List Uid} {time deadline : Nat}
    {r : Except EngineError Next}
    (h : Amid R (Unharmed u) (setup.lookUntil u functions time deadline) s l r s') :
    BreaksOff u l s' r := by
  rcases amid_bind h with ⟨e, h₁, -⟩ | ⟨l₁, l₂, found, t, rfl, h₁, h⟩
  · obtain ⟨_, -, he⟩ := amid_attempt h₁
    cases he
  obtain ⟨found', hlook, hfound⟩ := amid_attempt h₁
  obtain rfl := Except.ok.inj hfound
  have hdiscreet : Discreet l₁ := discreet_of_looksAfter ((looksAfter_look u functions).amid hlook)
  rcases found with e | _ | _ | pending
  · exact (breaksOff_reportOutcome rfl h).after hdiscreet
  · exact (breaksOff_reportOutcome rfl h).after hdiscreet
  · obtain ⟨rfl, rfl, hrest⟩ := amid_pure h
    rw [List.append_nil]
    exact .finished (.left hdiscreet.1 (released_of_abandoned (Accompanied.follow hlook hrest))
      hdiscreet.2)
  · dsimp only [Setup.conclude] at h
    split at h
    · exact (breaksOff_reportOutcome rfl h).after hdiscreet
    · obtain ⟨rfl, rfl, -⟩ := amid_pure h
      rw [List.append_nil]
      exact .sleep _ _ hdiscreet

/-- **A phase of a watch over a run brings the watch to its end, or is discreet.** -/
theorem breaksOff_watch {setup : Setup} {time : Nat} {phase : Phase} {r : Except EngineError Next}
    (hphase : phase.isOf u) (h : Amid R (Unharmed u) (setup.watch u time phase) s l r s') :
    BreaksOff u l s' r := by
  cases phase with
  | begin functions => exact breaksOff_lookUntil h
  | wait functions nextLook deadline =>
    have h : Amid R (Unharmed u) (if nextLook ≤ time then setup.lookUntil u functions time deadline
        else setup.reportFirst (setup.tooLate u) time) s l r s' := h
    split at h
    · exact breaksOff_lookUntil h
    · exact breaksOff_reportOutcome rfl h
  | report outcome attempt pause => exact breaksOff_reportOutcome hphase h

/-! ## Calls of a watch -/

theorem asks_watch (setup : Setup) {time : Nat} {phase : Phase} (hphase : phase.isOf u) :
    Asks (Call.watchesOver u) (setup.watch u time phase) := by
  have hreport : ∀ {outcome : DeploymentOutcome} {time attempt pause},
      outcome.workflowInstanceId = u → Asks (Call.watchesOver u)
      (reportOutcome outcome time attempt pause) := fun hu ↦
    asks_reportOutcome (.inl nofun) (.inr (.inr (hu ▸ rfl))) (fun _ hc _ ↦ .inl hc) _ _ _
  have hlook : ∀ functions deadline,
      Asks (Call.watchesOver u) (setup.lookUntil u functions time deadline) := by
    intro functions deadline
    refine .bind (.attempt (asks_look (.inl trivial) (fun f ↦ .inr (.inl ⟨f, rfl⟩)) functions))
      fun found ↦ ?_
    rcases found with e | _ | _ | pending
    · exact hreport rfl
    · exact hreport rfl
    · exact .pure _
    · exact .ite (hreport rfl) (.pure _)
  cases phase with
  | begin functions => exact hlook _ _
  | wait functions nextLook deadline => exact .ite (hlook _ _) (hreport rfl)
  | report outcome attempt pause => exact hreport hphase

end Engine

end Orchestration
