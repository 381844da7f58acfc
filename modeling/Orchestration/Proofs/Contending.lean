import Orchestration.Proofs.Footprint
import Orchestration.Proofs.Turns
import Orchestration.Proofs.Verdicts

/-!
# Contenders for the end of a run

The end of a run may be wanted from many sides at once: operations end it, an operator stops it, and
a watch gives up on it. Each of them asks for a terminal status first, and goes on with its other
writes, without any further guard, only if the store has agreed. A watch asks for more: it ends a
run only if the run still waits for its functions.

The store agrees once. Whoever has been told so is the only one that writes to the run from then on,
so its end is carried out as if nobody else had wanted one (`one_verdict`). All others find the run
ended: they change nothing, and a stop is refused.
-/

namespace Orchestration

namespace Engine

variable {R : Rule} {setup : Setup} {s s' : Scene} {q : WorkflowInstance} {u : Uid}

/-! ## What is contended for -/

/-- Whoever wants a run to end. -/
inductive Contender where
  /-- An operation ends the run. -/
  | finish (status : RunStatus) (failure : Option Failure) (output : Option Json.Object)
  /-- An operator stops the run. -/
  | stop
  /-- A watch gives up on the run. -/
  | giveUp (outcome : DeploymentOutcome)
deriving DecidableEq, Repr, Inhabited

namespace Contender

/-- What a contender does about a run. -/
def action (setup : Setup) (u : Uid) : Contender → Action Unit
  | .finish status failure output => setup.terminate u status failure output
  | .stop => (Operation.stop u).action setup
  | .giveUp outcome => failRun { outcome with workflowInstanceId := u }

/-- The status that a contender asks for. -/
def status : Contender → RunStatus
  | .finish status _ _ => status
  | .stop => .stopped
  | .giveUp _ => .failedWithTerminalError

/-- The status that a contender expects the run to have. -/
def expected : Contender → Option RunStatus
  | .giveUp _ => some .deployingFunctions
  | _ => none

/-- Whether a contender may end a run that has not come to its end. -/
def MayEnd (c : Contender) (q : WorkflowInstance) : Prop := ∀ e ∈ c.expected, q.runStatus = e

/-- The reason that a contender gives. -/
def failure (q : WorkflowInstance) : Contender → Option Failure
  | .finish _ failure _ => failure
  | .stop => none
  | .giveUp outcome => some ⟨q.name, undelivered outcome⟩

/-- The output that a contender leaves. -/
def output : Contender → Option Json.Object
  | .finish _ _ output => output
  | _ => none

/-- The record of a run that a contender has ended. -/
def ended (c : Contender) (q : WorkflowInstance) (time : Instant) : WorkflowInstance :=
  endedRun q c.status (c.failure q) c.output time

/-- What a contender answers that finds the run in a terminal status. -/
def refusal (u : Uid) (status : RunStatus) : Contender → Except EngineError Unit
  | .stop => .error (.runFinished u status)
  | _ => .ok ()

/-- What a contender does once its status has been written. -/
def won (setup : Setup) (u : Uid) : Contender → Action Unit
  | .finish status failure output =>
    Action.now >>= fun time ↦ closing u time failure (finalOutput? status output) >>= fun r ↦
      reportToParent r status (failure.map Failure.text)
        ((finalOutput? status output).getD []) >>= fun _ ↦
        Action.spawn (.sweep setup.settings.retentionKeepDays setup.settings.retentionMaxCount)
  | .stop => Action.now >>= fun time ↦ Action.store (.setRunEndTime u time) >>= fun _ ↦
      state u >>= fun _ ↦ pure ()
  | .giveUp outcome => readRun u >>= fun r ↦ Action.now >>= fun time ↦
      Action.store (.setRunEndTime u time) >>= fun _ ↦
        Action.store (.recordRunError u r.name (undelivered outcome))

/-- What a contender does whose status has been refused. -/
def lost (u : Uid) : Contender → Action Unit
  | .stop => readRun u >>= fun r ↦ throw (.runFinished u r.runStatus)
  | _ => pure ()

theorem action_eq (c : Contender) (setup : Setup) (u : Uid) :
    c.action setup u = writeRunStatus u c.status c.expected >>= fun applied ↦
      if applied then c.won setup u else c.lost u := by
  cases c with
  | finish status failure output => exact terminate_eq u status failure output
  | stop =>
    simp only [action, Operation.action, Engine.stop, updateRunStatus, bind_assoc]
    refine congrArg (bind _) (funext fun applied ↦ ?_)
    cases applied with
    | false =>
      simp only [lost, Bool.false_eq_true, if_false, bind_assoc]
      rfl
    | true => simp only [won, setRunEndTime, if_true, bind_assoc]
  | giveUp outcome =>
    refine congrArg (bind _) (funext fun applied ↦ ?_)
    cases applied with
    | false => rfl
    | true =>
      simp only [won, setRunEndTime, if_true, bind_assoc]
      rfl

/-- The call with which a contender asks for its status. -/
abbrev asks (c : Contender) (u : Uid) : Call := .store (.updateRunStatus u c.status c.expected)

/-- What is left of a contender that has asked for its status. -/
def next (c : Contender) (setup : Setup) (u : Uid) (answer : Except EngineError Bool) :
    Rest (Except EngineError Unit) :=
  (Action.ofExcept answer >>= fun applied ↦
    (do if applied then announceRun u c.status
        return applied) >>= fun applied ↦ if applied then c.won setup u else c.lost u).run

theorem run_action (c : Contender) (setup : Setup) (u : Uid) :
    (c.action setup u).run =
      .call (c.asks u) (c.next setup u) := by
  rw [action_eq, writeRunStatus, bind_assoc]
  rfl

theorem next_refused (c : Contender) (setup : Setup) (u : Uid) :
    c.next setup u (.ok false) = (c.lost u).run := rfl

theorem plain_won (c : Contender) (setup : Setup) (u : Uid) : Plain (c.won setup u) := by
  cases c with
  | finish status failure output => exact (harmless_finishing setup u status failure output).plain
  | stop =>
    exact .bind ⟨trivial, fun _ ↦ trivial⟩ fun time ↦ .bind (.store trivial) fun _ ↦
      .bind (harmless_state u).plain fun _ ↦ .pure _
  | giveUp outcome =>
    exact .bind (harmless_readRun u).plain fun r ↦ .bind ⟨trivial, fun _ ↦ trivial⟩ fun time ↦
      .bind (.store trivial) fun _ ↦ .store trivial

theorem plain_lost (c : Contender) (u : Uid) : Plain (c.lost u) := by
  cases c with
  | stop => exact .bind (harmless_readRun u).plain fun _ ↦ .throw _
  | finish => exact .pure _
  | giveUp => exact .pure _

theorem plain_next (c : Contender) (setup : Setup) (u : Uid) (answer : Except EngineError Bool) :
    Asked Call.isPlain (c.next setup u answer) := by
  have haction : Plain (c.action setup u) := by
    rw [action_eq]
    exact .bind (plain_writeRunStatus _ _ _) fun _ ↦ .ite (c.plain_won setup u) (c.plain_lost u)
  rw [Plain, Asks, run_action] at haction
  exact haction.2 answer

end Contender

/-! ## A run that has come to its end -/

/-- A run has come to its end, and is in a status. -/
structure Decided (u : Uid) (status : RunStatus) (s : Scene) : Prop where
  runs : (s.tables.runs.map (·.uid)).Nodup
  there : ∃ p ∈ s.tables.runs, p.uid = u ∧ p.runStatus = status
  terminal : status.isTerminal = true

namespace Decided

variable {status : RunStatus}

theorem run? (h : Decided u status s) : ∃ p, s.tables.run? u = some p ∧ p.runStatus = status := by
  obtain ⟨p, hp, hu, hstatus⟩ := h.there
  exact ⟨p, (Store.find?_key_iff h.runs).2 ⟨hp, hu⟩, hstatus⟩

theorem congr (h : Decided u status s) (hruns : s'.tables.runs = s.tables.runs) :
    Decided u status s' := ⟨hruns ▸ h.runs, hruns ▸ h.there, h.terminal⟩

theorem onRun {α : Type} (h : Decided u status s) (v : Uid)
    {change : WorkflowInstance → α × WorkflowInstance}
    (hchange : ∀ p, (change p).2.uid = p.uid ∧
      (p.runStatus.isTerminal = true → (change p).2.runStatus = p.runStatus)) :
    Decided u status { s with tables := (s.tables.onRun v change).2 } := by
  cases hv : s.tables.run? v with
  | none =>
    rw [Store.Tables.onRun_of_none hv]
    exact h
  | some r =>
    rw [Store.Tables.onRun_of_some hv]
    obtain ⟨huid, hstatus⟩ := hchange r
    obtain ⟨hr, hrv⟩ := Store.Tables.mem_of_run? hv
    obtain ⟨p, hp, hpu, hpstatus⟩ := h.there
    refine ⟨?_, ?_, h.terminal⟩
    · show ((Store.overwrite WorkflowInstance.uid (change r).2 s.tables.runs).map _).Nodup
      rw [Store.map_key_overwrite]
      exact h.runs
    by_cases hk : p.uid = r.uid
    · obtain rfl := List.inj_on_of_nodup_map h.runs hp hr hk
      exact ⟨_, Store.mem_overwrite_self hp huid.symm, huid.trans hpu,
        (hstatus (hpstatus ▸ h.terminal)).trans hpstatus⟩
    · exact ⟨p, Store.mem_overwrite_of_ne hp fun hk' ↦ hk (hk'.trans huid), hpu, hpstatus⟩

theorem after {c : Call} (hc : c.isPlain) (answer : c.Answer) (h : Decided u status s) :
    Decided u status (s.after c answer) := by
  cases c with
  | store c =>
    cases c with
    | getRun | getStep | listSteps | findStep | listTopLevelRuns => exact h.congr rfl
    | updateRunStatus v status expected =>
      refine (h.onRun v fun p ↦ ?_).congr rfl
      unfold Store.Tables.withStatus
      split
      · exact ⟨rfl, fun _ ↦ rfl⟩
      · next hno => exact ⟨rfl, fun hp ↦ absurd (by simp [hp]) hno⟩
    | setRunStartTime v | setRunEndTime v | recordRunError v | setRunOutput v =>
      exact (h.onRun v fun p ↦ ⟨rfl, fun _ ↦ rfl⟩).congr rfl
    | insertRun | setHeldStep | takeHeldStep | applyStepResult | deleteRuns => exact hc.elim
    | updateStepStatus v | launchStep v | setStepStartTime v | setStepEndTime v | setSelectedCase v
    | decrementRetry v =>
      exact h.congr (runs_onStep v _)
  | publish channel payload =>
    refine h.congr ?_
    show (s.publish channel payload (Except.isOk answer)).tables.runs = _
    unfold Scene.publish
    split
    · rfl
    · rfl
  | getFunction | deployFunction | getWorkflow | getStepList | post | now | newUid | spawn =>
    exact h.congr rfl

theorem answer_updateRunStatus (h : Decided u status s) (status' : RunStatus)
    (expected : Option RunStatus) :
    s.tables.answer (.updateRunStatus u status' expected) = (.ok false, s.tables) := by
  obtain ⟨p, hp, rfl⟩ := h.run?
  have hput : s.tables.putRun p = s.tables := by
    rw [Store.Tables.mk.injEq]
    exact ⟨Store.Tables.overwrite_self h.runs (Store.Tables.mem_of_run? hp).1, rfl⟩
  show s.tables.onRun u (Store.Tables.withStatus status' expected) = _
  rw [Store.Tables.onRun_of_some hp, Store.Tables.withStatus, if_pos (by simp [h.terminal]), hput]

end Decided

/-! ## Whoever comes too late -/

section Late

variable {status : RunStatus}

theorem yields_readRun : Yields (Decided u status)
    (fun r ↦ ∃ p, r = .ok p ∧ p.runStatus = status) (readRun u).run := by
  intro s answer hs hadm
  obtain ⟨p, hp, hstatus⟩ := hs.run?
  obtain rfl : answer = .ok (some p) := hadm.trans (congrArg Except.ok hp)
  exact ⟨afterStore_of_isReading (c := .getRun u) rfl s, p, rfl, hstatus⟩

theorem Contender.yields_lost (c : Contender) :
    Yields (Decided u status) (· = c.refusal u status) (c.lost u).run := by
  cases c with
  | finish => exact rfl
  | giveUp => exact rfl
  | stop =>
    refine yields_readRun.andThen fun p hp ↦ ?_
    rw [hp]
    exact rfl

/-- Whoever asks for a status once the run has come to its end changes nothing. -/
theorem Contender.yields (c : Contender) :
    Yields (Decided u status) (· = c.refusal u status) (c.action setup u).run := by
  rw [run_action]
  intro s answer hs hadm
  have hans := hs.answer_updateRunStatus c.status c.expected
  obtain rfl : answer = .ok false := hadm.trans (congrArg Prod.fst hans)
  refine ⟨?_, c.next_refused setup u ▸ c.yields_lost⟩
  show Scene.afterStore _ _ = _
  rw [Scene.afterStore, hans]
  exact congrArg (fun made ↦ { s with made := made }) (List.append_nil _)

end Late

/-! ## Whoever comes first -/

section First

/-- A contender has yet to ask for its status, or has been told that the run is not in the one that
it expects. -/
inductive Contender.Awaits (setup : Setup) (q : WorkflowInstance) (c : Contender) :
    Rest (Except EngineError Unit) → Prop where
  | asking : c.Awaits setup q (c.action setup q.uid).run
  | refused (h : ¬c.MayEnd q) : c.Awaits setup q (.done (.ok ()))

/-- A contender that may not end a run before its end is a watch, which says nothing of it. -/
theorem Contender.refusal_of_not_mayEnd {c : Contender} (h : ¬c.MayEnd q) (status : RunStatus) :
    c.lost u = pure () ∧ c.refusal u status = .ok () := by
  cases c with
  | giveUp => exact ⟨rfl, rfl⟩
  | finish => exact absurd (fun _ he ↦ nomatch he) h
  | stop => exact absurd (fun _ he ↦ nomatch he) h

/-- The store agrees with a contender that may end the run, and turns down one that may not. -/
theorem Contender.answer (c : Contender) (ht : s.tables.Keyed) (hq : s.tables.run? q.uid = some q)
    (hnt : q.runStatus.isTerminal = false) :
    (c.MayEnd q ∧ s.tables.answer (.updateRunStatus q.uid c.status c.expected) =
      (.ok true, s.tables.putRun { q with runStatus := c.status })) ∨
    (¬c.MayEnd q ∧ s.tables.answer (.updateRunStatus q.uid c.status c.expected) =
      (.ok false, s.tables)) := by
  have hans : s.tables.answer (.updateRunStatus q.uid c.status c.expected) =
      (.ok (Store.Tables.withStatus c.status c.expected q).1,
        s.tables.putRun (Store.Tables.withStatus c.status c.expected q).2) :=
    Store.Tables.onRun_of_some hq _
  rw [hans, Store.Tables.withStatus, hnt, Bool.false_or, Contender.MayEnd]
  cases c.expected with
  | none => exact .inl ⟨fun _ he ↦ (by cases he), rfl⟩
  | some e =>
    by_cases he : q.runStatus = e
    · subst he
      refine .inl ⟨fun e he ↦ Option.some.inj he, ?_⟩
      rw [if_neg (by simp)]
    · refine .inr ⟨fun h ↦ he (h e rfl), ?_⟩
      rw [if_pos (by simpa using Ne.symm he), ht.putRun_self (Store.Tables.mem_of_run? hq).1]

theorem Contender.tables_of_runs (c : Contender) (ht : s.tables.Keyed)
    (hq : s.tables.run? q.uid = some q) (hnt : q.runStatus.isTerminal = false) (hc : c.MayEnd q)
    {r : Except EngineError Unit} (h : Runs R (c.action setup q.uid) s r s') :
    ∃ time, s'.tables = s.tables.putRun (c.ended q time) := by
  have hwrites : Writes s.tables (writeRunStatus q.uid c.status c.expected) true
      (s.tables.putRun { q with runStatus := c.status }) := by
    rcases c.answer ht hq hnt with ⟨-, hans⟩ | ⟨hno, -⟩
    · exact writes_writeRunStatus hans
    · exact absurd hc hno
  cases c with
  | finish status failure output =>
    obtain ⟨time, hreport⟩ := runs_terminate ht hq hnt h
    refine ⟨time, keeps_reportToParent_of
      (I := fun s₁ ↦ s₁.tables = s.tables.putRun (endedRun q status failure output time))
      (fun _ _ _ _ hs hpublish ↦ ?_) _ _ _ _ rfl hreport⟩
    obtain ⟨-, rfl⟩ := runs_publish.1 hpublish
    exact hs
  | stop =>
    rw [Contender.action_eq] at h
    obtain ⟨time, hrest⟩ := Runs.of_now (hwrites.next h)
    have hrest := (writes_setRunEndTime (p := { q with runStatus := .stopped }) ht hq rfl time).next
      hrest
    have hstill : Still (state q.uid >>= fun _ ↦ (pure () : Action Unit)) :=
      .bind (still_state _) fun _ ↦ .pure _
    exact ⟨time, by rw [hstill hrest]; rfl⟩
  | giveUp outcome =>
    rw [Contender.action_eq] at h
    have hfound : (s.tables.putRun { q with runStatus := .failedWithTerminalError }).run? q.uid =
        some { q with runStatus := .failedWithTerminalError } := ht.run?_putRun hq rfl
    have hwon := hwrites.next h
    rw [if_pos rfl, Contender.won] at hwon
    have hread : Finds _ (readRun q.uid) _ := finds_readRun hfound
    have hwon := hread.next hwon
    obtain ⟨time, hrest⟩ := Runs.of_now hwon
    have hrest := (writes_setRunEndTime (p := { q with runStatus := .failedWithTerminalError })
      ht hq rfl time).next hrest
    obtain ⟨-, rfl⟩ := (writes_recordRunError (p := { q with
      runStatus := .failedWithTerminalError, endTime := some time }) ht hq rfl
      ⟨q.name, undelivered outcome⟩) rfl hrest
    exact ⟨time, rfl⟩

/-- Contenders that have not yet been told that the run has ended. -/
structure Poised (setup : Setup) (q : WorkflowInstance) (cs : List Contender)
    (pool : List (Rest (Except EngineError Unit))) : Prop where
  length : pool.length = cs.length
  awaits : ∀ (i : Nat) (c : Contender) p, cs[i]? = some c → pool[i]? = some p → c.Awaits setup q p

variable {cs : List Contender} {pool : List (Rest (Except EngineError Unit))}

theorem poised_actions (setup : Setup) (q : WorkflowInstance) (cs : List Contender) :
    Poised setup q cs (cs.map fun c ↦ (c.action setup q.uid).run) where
  length := List.length_map ..
  awaits := by
    intro i c p hc hp
    rw [List.getElem?_map, hc] at hp
    obtain rfl := Option.some.inj hp
    exact .asking

theorem Poised.refuse {i : Nat} (h : Poised setup q cs pool)
    (hi : ∀ c, cs[i]? = some c → ¬c.MayEnd q) :
    Poised setup q cs (pool.set i (.done (.ok ()))) where
  length := List.length_set.trans h.length
  awaits := by
    intro j c p hc hp
    by_cases hij : i = j
    · subst hij
      obtain rfl : p = .done (.ok ()) := by
        simpa using (List.getElem?_eq_some_iff.1 hp).2.symm
      exact .refused (hi c hc)
    · rw [List.getElem?_set_ne hij] at hp
      exact h.awaits j c p hc hp

/-- Whatever is left of a contender changes nothing once the run has ended. -/
theorem Contender.Awaits.yields {c : Contender} {p : Rest (Except EngineError Unit)}
    (h : c.Awaits setup q p) (status : RunStatus) :
    Yields (Decided q.uid status) (· = c.refusal q.uid status) p := by
  cases h with
  | asking => exact c.yields
  | refused h => exact (Contender.refusal_of_not_mayEnd h status).2.symm

end First

/-! ## One verdict -/

/-- Whether a turn gives a run a status. -/
def Turn.moves (u : Uid) (e : Turn) : Bool :=
  match e.moment with
  | ⟨_, .store (.updateRunStatus v _ _), .ok true⟩ => v == u
  | _ => false

/-- The programs that have given a run a status, in order. -/
def movers (u : Uid) (log : List Turn) : List Nat := (log.filter (Turn.moves u)).map Turn.program

theorem Decided.not_moves {status : RunStatus} {e : Turn} (h : Decided u status e.moment.scene)
    (hadm : e.moment.scene.Admits e.moment.call e.moment.answer) : e.moves u = false := by
  obtain ⟨i, t, c, answer⟩ := e
  unfold Turn.moves
  split
  · next v status' expected hmoment =>
    cases hmoment
    refine beq_eq_false_iff_ne.2 ?_
    rintro rfl
    have hans : (Except.ok true : Except EngineError Bool) = .ok false :=
      hadm.trans (congrArg Prod.fst (h.answer_updateRunStatus status' expected))
    cases hans
  · rfl

theorem movers_cons (u : Uid) (e : Turn) (log : List Turn) :
    movers u (e :: log) = if e.moves u then e.program :: movers u log else movers u log := by
  unfold movers
  rw [List.filter_cons]
  split
  · rfl
  · rfl

theorem movers_eq_nil {log : List Turn} (h : ∀ e ∈ log, e.moves u = false) : movers u log = [] := by
  rw [movers, List.filter_eq_nil_iff.2 fun e he ↦ by simp [h e he], List.map_nil]

/-- Nobody ends a run: all that want it to end are watches, and it does not wait for its
functions. -/
structure NobodyEnds (cs : List Contender) (q : WorkflowInstance) (log : List Turn)
    (rs : List (Except EngineError Unit)) : Prop where
  nobody : ∀ c ∈ cs, ¬c.MayEnd q
  outcomes : ∀ r ∈ rs, r = .ok ()
  movers : movers q.uid log = []

/-- The contender at a place ends a run. It leads where it would have led alone, and all others
change nothing and are turned down. -/
structure OnlyEnds (R : Rule) (setup : Setup) (s : Scene) (q : WorkflowInstance)
    (cs : List Contender) (i : Nat) (c : Contender) (log : List Turn)
    (rs : List (Except EngineError Unit)) (s' : Scene) :
    Prop where
  winner : cs[i]? = some c ∧ c.MayEnd q
  movers : movers q.uid log = [i]
  alone : ∃ r, rs[i]? = some r ∧ Runs R (c.action setup q.uid) s r s'
  record : ∃ time, s'.tables = s.tables.putRun (c.ended q time)
  losers : ∀ j d, j ≠ i → cs[j]? = some d → rs[j]? = some (d.refusal q.uid c.status)
  conflict : ∀ j, j ≠ i → cs[j]? = some .stop →
    ∃ e : EngineError, rs[j]? = some (.error e) ∧ e.kind = .conflict
  still : ∀ e ∈ log, e.program ≠ i → e.Still

variable {cs : List Contender} {pool : List (Rest (Except EngineError Unit))} {log : List Turn}
variable {rs : List (Except EngineError Unit)}

/-- Where all contenders have come to their ends and the run has not, nobody ends it. -/
theorem Poised.nobodyEnds (h : Poised setup q cs (rs.map .done)) : NobodyEnds cs q [] rs := by
  have hall : ∀ (i : Nat) (c : Contender) r, cs[i]? = some c → rs[i]? = some r →
      ¬c.MayEnd q ∧ r = .ok () := by
    intro i c r hc hr
    have hp := h.awaits i c (.done r) hc (by rw [List.getElem?_map, hr]; rfl)
    generalize hk : Program.done r = k at hp
    cases hp with
    | asking =>
      rw [c.run_action] at hk
      cases hk
    | refused hno =>
      cases hk
      exact ⟨hno, rfl⟩
  have hlength : rs.length = cs.length := (List.length_map ..).symm.trans h.length
  refine ⟨fun c hc ↦ ?_, fun r hr ↦ ?_, rfl⟩
  · obtain ⟨i, hi, rfl⟩ := List.mem_iff_getElem.1 hc
    exact (hall i _ _ (List.getElem?_eq_getElem hi)
      (List.getElem?_eq_getElem (hlength.symm ▸ hi))).1
  · obtain ⟨i, hi, rfl⟩ := List.mem_iff_getElem.1 hr
    exact (hall i _ _ (List.getElem?_eq_getElem (hlength ▸ hi)) (List.getElem?_eq_getElem hi)).2

/-- A contender that is turned down at its turn leaves everything as it is. -/
theorem Contender.refused (c : Contender) (ht : s.tables.Keyed) (hq : s.tables.run? q.uid = some q)
    (hnt : q.runStatus.isTerminal = false) (hc : ¬c.MayEnd q) {answer : Except EngineError Bool}
    (hadm : s.Admits (c.asks q.uid) answer) :
    answer = .ok false ∧
      s.after (c.asks q.uid) answer = s := by
  rcases c.answer ht hq hnt with ⟨hmay, -⟩ | ⟨-, hans⟩
  · exact absurd hmay hc
  refine ⟨hadm.trans (congrArg Prod.fst hans), ?_⟩
  show Scene.afterStore _ _ = _
  rw [Scene.afterStore, hans]
  exact congrArg (fun made ↦ { s with made := made }) (List.append_nil _)

theorem Contender.decided (c : Contender) (ht : s.tables.Keyed) (hq : s.tables.run? q.uid = some q)
    (hnt : q.runStatus.isTerminal = false) (hc : c.MayEnd q) (hterm : c.status.isTerminal = true)
    {answer : Except EngineError Bool}
    (hadm : s.Admits (c.asks q.uid) answer) :
    answer = .ok true ∧ Decided q.uid c.status
      (s.after (c.asks q.uid) answer) := by
  rcases c.answer ht hq hnt with ⟨-, hans⟩ | ⟨hno, -⟩
  · have htables : (s.after (c.asks q.uid) answer).tables =
        s.tables.putRun { q with runStatus := c.status } := congrArg Prod.snd hans
    refine ⟨hadm.trans (congrArg Prod.fst hans), ?_, ?_, hterm⟩
    · rw [htables]
      exact (ht.putRun _).runs
    · rw [htables]
      exact ⟨_, Store.mem_overwrite_self (Store.Tables.mem_of_run? hq).1 rfl, rfl, rfl⟩
  · exact absurd hc hno

/-- Once the store has agreed with one of the contenders, that one ends the run. -/
theorem Poised.onlyEnds (h : Poised setup q cs pool) (ht : s.tables.Keyed)
    (hq : s.tables.run? q.uid = some q) (hnt : q.runStatus.isTerminal = false) {i : Nat}
    {c : Contender} (hc : cs[i]? = some c) (hmay : c.MayEnd q) (hi : i < pool.length)
    {answer : Except EngineError Bool} (hadm : s.Admits (c.asks q.uid) answer)
    (hR : R (c.asks q.uid) answer) (htrue : answer = .ok true)
    (hdecided : Decided q.uid c.status (s.after (c.asks q.uid) answer))
    (hrest : Interleaves R (pool.set i (c.next setup q.uid answer))
      (s.after (c.asks q.uid) answer) log (rs.map .done) s') :
    OnlyEnds R setup s q cs i c (⟨i, s, c.asks q.uid, answer⟩ :: log) rs s' := by
  have hlength : pool.length = rs.length := by
    simpa using hrest.length.symm
  obtain ⟨r, hr⟩ : ∃ r, rs[i]? = some r := ⟨_, List.getElem?_eq_getElem (hlength ▸ hi)⟩
  have hothers : ∀ j k, j ≠ i → (pool.set i (c.next setup q.uid answer))[j]? = some k →
      Yields (Decided q.uid c.status) (fun r ↦ ∀ d, cs[j]? = some d →
        r = d.refusal q.uid c.status) k := by
    intro j k hj hk
    rw [List.getElem?_set_ne (Ne.symm hj)] at hk
    have hlt : j < cs.length := h.length ▸ (List.getElem?_eq_some_iff.1 hk).1
    have hd : cs[j]? = some cs[j] := List.getElem?_eq_getElem hlt
    refine ((h.awaits j _ k hd hk).yields c.status).mono fun r hr d hd' ↦ ?_
    obtain rfl := Option.some.inj (hd.symm.trans hd')
    exact hr
  obtain ⟨hlead, hends, hturns⟩ := hrest.alone (fun _ _ answer hplain _ hs ↦ hs.after hplain answer)
    (List.getElem?_set_self hi) (c.plain_next setup q.uid answer) hdecided hothers
    (by rw [List.getElem?_map, hr]; rfl)
  have hrun : Runs R (c.action setup q.uid) s r s' := by
    rw [Runs, c.run_action]
    exact ⟨answer, hadm, hR, hlead⟩
  have hlosers : ∀ j d, j ≠ i → cs[j]? = some d → rs[j]? = some (d.refusal q.uid c.status) := by
    intro j d hj hd
    have hlt : j < rs.length := hlength ▸ h.length ▸ (List.getElem?_eq_some_iff.1 hd).1
    have hrj : rs[j]? = some rs[j] := List.getElem?_eq_getElem hlt
    rw [hrj, hends j rs[j] hj (by rw [List.getElem?_map, hrj]; rfl) d hd]
  exact
    { winner := ⟨hc, hmay⟩
      movers := by
        have hnone : movers q.uid log = [] :=
          movers_eq_nil fun e he ↦ (hturns e he).1.not_moves (hrest.admits e he)
        rw [movers_cons, hnone, htrue, if_pos (by simp [Turn.moves])]
      alone := ⟨r, hr, hrun⟩
      record := c.tables_of_runs ht hq hnt hmay hrun
      losers := hlosers
      conflict := fun j hj hstop ↦ ⟨_, hlosers j .stop hj hstop, rfl⟩
      still := by
        intro e he hne
        rcases List.mem_cons.1 he with rfl | he
        · exact absurd rfl hne
        · exact (hturns e he).2 hne }

/-- Of contenders of which none has ended the run yet, one ends it, or nobody does. -/
theorem Poised.decides (h : Poised setup q cs pool) (hterm : ∀ c ∈ cs, c.status.isTerminal = true)
    (ht : s.tables.Keyed) (hq : s.tables.run? q.uid = some q) (hnt : q.runStatus.isTerminal = false)
    (hrun : Interleaves R pool s log (rs.map .done) s') :
    (s' = s ∧ NobodyEnds cs q log rs) ∨ ∃ i c, OnlyEnds R setup s q cs i c log rs s' := by
  generalize hpool' : rs.map Program.done = pool' at hrun
  induction hrun with
  | none pool s =>
    subst hpool'
    exact .inl ⟨rfl, h.nobodyEnds⟩
  | @turn pool pool' i a next s s' answer log hi hadm hR hrest ih =>
    subst hpool'
    have hlt : i < cs.length := h.length ▸ (List.getElem?_eq_some_iff.1 hi).1
    obtain ⟨c, hc⟩ : ∃ c, cs[i]? = some c := ⟨_, List.getElem?_eq_getElem hlt⟩
    have hasks := h.awaits i c _ hc hi
    generalize hk : Program.call a next = k at hasks
    cases hasks with
    | refused => cases hk
    | asking =>
      rw [c.run_action] at hk
      cases hk
      by_cases hmay : c.MayEnd q
      · -- The first that the store agrees with is alone from now on.
        obtain ⟨htrue, hdecided⟩ :=
          c.decided ht hq hnt hmay (hterm c (List.mem_of_getElem? hc)) hadm
        exact .inr ⟨i, c, h.onlyEnds ht hq hnt hc hmay (h.length ▸ hlt) hadm hR
          htrue hdecided hrest⟩
      · obtain ⟨rfl, hsame⟩ := c.refused ht hq hnt hmay hadm
        have hnext : c.next setup q.uid (.ok false) = .done (.ok ()) := by
          rw [c.next_refused, (Contender.refusal_of_not_mayEnd hmay .stopped).1]
          rfl
        have hpoised : Poised setup q cs (pool.set i (c.next setup q.uid (.ok false))) :=
          hnext ▸ h.refuse fun d hd ↦ Option.some.inj (hc.symm.trans hd) ▸ hmay
        rw [hsame] at ih
        rcases ih hpoised ht hq rfl with ⟨hs', hnobody⟩ | ⟨j, d, honly⟩
        · exact .inl ⟨hs', hnobody.nobody, hnobody.outcomes, by
            rw [movers_cons, if_neg (by simp [Turn.moves]), hnobody.movers]⟩
        · refine .inr ⟨j, d, { honly with movers := ?_, still := fun e he hne ↦ ?_ }⟩
          · rw [movers_cons, if_neg (by simp [Turn.moves]), honly.movers]
          · rcases List.mem_cons.1 he with rfl | he
            · exact hsame
            · exact honly.still e he hne

/-- **Only one verdict is written.** However the calls of all that want a run to end come between
one another, and whatever the collaborators answer: either one of them ends the run, which is told
so as the only one and leads where it would have led alone, or nobody could have ended it. -/
theorem one_verdict (hterm : ∀ c ∈ cs, c.status.isTerminal = true) (ht : s.tables.Keyed)
    (hq : s.tables.run? q.uid = some q) (hnt : q.runStatus.isTerminal = false)
    (hrun : Interleaves R (cs.map fun c ↦ (c.action setup q.uid).run) s log (rs.map .done) s') :
    (s' = s ∧ NobodyEnds cs q log rs) ∨ ∃ i c, OnlyEnds R setup s q cs i c log rs s' :=
  (poised_actions setup q cs).decides hterm ht hq hnt hrun

/-- Four that want `waitingRun` to end. -/
def rivals : List Contender :=
  [.finish .timedOut (some ⟨"call", "too slow"⟩) none, .giveUp undeliveredOutcome, .stop,
    .finish .completed none (some [("done", .bool true)])]

/-- What happens when the watch comes first and the others come between its writes. -/
def rivalry : List Turn × List (Except EngineError Unit) × Scene :=
  ((Collaborators.delegating lazyFunction).interleave 0 [1, 0, 1, 2, 1, 1, 2, 3, 1, 1]
    (rivals.map fun c ↦ (c.action queueSetup waitingRun.uid).run) waitingScene).get
    (by decide +kernel)

/-- The watch has ended the run, and the stop is refused. -/
theorem one_verdict_of_rivalry :
    ((∀ c ∈ rivals, c.status.isTerminal = true) ∧ waitingScene.tables.Keyed ∧
      waitingScene.tables.run? waitingRun.uid = some waitingRun ∧
      waitingRun.runStatus.isTerminal = false ∧
      Interleaves anyAnswer (rivals.map fun c ↦ (c.action queueSetup waitingRun.uid).run)
        waitingScene rivalry.1 (rivalry.2.1.map .done) rivalry.2.2) ∧
    rivalry.2.1 = [.ok (), .ok (), .error (.runFinished waitingRun.uid .failedWithTerminalError),
      .ok ()] ∧
    movers waitingRun.uid rivalry.1 = [1] ∧
    ((rivalry.2.2 = waitingScene ∧ NobodyEnds rivals waitingRun rivalry.1 rivalry.2.1) ∨
      ∃ i c, OnlyEnds anyAnswer queueSetup waitingScene waitingRun rivals i c rivalry.1 rivalry.2.1
        rivalry.2.2) := by
  have hterm : ∀ c ∈ rivals, c.status.isTerminal = true := by decide
  have hreach : Reachable queueSetup anyAnswer waitingScene :=
    reachable_iff_history.2 ⟨_, history_get (fun _ _ _ _ _ ↦ trivial) _⟩
  have ht : waitingScene.tables.Keyed := (sound_of_reachable (guiding_nobody _) hreach).keyed
  have hq : waitingScene.tables.run? waitingRun.uid = some waitingRun := by decide +kernel
  have hnt : waitingRun.runStatus.isTerminal = false := by decide +kernel
  have hrun : Interleaves anyAnswer (rivals.map fun c ↦ (c.action queueSetup waitingRun.uid).run)
      waitingScene rivalry.1 (rivalry.2.1.map .done) rivalry.2.2 :=
    (Collaborators.interleaves_get _ _).weaken fun _ _ _ ↦ trivial
  exact ⟨⟨hterm, ht, hq, hnt, hrun⟩, by decide +kernel, by decide +kernel,
    one_verdict hterm ht hq hnt hrun⟩

end Engine

end Orchestration
