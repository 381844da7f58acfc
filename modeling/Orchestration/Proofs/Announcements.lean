import Orchestration.Proofs.OperationConduct
import Orchestration.Proofs.Recording

/-!
# The announcements replay to the records

Whoever listens to the announcements knows every status: the status of a run or of a step is the one
that was announced for it last, and as long as none has been announced it is new (`Replayed`). One
call keeps this, if the announcement that the call asks for is counted (`Replayed.after`): whatever
has its status from the call is announced with it, whatever else is found after the call has kept
its status, and what the call has put in is new and has never been announced, since nothing had its
identifier before.

What is announced is what is called for, in that order, because an operation that has written a
status announces it with its very next call (`Conducted.published`). A write that the records refuse
calls for no announcement (`announces?_isSome_iff`).
-/

namespace Orchestration

namespace RunNotification

/-- Whether the status of a run itself is announced. -/
def isOfRun (u : Uid) (n : RunNotification) : Bool := !n.isStepUpdate && n.workflowInstanceUid == u

/-- Whether the status of a step is announced. -/
def isOfStep (k : Uid) (n : RunNotification) : Bool :=
  n.isStepUpdate && n.workflowStepInstanceUid == some k

/-- Whether the status of whatever has an identifier is announced. -/
def isAbout (v : Uid) (n : RunNotification) : Bool := n.isOfRun v || n.isOfStep v

end RunNotification

namespace Engine

variable {R : Rule} {setup : Setup} {o : Operation} {s₀ s s' : Scene} {log : List Moment}
  {past : List Done} {ns : List RunNotification}

/-! ## Replaying announcements -/

/-- The announcements that the calls of a log call for. -/
def announcements (log : List Moment) : List RunNotification := log.filterMap Moment.announces?

theorem announcements_append (l₁ l₂ : List Moment) :
    announcements (l₁ ++ l₂) = announcements l₁ ++ announcements l₂ := List.filterMap_append

theorem announcements_concat (log : List Moment) (m : Moment) :
    announcements (log ++ [m]) = announcements log ++ m.announces?.toList := by
  rw [announcements_append]
  cases h : m.announces? with
  | none => simp [announcements, h]
  | some n => simp [announcements, h]

/-- The status that was announced last of those announcements that count, or new if none was. -/
def lastStatus (counts : RunNotification → Bool) (ns : List RunNotification) : RunStatus :=
  (ns.filter counts).getLast?.elim .new (·.status)

section LastStatus

variable {counts : RunNotification → Bool} {n : RunNotification}

theorem lastStatus_concat (h : counts n = true) : lastStatus counts (ns ++ [n]) = n.status := by
  rw [lastStatus, List.filter_append, List.filter_singleton, h]
  simp

theorem lastStatus_concat_of_not (h : counts n = false) :
    lastStatus counts (ns ++ [n]) = lastStatus counts ns := by
  rw [lastStatus, List.filter_append, List.filter_singleton, h]
  simp [lastStatus]

theorem lastStatus_of_forall_not (h : ∀ n ∈ ns, counts n = false) :
    lastStatus counts ns = .new := by
  rw [lastStatus, List.filter_eq_nil_iff.2 fun n hn ↦ by simp [h n hn]]
  rfl

end LastStatus

/-- The records have the statuses that were announced last. -/
structure Replayed (ns : List RunNotification) (s : Scene) : Prop where
  runs : ∀ q ∈ s.tables.runs, q.runStatus = lastStatus (·.isOfRun q.uid) ns
  steps : ∀ x ∈ s.tables.steps, x.runStatus = lastStatus (·.isOfStep x.uid) ns

/-- No announcement has been about whatever gets an identifier now. -/
def Unannounced (ns : List RunNotification) (v : Uid) : Prop := ∀ n ∈ ns, n.isAbout v = false

section Step

variable {c : Call} {a : c.Answer} {n : RunNotification}

theorem run_or_step_of_announces {m : Moment} (h : m.announces? = some n) :
    (∃ run status, n = runNotification run status) ∨ ∃ x status, n = stepNotification x status := by
  obtain ⟨t, c, a⟩ := m
  have hstep : ∀ {u status}, (t.tables.step? u).map (stepNotification · status) = some n →
      ∃ x status, n = stepNotification x status := by
    intro u status h
    obtain ⟨x, -, rfl⟩ := Option.map_eq_some_iff.1 h
    exact ⟨x, status, rfl⟩
  cases c with
  | store c =>
    cases c with
    | updateRunStatus u status _ =>
      rcases a with e | _ | _
      · cases h
      · cases h
      · exact .inl ⟨u, status, (Option.some.inj h).symm⟩
    | launchStep | updateStepStatus =>
      cases a with
      | error => cases h
      | ok => exact .inr (hstep h)
    | applyStepResult =>
      rcases a with e | _ | _
      · cases h
      · cases h
      · exact .inr (hstep h)
    | _ => cases h
  | _ => cases h

/-- Where the announcement that a call asks for is counted, what does not concern a record leaves
its last status. -/
private theorem lastStatus_kept {counts : RunNotification → Bool} {m : Moment}
    (h : ∀ n, m.announces? = some n → counts n = false) :
    lastStatus counts (ns ++ m.announces?.toList) = lastStatus counts ns := by
  cases hn : m.announces? with
  | none => rw [Option.toList_none, List.append_nil]
  | some n => exact lastStatus_concat_of_not (h n hn)

/-- **A call leaves the statuses that are announced last**, if what it puts in is new and has never
been announced. -/
theorem Replayed.after (h : Replayed ns s) (hk : s.tables.Keyed) (ha : s.Admits c a)
    (hnew : ∀ new steps, c = .store (.insertRun new steps) →
      new.runStatus = .new ∧ Unannounced ns new.uid ∧
        ∀ x ∈ steps, x.runStatus = .new ∧ Unannounced ns x.uid) :
    Replayed (ns ++ (Moment.announces? ⟨s, c, a⟩).toList) (s.after c a) := by
  constructor
  · intro p hp
    cases run_after hk ha hp with
    | kept q hq hsame hstatus hquiet =>
      rw [lastStatus_kept, hstatus, h.runs q hq, hsame.uid]
      intro n hn
      rcases run_or_step_of_announces hn with ⟨run, status, rfl⟩ | ⟨x, status, rfl⟩
      · have hne : run ≠ p.uid := by
          rintro rfl
          exact hquiet status hn
        simpa [RunNotification.isOfRun, runNotification] using hne
      · rfl
    | written q status expected hq hsame hcall hannounced hexpected hstatus =>
      rw [hannounced, Option.toList_some, lastStatus_concat, hstatus]
      · rfl
      · simp [RunNotification.isOfRun, runNotification]
    | made steps hcall =>
      obtain rfl : c = _ := hcall
      obtain ⟨hstatus, hun, -⟩ := hnew p steps rfl
      have hnone : Moment.announces? ⟨s, _, a⟩ = none := rfl
      rw [hnone, Option.toList_none, List.append_nil, hstatus, lastStatus_of_forall_not]
      exact fun n hn ↦ (Bool.or_eq_false_iff.1 (hun n hn)).1
  · intro y hy
    cases step_after hk ha hy with
    | kept x hx hsame hstatus hquiet =>
      rw [lastStatus_kept, hstatus, h.steps x hx, hsame.uid]
      intro n hn
      rcases run_or_step_of_announces hn with ⟨run, status, rfl⟩ | ⟨x', status, rfl⟩
      · rfl
      · simpa [RunNotification.isOfStep, stepNotification] using hquiet x' status hn
    | written x hx hsame hannounced =>
      have hu := (Store.Tables.mem_of_step? hx).2
      rw [hannounced, Option.toList_some, lastStatus_concat]
      · rfl
      · simp [RunNotification.isOfStep, stepNotification, hu]
    | made new steps hcall hmem =>
      obtain rfl : c = _ := hcall
      obtain ⟨hstatus, hun⟩ := (hnew new steps rfl).2.2 y hmem
      have hnone : Moment.announces? ⟨s, _, a⟩ = none := rfl
      rw [hnone, Option.toList_none, List.append_nil, hstatus, lastStatus_of_forall_not]
      exact fun n hn ↦ (Bool.or_eq_false_iff.1 (hun n hn)).2

end Step

/-! ## Which writes are announced -/

/-- Whether the records let a call write a status: the run is there, has not come to its end and is
in the status that is expected; the step is there and, for a result, is in the attempt that it
answers and can count one more. -/
def Accepts (t : Store.Tables) : Call → Prop
  | .store (.updateRunStatus u _ expected) =>
    ∃ q, t.run? u = some q ∧ q.runStatus.isTerminal = false ∧ ∀ e ∈ expected, q.runStatus = e
  | .store (.applyStepResult k update) =>
    ∃ x, t.step? k = some x ∧ x.runStatus = .running ∧ x.runCount = update.expectedRunCount ∧
      x.runCount ≠ greatestInt
  | .store (.launchStep k ..) | .store (.updateStepStatus k _) => ∃ x, t.step? k = some x
  | _ => False

private theorem isSome_of_moved {u : Uid} {status : RunStatus} {expected : Option RunStatus}
    {a : Except EngineError Bool} :
    (Moment.announces? ⟨s, .store (.updateRunStatus u status expected), a⟩).isSome = true ↔
      a = .ok true := by
  rcases a with e | _ | _ <;> simp [Moment.announces?]

private theorem isSome_of_applied {k : Uid} {update : Store.StepUpdate}
    {a : Except EngineError Bool} :
    (Moment.announces? ⟨s, .store (.applyStepResult k update), a⟩).isSome = true ↔
      a = .ok true ∧ ∃ x, s.tables.step? k = some x := by
  rcases a with e | _ | _ <;> simp [Moment.announces?, Option.isSome_iff_exists]

private theorem isSome_of_launched {k : Uid} {input : Json.Object} {time : Instant}
    {a : Except EngineError Unit} :
    (Moment.announces? ⟨s, .store (.launchStep k input time), a⟩).isSome = true ↔
      a = .ok () ∧ ∃ x, s.tables.step? k = some x := by
  rcases a with e | _ <;> simp [Moment.announces?, Option.isSome_iff_exists]

private theorem isSome_of_set {k : Uid} {status : RunStatus} {a : Except EngineError Unit} :
    (Moment.announces? ⟨s, .store (.updateStepStatus k status), a⟩).isSome = true ↔
      a = .ok () ∧ ∃ x, s.tables.step? k = some x := by
  rcases a with e | _ <;> simp [Moment.announces?, Option.isSome_iff_exists]

/-- **A status is announced exactly if the records let it be written.** -/
theorem announces?_isSome_iff {m : Moment} (ha : m.scene.Admits m.call m.answer) :
    m.announces?.isSome = true ↔ Accepts m.scene.tables m.call := by
  obtain ⟨s, c, a⟩ := m
  cases c with
  | store c =>
    obtain rfl : a = (s.tables.answer c).1 := ha
    cases c with
    | updateRunStatus u status expected =>
      rw [isSome_of_moved]
      constructor
      · intro h
        obtain ⟨q, hq, hlive, hexpected, -⟩ := Store.Tables.answer_moved h
        exact ⟨q, hq, hlive, hexpected⟩
      · rintro ⟨q, hq, hlive, hexpected⟩
        have hyes : expected.any (· ≠ q.runStatus) = false := by
          cases expected with
          | none => rfl
          | some e => simp [hexpected e rfl]
        refine (congrArg Prod.fst (Store.Tables.onRun_of_some hq _)).trans ?_
        rw [Store.Tables.withStatus, hlive, hyes]
        rfl
    | applyStepResult k update =>
      rw [isSome_of_applied]
      constructor
      · rintro ⟨h, -⟩
        obtain ⟨x, hx, hrunning, hcount, -⟩ := Store.Tables.answer_accepted h
        refine ⟨x, hx, hrunning, hcount, fun hfull ↦ ?_⟩
        have hbeyond : s.tables.isBeyondCount k update = true := by
          rw [Store.Tables.isBeyondCount, hx]
          simp [Store.Tables.expects, hrunning, ← hcount, hfull]
        cases (congrArg Prod.fst (Store.Tables.answer_of_isBeyondCount hbeyond)).symm.trans h
      · rintro ⟨x, hx, hrunning, hcount, hroom⟩
        have hwithin : s.tables.isBeyondCount k update = false := by
          simp [Store.Tables.isBeyondCount, hx, hroom]
        refine ⟨?_, x, hx⟩
        rw [Store.Tables.answer_applyStepResult hwithin, Store.Tables.onStep_of_some hx,
          Store.Tables.withResult, if_neg (by simp [hrunning, hcount])]
    | launchStep k input time =>
      rw [isSome_of_launched]
      refine ⟨And.right, fun h ↦ ⟨?_, h⟩⟩
      obtain ⟨x, hx⟩ := h
      exact congrArg Prod.fst (Store.Tables.onStep_of_some hx _)
    | updateStepStatus k status =>
      rw [isSome_of_set]
      refine ⟨And.right, fun h ↦ ⟨?_, h⟩⟩
      obtain ⟨x, hx⟩ := h
      exact congrArg Prod.fst (Store.Tables.onStep_of_some hx _)
    | _ => constructor <;> intro h <;> cases h
  | _ => constructor <;> intro h <;> cases h

/-! ## One operation -/

/-- **What is announced is what is called for**, but for what is still to be announced. -/
theorem Conducted.published (h : Conducted setup o s₀ log s)
    (htaken : ∀ m ∈ log, ∀ payload, m.offered? .notifications = some payload →
      m.published? .notifications = some payload) :
    (announcements log).map (·.toJson.text) =
      log.filterMap (·.published? .notifications) ++ (due log).toList.map (·.toJson.text) := by
  induction h with
  | begin => rfl
  | @call log s c a _ _ proper ih =>
    have ih := ih fun m hm ↦ htaken m (List.mem_append_left _ hm)
    have hlast := htaken ⟨s, c, a⟩ (List.mem_append_right _ (List.mem_singleton_self _))
    rw [announcements_concat, due_concat, List.map_append, List.filterMap_append, ih]
    cases hdue : due log with
    | some n =>
      -- The announcement that was due is made, and nothing else is due.
      obtain rfl := (proper_of_due hdue).1 proper
      have hpublished : Moment.published? .notifications ⟨s, _, a⟩ = some n.toJson.text :=
        hlast _ rfl
      have hnone : Moment.announces? ⟨s, .publish .notifications n.toJson.text, a⟩ = none := rfl
      rw [hnone]
      simp [hpublished]
    | none =>
      have hquiet : Moment.published? .notifications ⟨s, c, a⟩ = none := by
        rw [Option.eq_none_iff_forall_ne_some]
        intro payload hpub
        obtain rfl : c = _ := Moment.call_of_offered (Moment.offered?_of_published hpub)
        exact (proper_of_none hdue).1 proper
      simp [hquiet]

theorem mem_usedIn_of_announces {c : Call} {a : c.Answer} {n : RunNotification} {v : Uid}
    (ha : s.Admits c a) (h : Moment.announces? ⟨s, c, a⟩ = some n) (hv : n.isAbout v = true) :
    v ∈ usedIn s.tables := by
  have haccepts := (announces?_isSome_iff (m := ⟨s, c, a⟩) ha).1 (Option.isSome_of_eq_some h)
  rcases run_or_step_of_announces h with ⟨run, status, rfl⟩ | ⟨x, status, rfl⟩
  · obtain rfl : run = v := by simpa [RunNotification.isAbout, RunNotification.isOfRun,
      RunNotification.isOfStep, runNotification] using hv
    obtain ⟨expected, hcall⟩ := call_of_announces_run h
    obtain rfl : c = _ := hcall
    obtain ⟨q, hq, -⟩ := haccepts
    obtain ⟨hqm, rfl⟩ := Store.Tables.mem_of_run? hq
    exact List.mem_append_left _ (List.mem_map_of_mem hqm)
  · obtain rfl : x.uid = v := by simpa [RunNotification.isAbout, RunNotification.isOfRun,
      RunNotification.isOfStep, stepNotification] using hv
    have hasks := asksStatus_of_announces h
    have hfound : ∀ y, s.tables.step? x.uid = some y → x.uid ∈ usedIn s.tables := by
      intro y hy
      obtain ⟨hym, hu⟩ := Store.Tables.mem_of_step? hy
      exact List.mem_append_right _ (hu ▸ List.mem_map_of_mem hym)
    cases c with
    | store c =>
      cases c with
      | launchStep k | updateStepStatus k =>
        obtain rfl : k = x.uid := hasks
        obtain ⟨y, hy⟩ := haccepts
        exact hfound y hy
      | applyStepResult k =>
        obtain rfl : k = x.uid := hasks
        obtain ⟨y, hy, -⟩ := haccepts
        exact hfound y hy
      | _ => exact hasks.elim
    | _ => exact hasks.elim

theorem usedIn_mono (h : Grows s s') : usedIn s.tables ⊆ usedIn s'.tables := by
  intro v hv
  rcases List.mem_append.1 hv with hv | hv
  · obtain ⟨q, hq, rfl⟩ := List.mem_map.1 hv
    obtain ⟨p, hp, hu⟩ := h.runs q hq
    exact List.mem_append_left _ (hu ▸ List.mem_map_of_mem hp)
  · obtain ⟨x, hx, rfl⟩ := List.mem_map.1 hv
    obtain ⟨y, hy, hsame⟩ := h.steps x hx
    exact List.mem_append_right _ (hsame.uid ▸ List.mem_map_of_mem hy)

theorem usedIn_subset (h : Grounded s) : usedIn s.tables ⊆ s.issued := by
  intro v hv
  rcases List.mem_append.1 hv with hv | hv
  · obtain ⟨q, hq, rfl⟩ := List.mem_map.1 hv
    exact h.runsIssued q hq
  · obtain ⟨x, hx, rfl⟩ := List.mem_map.1 hv
    exact h.stepsIssued x hx

theorem Unannounced.append {ms : List RunNotification} {v : Uid} (hns : Unannounced ns v)
    (hms : Unannounced ms v) : Unannounced (ns ++ ms) v :=
  fun n hn ↦ (List.mem_append.1 hn).elim (hns n) (hms n)

/-- What has been replayed before an operation is replayed after each of its calls. -/
theorem Conducted.replayed (h : Conducted setup o s₀ log s) (hs : Grounded s₀)
    (h₀ : Replayed ns s₀) (hknown : ∀ v, v ∉ s₀.issued → Unannounced ns v) :
    Replayed (ns ++ announcements log) s ∧
      ∀ v, v ∉ usedIn s.tables → Unannounced (announcements log) v := by
  induction h with
  | begin => exact ⟨(List.append_nil ns).symm ▸ h₀, fun _ _ _ hn ↦ nomatch hn⟩
  | @call log s c a before admitted proper ih =>
    obtain ⟨hreplayed, hused⟩ := ih
    have hground := before.grounded hs
    have hgrows := (proper.after hground a).2
    rw [announcements_concat]
    constructor
    · rw [← List.append_assoc]
      refine hreplayed.after hground.keyed admitted fun new steps hcall ↦ ?_
      subst hcall
      have hfounds : Founds o s₀ s new steps := proper.mayAsk
      have hun : ∀ {v}, ToBeUsed s₀ s v → Unannounced (ns ++ announcements log) v :=
        fun hv ↦ (hknown _ hv.fresh).append (hused _ hv.unused)
      exact ⟨hfounds.status, hun hfounds.uid,
        fun x hx ↦ ⟨hfounds.stepStatus x hx, hun (hfounds.stepUids x hx)⟩⟩
    · intro v hv
      have hv := mt (@usedIn_mono s _ hgrows v) hv
      refine (hused v hv).append fun n hn ↦ ?_
      rw [Option.mem_toList] at hn
      exact Bool.eq_false_iff.2 fun habout ↦ hv (mem_usedIn_of_announces admitted hn habout)

/-! ## Removing runs -/

/-- What a scene has left of another: nothing has been put in and nothing changed. -/
structure LeftOf (s s' : Scene) : Prop where
  issued : s'.issued = s.issued
  made : s'.made = s.made
  runs : s'.tables.runs ⊆ s.tables.runs
  steps : s'.tables.steps ⊆ s.tables.steps

theorem keeps_leftOf_deleteOldRuns (keepDays : Int) (maxCount : Nat) :
    Keeps R (LeftOf s) (deleteOldRuns keepDays maxCount) := by
  refine .bind (Still.store (fun _ ↦ rfl) rfl).keeps fun runs ↦
    .bind Still.now.keeps fun time ↦ .ite (Still.pure _).keeps ?_
  refine .store fun t ht _ ↦ ⟨ht.issued, (List.append_nil _).trans ht.made, fun q hq ↦ ht.runs ?_,
    fun x hx ↦ ht.steps ?_⟩
  · exact (List.mem_filter.1 hq).1
  · exact (List.mem_filter.1 hx).1

/-- Whether a call is one of those that remove old runs. -/
def Call.isOfSweep : Call → Bool
  | .store .listTopLevelRuns | .now | .store (.deleteRuns _) => true
  | _ => false

theorem makes_deleteOldRuns (keepDays : Int) (maxCount : Nat) :
    Makes (fun c ↦ c.isOfSweep = true) (deleteOldRuns keepDays maxCount) :=
  .bind (.store rfl) fun _ ↦ .bind (.now rfl) fun _ ↦ .ite (.pure _) (.store rfl)

/-- **Whoever removes old runs leaves the others as they are**, and does nothing else. -/
theorem logs_sweep {keepDays : Int} {maxCount : Nat} {r : Except EngineError Unit}
    (h : Logs R (Operation.action setup (.sweep keepDays maxCount)) s log r s') :
    LeftOf s s' ∧ ∀ m ∈ log, m.call.isOfSweep = true := by
  have hmakes : Makes (fun c ↦ c.isOfSweep = true)
      (Operation.action setup (.sweep keepDays maxCount)) :=
    .bind (makes_deleteOldRuns keepDays maxCount) fun _ ↦ .pure _
  have hkeeps : Keeps R (LeftOf s) (Operation.action setup (.sweep keepDays maxCount)) :=
    .bind (keeps_leftOf_deleteOldRuns keepDays maxCount) fun _ ↦ (Still.pure _).keeps
  exact ⟨hkeeps ⟨rfl, rfl, List.Subset.refl _, List.Subset.refl _⟩ h.runs, hmakes h⟩

theorem quiet_of_isOfSweep {m : Moment} (h : m.call.isOfSweep = true) :
    m.announces? = none ∧ m.published? .notifications = none := by
  obtain ⟨t, c, a⟩ := m
  cases c with
  | store c =>
    cases c with
    | listTopLevelRuns | deleteRuns => exact ⟨rfl, rfl⟩
    | _ => cases h
  | now => exact ⟨rfl, rfl⟩
  | _ => cases h

theorem Replayed.leftOf (h : Replayed ns s) (hleft : LeftOf s s') : Replayed ns s' :=
  ⟨fun q hq ↦ h.runs q (hleft.runs hq), fun x hx ↦ h.steps x (hleft.steps hx)⟩

/-! ## Histories -/

/-- What the announcements of a history tell. -/
structure Reported (past : List Done) (s : Scene) : Prop where
  published : (announcements (logOf past)).map (·.toJson.text) =
    (logOf past).filterMap (·.published? .notifications)
  replayed : Replayed (announcements (logOf past)) s
  known : ∀ v, v ∉ s.issued → Unannounced (announcements (logOf past)) v

theorem Reported.more (h : Reported past s) (hs : Grounded s) {d : Done}
    (htaken : ∀ payload a, R (.publish .notifications payload) a → Except.isOk a = true)
    (hlogs : Logs R (d.operation.action setup) s d.log d.outcome s') :
    Reported (past ++ [d]) s' := by
  by_cases hsweep : ∃ keepDays maxCount, d.operation = .sweep keepDays maxCount
  · obtain ⟨keepDays, maxCount, ho⟩ := hsweep
    rw [ho] at hlogs
    obtain ⟨hleft, hmakes⟩ := logs_sweep hlogs
    have hnone : announcements d.log = [] :=
      List.filterMap_eq_nil_iff.2 fun m hm ↦ (quiet_of_isOfSweep (hmakes m hm)).1
    have hsilent : d.log.filterMap (·.published? .notifications) = [] :=
      List.filterMap_eq_nil_iff.2 fun m hm ↦ (quiet_of_isOfSweep (hmakes m hm)).2
    have hlog : announcements (logOf (past ++ [d])) = announcements (logOf past) := by
      rw [logOf_concat, announcements_append, hnone, List.append_nil]
    refine ⟨?_, hlog ▸ h.replayed.leftOf hleft, fun v hv ↦ hlog ▸ h.known v (hleft.issued ▸ hv)⟩
    rw [hlog, logOf_concat, List.filterMap_append, hsilent, List.append_nil]
    exact h.published
  · have hrest := conducted_of_logs hs (fun keepDays maxCount ho ↦ hsweep ⟨keepDays, maxCount, ho⟩)
      hlogs
    obtain ⟨hreplayed, hused⟩ := hrest.conducted.replayed hs h.replayed h.known
    have hpublished := hrest.conducted.published fun m hm payload ↦
      Moment.published?_of_offered htaken (hlogs.obeys m hm)
    rw [hrest.quiet, Option.toList_none, List.map_nil, List.append_nil] at hpublished
    constructor
    · rw [logOf_concat, announcements_append, List.map_append, List.filterMap_append, h.published,
        hpublished]
    · rw [logOf_concat, announcements_append]
      exact hreplayed
    · intro v hv
      rw [logOf_concat, announcements_append]
      refine (h.known v fun hi ↦ hv ((hrest.conducted.grows hs).issued hi)).append
        (hused v fun hu ↦ ?_)
      exact hv (usedIn_subset hrest.grounded hu)

theorem History.reported (h : History setup R past s)
    (htaken : ∀ payload a, R (.publish .notifications payload) a → Except.isOk a = true) :
    Reported past s := by
  induction h with
  | empty =>
    exact ⟨rfl, ⟨fun q hq ↦ (nomatch hq), fun x hx ↦ nomatch hx⟩, fun v _ n hn ↦ nomatch hn⟩
  | more d before hlogs _ ih =>
    exact ih.more (before.sound (guiding_nobody R)).standing.grounded htaken hlogs

theorem History.admits (h : History setup R past s) :
    ∀ m ∈ logOf past, m.scene.Admits m.call m.answer := by
  induction h with
  | empty => exact fun m hm ↦ nomatch hm
  | more d _ hlogs _ ih =>
    rw [logOf_concat]
    exact fun m hm ↦ (List.mem_append.1 hm).elim (ih m) (hlogs.admits m)

/-- **The notifications replay to the records.** Where every message on the channel of the
notifications is taken, what has been published there are the announcements of all statuses that
have been written, one for each and in this order; every run and every step that is recorded is in
the status that was announced for it last, or is new if none was; and a status that the records do
not let be written is not announced. -/
theorem notifications_replay
    (htaken : ∀ payload a, R (.publish .notifications payload) a → Except.isOk a = true)
    (h : History setup R past s) :
    (logOf past).filterMap (·.published? .notifications) =
        (announcements (logOf past)).map (·.toJson.text) ∧
      (∀ m ∈ logOf past, m.announces?.isSome = true ↔ Accepts m.scene.tables m.call) ∧
      (∀ q ∈ s.tables.runs,
        q.runStatus = lastStatus (·.isOfRun q.uid) (announcements (logOf past))) ∧
      ∀ x ∈ s.tables.steps,
        x.runStatus = lastStatus (·.isOfStep x.uid) (announcements (logOf past)) := by
  have hreported := h.reported htaken
  exact ⟨hreported.published.symm, fun m hm ↦ announces?_isSome_iff (h.admits m hm),
    hreported.replayed.runs, hreported.replayed.steps⟩

/-- A run of `callThenLoop` is started, gets the same result twice, is stopped, and gets a result
that comes too late. -/
def toldHistory : List Done × Scene :=
  (recordAll queueSetup
    ([.start (.ofNat 1) [] none none, .result firstAnswer, .result firstAnswer,
      .stop (World.nthUid 0), .pause (World.nthUid 0)].map fun o ↦ (willing, o)) [] {}).get
        (by decide +kernel)

theorem notifications_replay_of_told :
    (∀ payload a, noFailure (.publish .notifications payload) a → Except.isOk a = true) ∧
    History queueSetup noFailure toldHistory.1 toldHistory.2 ∧
    (announcements (logOf toldHistory.1)).map (fun n ↦ (n.isStepUpdate, n.status)) =
      [(false, .running), (true, .running), (true, .completed), (true, .running),
        (false, .stopped)] ∧
    toldHistory.2.tables.runs.map (·.runStatus) = [.stopped] ∧
    toldHistory.2.tables.steps.map (·.runStatus) = [.completed, .running] ∧
    ((logOf toldHistory.1).filterMap (·.published? .notifications) =
        (announcements (logOf toldHistory.1)).map (·.toJson.text) ∧
      (∀ m ∈ logOf toldHistory.1, m.announces?.isSome = true ↔ Accepts m.scene.tables m.call) ∧
      (∀ q ∈ toldHistory.2.tables.runs,
        q.runStatus = lastStatus (·.isOfRun q.uid) (announcements (logOf toldHistory.1))) ∧
      ∀ x ∈ toldHistory.2.tables.steps,
        x.runStatus = lastStatus (·.isOfStep x.uid) (announcements (logOf toldHistory.1))) := by
  have htaken : ∀ payload a, noFailure (.publish .notifications payload) a → Except.isOk a = true :=
    fun _ _ h ↦ h
  have hhistory : History queueSetup noFailure toldHistory.1 toldHistory.2 := by
    refine history_get (fun e he c a h ↦ ?_) _
    obtain ⟨o, -, rfl⟩ := List.mem_map.1 he
    exact Collaborators.noFailure_of_single h
  exact ⟨htaken, hhistory, by decide +kernel, by decide +kernel, by decide +kernel,
    notifications_replay htaken hhistory⟩

end Engine

end Orchestration
