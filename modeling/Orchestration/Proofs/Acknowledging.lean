import Orchestration.Proofs.Dropping
import Orchestration.Proofs.Recording
import Orchestration.Proofs.RunRecords

/-!
# Ready outcomes that are acknowledged

A run that waits for its functions is told by a ready outcome to begin: it moves on to its first
step, which is then launched. Between the two the launch may fail, and the outcome is handed out
again. The handling then sees a run that is under way with a first step that is new, and launches
the step.

An operator may have paused the run in the meantime. Then there is nothing to move, the run is not
under way, and the outcome is acknowledged although the first step has never been launched. Nothing
is noted for the time when the run is resumed. In all other cases an outcome that is acknowledged
means that the run has started (`started_of_acknowledged`).
-/

namespace Orchestration

namespace Engine

variable {R : Rule} {setup : Setup} {G : Uid → Prop} {o : Operation} {s₀ s s' : Scene}
variable {log l : List Moment} {past : List Done} {u : Uid} {r : Except EngineError Unit}

/-! ## What a history says of a run -/

/-- Whether a run begins to wait for its functions. -/
def Moment.beginsWait (u : Uid) : Moment → Bool
  | ⟨_, .store (.updateRunStatus v .deployingFunctions _), .ok true⟩ => v == u
  | _ => false

theorem Moment.beginsWait_of_call {m : Moment}
    (h : ∀ run status expected, m.call ≠ .store (.updateRunStatus run status expected)) :
    m.beginsWait u = false := by
  obtain ⟨t, c, a⟩ := m
  cases c with
  | store c =>
    cases c with
    | updateRunStatus run status expected => exact absurd rfl (h run status expected)
    | _ => rfl
  | _ => rfl

theorem Moment.Idle.beginsWait {m : Moment} (h : m.Idle) : m.beginsWait u = false := by
  obtain ⟨t, c, a⟩ := m
  cases c with
  | store c =>
    cases c with
    | updateRunStatus v status expected =>
      rcases a with _ | _ | _
      · cases status with
        | _ => rfl
      · cases status with
        | _ => rfl
      · exact absurd rfl h
    | _ => rfl
  | _ => rfl

theorem beginsWait_of_isEnding {m : Moment} {run : Uid} (h : m.call.isEnding run = true) :
    m.beginsWait u = false := by
  refine Moment.beginsWait_of_call fun v status expected hcall ↦ ?_
  rw [hcall] at h
  cases h

theorem Told.beginsWait {q : WorkflowInstance} (h : Told q s l s') :
    ∀ m ∈ l, m.beginsWait u = false := by
  cases h with
  | told => exact fun m hm ↦ List.mem_singleton.1 hm ▸ rfl
  | untold => exact fun m hm ↦ nomatch hm

/-- A run has begun: it has got a status that no run is made with. -/
def HasBegun (q : WorkflowInstance) : Prop := q.runStatus ≠ .new ∧ q.runStatus ≠ .skipped

theorem HasBegun.of_terminal {q : WorkflowInstance} (h : q.runStatus.isTerminal = true) :
    HasBegun q := by
  constructor
  · rintro hq
    rw [hq] at h
    cases h
  · rintro hq
    rw [hq] at h
    cases h

theorem Forward.begun {before after : RunStatus} (h : Forward before after) :
    after ≠ .new ∧ after ≠ .skipped := by
  cases h with
  | _ => exact ⟨nofun, nofun⟩

/-- A run in one of two states has the status of the other, or has begun. -/
structure Continues (q p : WorkflowInstance) : Prop where
  uid : p.uid = q.uid
  status : p.runStatus = q.runStatus ∨ HasBegun p

/-- A run that a deed leaves was there before and continues, or has just been made. -/
theorem Deed.continues (h : Deed setup G o s₀ log s l s') {p : WorkflowInstance}
    (hp : p ∈ s'.tables.runs) : (∃ q ∈ s.tables.runs, Continues q p) ∨
      p.uid ∉ s.issued ∧ p.runStatus = .new := by
  have hkept : p ∈ s.tables.runs → (∃ q ∈ s.tables.runs, Continues q p) ∨
      p.uid ∉ s.issued ∧ p.runStatus = .new := fun hp ↦ .inl ⟨p, hp, rfl, .inl rfl⟩
  have hput : ∀ {q p' : WorkflowInstance}, p ∈ (s.tables.putRun p').runs →
      s.tables.run? q.uid = some q → Continues q p' → (∃ q ∈ s.tables.runs, Continues q p) ∨
        p.uid ∉ s.issued ∧ p.runStatus = .new := by
    intro q p' hp hq hfrom
    rcases Store.mem_overwrite hp with rfl | ⟨hp, -⟩
    · exact .inl ⟨q, (Store.Tables.mem_of_run? hq).1, hfrom⟩
    · exact hkept hp
  cases h with
  | idle | refuse | dispatch | cancel | outcome | launch | select | grant | record => exact hkept hp
  | again q told s' _ _ _ htold => exact hkept (htold.tables.1 ▸ hp)
  | make definition steps input parent parentStep run uids time instances new l s₁ _ _ _ hrun _ _
      hnew =>
    rcases List.mem_append.1 hp with hp | hp
    · exact hkept hp
    · rw [List.mem_singleton.1 hp, hnew]
      exact .inr ⟨hrun, rfl⟩
  | startTime q time hq => exact hput hp hq ⟨rfl, .inl rfl⟩
  | move q status expected hq hmove => exact hput hp hq ⟨rfl, .inr hmove.begun⟩
  | resume q rest _ hq => exact hput hp hq ⟨rfl, .inr ⟨nofun, nofun⟩⟩
  | hold q x hq => exact hput hp hq ⟨rfl, .inl rfl⟩
  | finish q status failure output time rest told s' hq _ hends _ htold =>
    rw [htold.tables.1] at hp
    exact hput hp hq ⟨rfl, .inr (.of_terminal hends.isTerminal)⟩
  | quit q status failure time expected rest hquits hq =>
    refine hput hp hq ⟨rfl, .inr (.of_terminal ?_)⟩
    cases hquits with
    | _ => rfl
  | remove => exact hkept (List.mem_filter.1 hp).1

theorem Deed.begun_of_beginsWait (h : Deed setup G o s₀ log s l s') (hs : Sound setup G s)
    {m : Moment} (hm : m ∈ l) (hwait : m.beginsWait u = true) :
    u ∈ s.issued ∧ ∀ p ∈ s'.tables.runs, p.uid = u → HasBegun p := by
  have hno : m.beginsWait u = false → u ∈ s.issued ∧ ∀ p ∈ s'.tables.runs, p.uid = u → HasBegun p :=
    fun hno ↦ absurd hwait (by rw [hno]; exact Bool.false_ne_true)
  cases h with
  | idle l h => exact hno (h m hm).2.beginsWait
  | make definition steps input parent parentStep run uids time instances new l s₁ _
      _ _ _ _ _ _ hl =>
    refine hno (Moment.beginsWait_of_call fun v status expected hcall ↦ ?_)
    rcases call_of_making hl hm with h | h | h
    all_goals exact nomatch h.symm.trans hcall
  | startTime | hold | launch | select | grant | refuse | record | cancel | outcome =>
    rw [List.mem_singleton.1 hm] at hwait
    cases hwait
  | dispatch q d m' _ hc =>
    refine hno (Moment.beginsWait_of_call fun v status expected hcall ↦ ?_)
    rw [List.mem_singleton.1 hm] at hcall
    rcases hc with hc | ⟨_, _, hc⟩
    · exact nomatch hc.symm.trans hcall
    · exact nomatch hc.symm.trans hcall
  | move q status expected hq hmove =>
    rw [List.mem_singleton.1 hm] at hwait
    have hu : q.uid = u := by
      unfold Moment.beginsWait at hwait
      split at hwait
      · next heq =>
        cases heq
        exact eq_of_beq hwait
      · cases hwait
    subst hu
    obtain ⟨ds, hst, -⟩ := hs.standing
    refine ⟨hst.runsIssued q (Store.Tables.mem_of_run? hq).1, fun p hp hpu ↦ ?_⟩
    rcases Store.mem_overwrite hp with rfl | ⟨-, hne⟩
    · exact hmove.begun
    · exact absurd hpu hne
  | resume q rest _ _ _ hrest =>
    rcases List.mem_cons.1 hm with rfl | hm
    · cases hwait
    · rcases hrest m hm with hidle | hcall
      · exact hno (Moment.idle_of_isIdle hidle).beginsWait
      · exact hno (Moment.beginsWait_of_call fun v status expected h ↦ nomatch hcall.symm.trans h)
  | finish q status failure output time rest told s' _ _ hends hrest htold =>
    rcases List.mem_cons.1 hm with rfl | hm
    · cases hends with
      | completed => cases hwait
      | failed failure hstatus =>
        rcases hstatus with rfl | rfl | rfl | rfl
        all_goals cases hwait
    · rcases List.mem_append.1 hm with hm | hm
      · exact hno (beginsWait_of_isEnding (hrest m hm))
      · exact hno (htold.beginsWait m hm)
  | quit q status failure time expected rest hquits _ _ hrest =>
    rcases List.mem_cons.1 hm with rfl | hm
    · cases hquits with
      | _ => cases hwait
    · exact hno (beginsWait_of_isEnding (hrest m hm))
  | again q told s' _ _ _ htold => exact hno (htold.beginsWait m hm)
  | remove uids m' _ hc =>
    refine hno (Moment.beginsWait_of_call fun v status expected hcall ↦ ?_)
    rw [List.mem_singleton.1 hm] at hcall
    exact nomatch hc.symm.trans hcall

theorem Affects.launched (h : Affects setup G o log s u l s') {y : StepInstance}
    (hy : s'.tables.step? u = some y) (hnew : y.runStatus ≠ .new) :
    (∃ x, s.tables.step? u = some x ∧ x.runStatus ≠ .new) ∨ ∃ m ∈ l, m.launches u = true := by
  cases h with
  | not _ hsame => exact .inl ⟨y, hsame ▸ hy, hnew⟩
  | launch q x input time _ _ _ _ hl =>
    subst hl
    exact .inr ⟨_, List.mem_singleton_self _, beq_self_eq_true u⟩
  | select x name _ hx h' =>
    obtain rfl := Option.some.inj (h'.symm.trans hy)
    exact .inl ⟨x, hx, hnew⟩
  | grant x hx _ _ _ _ h' =>
    obtain rfl := Option.some.inj (h'.symm.trans hy)
    exact .inl ⟨x, hx, hnew⟩
  | refuse x hx _ _ _ _ h' => exact .inl ⟨y, h' ▸ hy, hnew⟩
  | record m x time expected _ _ hx hrunning => exact .inl ⟨x, hx, by rw [hrunning]; nofun⟩
  | made x _ hu hmade =>
    obtain rfl : x = y := Option.some.inj (hmade.found.symm.trans (hu ▸ hy))
    exact absurd hmade.status hnew
  | removed _ hnone => cases hnone.symm.trans hy

/-- What a history tells of the records that it leaves. -/
structure Attests (log : List Moment) (s : Scene) : Prop where
  launched : ∀ x ∈ s.tables.steps, x.runStatus ≠ .new → ∃ m ∈ log, m.launches x.uid = true
  waited : ∀ u, (∃ m ∈ log, m.beginsWait u = true) →
    u ∈ s.issued ∧ ∀ q ∈ s.tables.runs, q.uid = u → HasBegun q
  known : ∀ q ∈ s.tables.runs, q.runStatus ≠ .skipped

theorem Attests.after (h : Attests log s) (hs : Sound setup G s) (hs' : Sound setup G s')
    {log' : List Moment} (deed : Deed setup G o s₀ log' s l s') : Attests (log ++ l) s' := by
  refine ⟨fun y hy hnew ↦ ?_, fun u ⟨m, hm, hwait⟩ ↦ ?_, fun p hp hskipped ↦ ?_⟩
  · have hstep := hs'.keyed.step?_iff.2 ⟨hy, rfl⟩
    rcases (deed.affects hs hs' y.uid).launched hstep hnew with ⟨x, hx, hx'⟩ | ⟨m, hm, hl⟩
    · obtain ⟨hmem, hxu⟩ := Store.Tables.mem_of_step? hx
      obtain ⟨m, hm, hl⟩ := h.launched x hmem hx'
      exact ⟨m, List.mem_append_left _ hm, hxu ▸ hl⟩
    · exact ⟨m, List.mem_append_right _ hm, hl⟩
  · rcases List.mem_append.1 hm with hm | hm
    · obtain ⟨hissued, hbegun⟩ := h.waited u ⟨m, hm, hwait⟩
      refine ⟨deed.issued_subset hissued, fun p hp hpu ↦ ?_⟩
      rcases deed.continues hp with ⟨q, hq, hcontinues⟩ | ⟨hno, -⟩
      · rcases hcontinues.status with hsame | hbegun'
        · have hq' := hbegun q hq (hcontinues.uid ▸ hpu)
          unfold HasBegun at hq' ⊢
          rwa [hsame]
        · exact hbegun'
      · exact absurd (hpu ▸ hissued) hno
    · obtain ⟨hissued, hbegun⟩ := deed.begun_of_beginsWait hs hm hwait
      exact ⟨deed.issued_subset hissued, hbegun⟩
  · rcases deed.continues hp with ⟨q, hq, hcontinues⟩ | ⟨-, hnew⟩
    · rcases hcontinues.status with hsame | hbegun
      · exact h.known q hq (hsame ▸ hskipped)
      · exact hbegun.2 hskipped
    · cases hnew.symm.trans hskipped

/-- What an operation does attests to the records that it leaves, if what came before attests to
those that it finds. -/
theorem Deeds.attests {before : List Moment} (h : Deeds setup G o s₀ log s)
    (hatt : Attests before s₀) : Attests (before ++ log) s :=
  h.holds (P := fun log s ↦ Attests (before ++ log) s) (by rwa [List.append_nil])
    fun _ _ _ _ hs hs' deed hP ↦ List.append_assoc .. ▸ hP.after hs hs' deed

/-- **A history attests to the records that it leaves.** -/
theorem History.attests (h : History setup R past s) : Attests (logOf past) s := by
  induction h with
  | empty =>
    exact ⟨fun x hx ↦ (nomatch hx), fun u ⟨m, hm, _⟩ ↦ (nomatch hm), fun q hq ↦ nomatch hq⟩
  | more d before hlogs _ ih =>
    rw [logOf_concat]
    exact (deeds_of_logs (guiding_nobody R) (before.sound (guiding_nobody R)) hlogs).attests ih

/-! ## The first step -/

/-- The first step of a run. -/
structure IsFirst (t : Store.Tables) (run : Uid) (x : StepInstance) : Prop where
  mem : x ∈ t.chainOf run
  label : x.runOrderLabel = .first

theorem Changes.sameStep {t : Store.Tables} (h : Changes o s₀ s t) {y : StepInstance}
    (hy : y ∈ t.steps) : (∃ x ∈ s.tables.steps, SameStep x y) ∨ y.uid ∉ s.issued := by
  have hkept : y ∈ s.tables.steps → (∃ x ∈ s.tables.steps, SameStep x y) ∨ y.uid ∉ s.issued :=
    fun hy ↦ .inl ⟨y, hy, rfl, rfl, rfl, rfl, rfl⟩
  have hput : ∀ {x z : StepInstance}, y ∈ (s.tables.putStep z).steps →
      s.tables.step? x.uid = some x → SameStep x z →
        (∃ x ∈ s.tables.steps, SameStep x y) ∨ y.uid ∉ s.issued := by
    intro x z hy hx hsame
    rcases Store.mem_overwrite hy with rfl | ⟨hy, -⟩
    · exact .inl ⟨x, (Store.Tables.mem_of_step? hx).1, hsame⟩
    · exact hkept hy
  cases h with
  | nothing | run => exact hkept hy
  | step q x z hx _ _ hsame => exact hput hy hx hsame
  | result m x time expected _ _ _ hx => exact hput hy hx (sameStep_withResult _ x)
  | making new instances _ hinst =>
    rcases List.mem_append.1 hy with hy | hy
    · exact hkept hy
    · exact .inr (hinst y hy).1
  | removal => exact hkept (List.mem_filter.1 hy).1

theorem Deeds.sameStep (h : Deeds setup G o s₀ log s) {x y : StepInstance}
    (hx : x ∈ s₀.tables.steps) (hy : y ∈ s.tables.steps) (hu : y.uid = x.uid) : SameStep x y := by
  have hboth : x.uid ∈ s.issued ∧ ∀ y ∈ s.tables.steps, y.uid = x.uid → SameStep x y := by
    clear hy hu
    induction h with
    | none hs =>
      obtain ⟨ds, hst, -⟩ := hs.standing
      refine ⟨hst.stepsIssued x hx, fun y hy hu ↦ ?_⟩
      obtain rfl := hs.keyed.eq_of_step hy hx hu
      exact ⟨rfl, rfl, rfl, rfl, rfl⟩
    | more before deed _ ih =>
      obtain ⟨hissued, hsame⟩ := ih
      refine ⟨deed.issued_subset hissued, fun y hy hu ↦ ?_⟩
      rcases deed.changes.sameStep hy with ⟨z, hz, hzy⟩ | hno
      · exact (hsame z hz (hzy.uid ▸ hu)).trans hzy
      · exact absurd (hu ▸ hissued) hno
  exact hboth.2 y hy hu

/-- A run is paused before its first step has been launched. -/
def PausedAtStart (t : Store.Tables) (run : Uid) : Prop :=
  ∃ q x, t.run? run = some q ∧ q.runStatus = .paused ∧ IsFirst t run x ∧ x.runStatus = .new

/-- A run has started: it has come to its end, or its first step has been launched, and is not
new. -/
inductive HasStarted (log : List Moment) (t : Store.Tables) (run : Uid) : Prop where
  | ended (h : IsEnded t run)
  | launched (x : StepInstance) (hx : IsFirst t run x) (hstatus : x.runStatus ≠ .new)
      (hlog : ∃ m ∈ log, m.launches x.uid = true)

theorem HasStarted.of_running (hd : Deeds setup G o s₀ l s) (hatt : Attests log s) {run : Uid}
    {x : StepInstance} (hx : IsFirst s₀.tables run x) (h : IsRunning s.tables x.uid) :
    HasStarted log s.tables run := by
  obtain ⟨y, hy, hrunning⟩ := h
  obtain ⟨hmem, hu⟩ := Store.Tables.mem_of_step? hy
  obtain ⟨hxm, hxw⟩ := Store.Tables.mem_chainOf.1 hx.mem
  have hsame := hd.sameStep hxm hmem hu
  have hnew : y.runStatus ≠ .new := by
    rw [hrunning]
    nofun
  exact .launched y ⟨Store.Tables.mem_chainOf.2 ⟨hmem, hsame.run.trans hxw⟩,
    hsame.label.trans hx.label⟩ hnew (hatt.launched y hmem hnew)

/-- A ready outcome that is acknowledged has launched the first step of its run or ended the run, or
there was nothing for it to do. -/
theorem cases_of_acknowledged {message : DeploymentOutcome} (hs : Standing setup (fun _ ↦ False) s)
    (hready : message.ready = true) (h : Runs R (setup.processOutcome message) s (.ok ()) s') :
    ∃ q x, s.tables.run? message.workflowInstanceId = some q ∧
      IsFirst s.tables message.workflowInstanceId x ∧
      (IsRunning s'.tables x.uid ∨ IsEnded s'.tables message.workflowInstanceId ∨
        s' = s ∧ q.runStatus ≠ .deployingFunctions ∧
          ¬(q.runStatus = .running ∧ x.runStatus = .new)) ∧
      (q.runStatus = .paused → s' = s) := by
  have ht := hs.named.keyed
  set run := message.workflowInstanceId with hrun
  unfold Setup.processOutcome at h
  rw [if_pos hready, ← hrun] at h
  rcases runs_bind.1 h with ⟨e, -, he⟩ | ⟨moved, s₁, h₁, hrest⟩
  · cases he
  have hs₁ : Standing setup (fun _ ↦ False) s₁ := keeps_beginning hs h₁
  obtain ⟨hs₁eq, hans⟩ := runs_writeRunStatus h₁
  rcases runs_bind.1 hrest with ⟨e, -, he⟩ | ⟨x, s₂, h₂, hrest⟩
  · cases he
  rw [still_firstStep _ h₂] at hrest
  obtain ⟨hmem, hlabel⟩ := runs_firstStep h₂
  -- A launch that does not fail is not one that has come to nothing.
  have hlaunch : ∀ q, s₁.tables.run? run = some q → Runs R (setup.launchStep x) s₁ (.ok ()) s' →
      IsRunning s'.tables x.uid ∨ IsEnded s'.tables run := by
    intro q hq hlaunch
    obtain ⟨hxm, hxw⟩ := Store.Tables.mem_chainOf.1 hmem
    have hx := hs₁.named.keyed.step?_iff.2 ⟨hxm, rfl⟩
    rcases launchStep_cases hs₁ hx ⟨q, hxw.symm ▸ hq⟩ hlaunch
      with ⟨e, he, -⟩ | ⟨hrunning, -⟩ | hended
    · cases he
    · exact .inl hrunning
    · exact .inr (hxw ▸ hended)
  cases moved with
  | true =>
    obtain ⟨q, hq, -, hexp, htables⟩ := Store.Tables.answer_moved hans.symm
    have htables : s₁.tables = s.tables.putRun { q with runStatus := .running } := by
      rw [hs₁eq]
      exact htables
    have hwaits : q.runStatus = .deployingFunctions := hexp _ rfl
    rw [htables] at hmem
    refine ⟨q, x, hq, ⟨hmem, hlabel⟩, ?_, fun hpaused ↦ by cases hwaits.symm.trans hpaused⟩
    have hq₁ : s₁.tables.run? run = some { q with runStatus := .running } := by
      rw [htables]
      exact ht.run?_putRun hq (Store.Tables.mem_of_run? hq).2
    exact (hlaunch _ hq₁ hrest).imp_right .inl
  | false =>
    have hsame : s₁ = s := by
      have hmoved : (s.tables.answer
          (.updateRunStatus run .running (some .deployingFunctions))).1 ≠ .ok true := by
        rw [← hans]
        intro h
        cases h
      have hunmoved := ht.answer_unmoved hmoved
      rw [hs₁eq, Scene.afterStore, hunmoved]
      exact congrArg (fun made ↦ { s with made }) (List.append_nil s.made)
    subst hsame
    rcases runs_bind.1 hrest with ⟨e, -, he⟩ | ⟨q, s₃, h₃, hrest⟩
    · cases he
    rw [still_readRun _ h₃] at hrest
    have hq := runs_readRun h₃
    refine ⟨q, x, hq, ⟨hmem, hlabel⟩, ?_, fun hpaused ↦ ?_⟩
    · by_cases hbegun : q.runStatus = .running ∧ x.runStatus = .new
      · rw [if_pos hbegun] at hrest
        exact (hlaunch q hq hrest).imp_right .inl
      · rw [if_neg hbegun] at hrest
        refine .inr (.inr ⟨(runs_pure.1 hrest).2, fun hwaits ↦ ?_, hbegun⟩)
        -- A run that waits would have been moved.
        have hmoves : (s₁.tables.answer (.updateRunStatus run .running
            (some .deployingFunctions))).1 = .ok true := by
          show (s₁.tables.onRun run (Store.Tables.withStatus _ _)).1 = _
          rw [Store.Tables.onRun_of_some hq, Store.Tables.withStatus, hwaits, if_neg (by decide)]
        cases hans.trans hmoves
    · rw [hpaused, if_neg fun hbegun ↦ by cases hbegun.1] at hrest
      exact (runs_pure.1 hrest).2

/-- **An acknowledged ready outcome means that the run has started**, or that the run was paused
before its first step was launched, and only then. Of such a run the outcome changes nothing. -/
theorem started_of_acknowledged {message : DeploymentOutcome} (h : History setup anyAnswer past s)
    (hwaited : ∃ m ∈ logOf past, m.beginsWait message.workflowInstanceId = true)
    (hready : message.ready = true)
    (hrun : Logs anyAnswer ((Operation.outcome message).action setup) s log (.ok ()) s') :
    (HasStarted (logOf past ++ log) s'.tables message.workflowInstanceId ↔
      ¬PausedAtStart s.tables message.workflowInstanceId) ∧
    (PausedAtStart s.tables message.workflowInstanceId → s' = s) := by
  have hs := h.sound (guiding_nobody _)
  have hd := deeds_of_logs (guiding_nobody _) hs hrun
  have hatt : Attests (logOf past ++ log) s' := hd.attests h.attests
  obtain ⟨q, x, hq, hx, hcases, hpaused⟩ := cases_of_acknowledged hs.standing hready hrun.runs
  obtain ⟨hqm, hqu⟩ := Store.Tables.mem_of_run? hq
  have hunique : ∀ y, IsFirst s.tables message.workflowInstanceId y → y = x := by
    intro y hy
    have hheaded := ((reachable_iff_history.2 ⟨past, h⟩).tidy.walked q hqm).headed
    rw [hqu] at hheaded
    obtain ⟨_, hcons⟩ := hheaded.eq_cons hy.mem hy.label
    obtain ⟨_, hcons'⟩ := hheaded.eq_cons hx.mem hx.label
    exact (List.cons.inj (hcons.symm.trans hcons')).1
  have hstays : PausedAtStart s.tables message.workflowInstanceId → s' = s := by
    rintro ⟨q', _, hq', hstatus, -⟩
    obtain rfl := Option.some.inj (hq.symm.trans hq')
    exact hpaused hstatus
  refine ⟨⟨?_, fun hno ↦ ?_⟩, hstays⟩
  · intro hstarted hat
    obtain rfl := hstays hat
    obtain ⟨q', y, hq', hstatus, hy, hnew⟩ := hat
    obtain rfl := Option.some.inj (hq.symm.trans hq')
    cases hstarted with
    | ended h =>
      obtain ⟨p, hp, hend⟩ := h
      obtain rfl := Option.some.inj (hq.symm.trans hp)
      rw [hstatus] at hend
      cases hend
    | launched z hz hstatus' =>
      rw [hunique z hz, ← hunique y hy] at hstatus'
      exact hstatus' hnew
  · rcases hcases with hrunning | hended | ⟨rfl, hwaits, hidle⟩
    · exact .of_running hd hatt hx hrunning
    · exact .ended hended
    · -- There was nothing to do, and the run is not paused at its start.
      have hbegun :=
        (hatt.waited _ (hwaited.imp fun m hm ↦ ⟨List.mem_append_left _ hm.1, hm.2⟩)).2 q hqm hqu
      by_cases hend : q.runStatus.isTerminal = true
      · exact .ended ⟨q, hq, hend⟩
      have hnew : x.runStatus ≠ .new := by
        intro hnew
        cases hstatus : q.runStatus with
        | new => exact hbegun.1 hstatus
        | skipped => exact hbegun.2 hstatus
        | deployingFunctions => exact hwaits hstatus
        | running => exact hidle ⟨hstatus, hnew⟩
        | paused => exact hno ⟨q, x, hq, hstatus, hx, hnew⟩
        | _ => exact hend (by rw [hstatus]; rfl)
      exact .launched x hx hnew (hatt.launched x (Store.Tables.mem_chainOf.1 hx.mem).1 hnew)

/-- Collaborators that know `callThenLoop` and its function, which is deployed when it is needed. -/
def obliging : Collaborators := .single lazyFunction callThenLoop

/-- The first run is told that its functions are deployed. -/
def readyOutcome : DeploymentOutcome := { workflowInstanceId := World.nthUid 0, ready := true }

/-- A run waits for its functions and is told that they are deployed while their catalog is out of
reach. Before it is told again, it is paused. -/
def pausedHistory : List Done × Scene :=
  (recordAll queueSetup
    [(obliging, .start (.ofNat 1) [] none none),
      (obliging.withoutFunctions, .outcome readyOutcome),
      (obliging, .pause (World.nthUid 0))] [] {}).get (by decide +kernel)

def idleHandling : Except EngineError Unit × List Moment × Scene :=
  (obliging.record 0 ((Operation.outcome readyOutcome).action queueSetup).run pausedHistory.2).get
    (by decide +kernel)

/-- The outcome is acknowledged, and the first step of the run is new. When the run is resumed, it
is under way with a step that nobody launches. -/
theorem started_of_idleHandling :
    (History queueSetup anyAnswer pausedHistory.1 pausedHistory.2 ∧
      (∃ m ∈ logOf pausedHistory.1, m.beginsWait (World.nthUid 0) = true) ∧
      Logs anyAnswer ((Operation.outcome readyOutcome).action queueSetup) pausedHistory.2
        idleHandling.2.1 (.ok ()) idleHandling.2.2) ∧
    ((idleHandling.2.2.tables.run? (World.nthUid 0)).map (·.runStatus) = some .paused ∧
      (idleHandling.2.2.tables.step? (World.nthUid 1)).map (·.runStatus) = some .new ∧
      (obliging.perform ((Operation.resume (World.nthUid 0)).action queueSetup).run
        idleHandling.2.2).map (fun r ↦ ((r.2.tables.run? (World.nthUid 0)).map (·.runStatus),
          (r.2.tables.step? (World.nthUid 1)).map (·.runStatus), r.2.sent)) =
        some (some .running, some .new, [])) ∧
    ((HasStarted (logOf pausedHistory.1 ++ idleHandling.2.1) idleHandling.2.2.tables
        (World.nthUid 0) ↔ ¬PausedAtStart pausedHistory.2.tables (World.nthUid 0)) ∧
      (PausedAtStart pausedHistory.2.tables (World.nthUid 0) →
        idleHandling.2.2 = pausedHistory.2)) := by
  have hhistory : History queueSetup anyAnswer pausedHistory.1 pausedHistory.2 := history_get_any _
  have hwaited : ∃ m ∈ logOf pausedHistory.1, m.beginsWait (World.nthUid 0) = true := by
    decide +kernel
  have hok : idleHandling.1 = .ok () := by decide +kernel
  have hlogs : Logs anyAnswer ((Operation.outcome readyOutcome).action queueSetup) pausedHistory.2
      idleHandling.2.1 (.ok ()) idleHandling.2.2 :=
    hok ▸ (obliging.logged_get _).weaken fun _ _ _ ↦ trivial
  exact ⟨⟨hhistory, hwaited, hlogs⟩, ⟨by decide +kernel, by decide +kernel, by decide +kernel⟩,
    started_of_acknowledged hhistory hwaited rfl hlogs⟩

end Engine

end Orchestration
