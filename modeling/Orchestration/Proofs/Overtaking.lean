import Orchestration.Proofs.Lingering
import Orchestration.Proofs.RunRecords

/-!
# Two handlings of one result

A result may be delivered more than once, and so be handled twice at the same time. Only one of the
handlings writes it. The other one is refused, and then looks whether the first has failed to have
the run leave the step.

If the first one has launched the next step by then, or ended the run, that look finds nothing to be
made up for. But if it is still about to do so, it has not failed, and the look does not tell: both
have the run leave the step, and the next step is launched twice. So of two handlings one drives the
run, unless one of them looks in between (`driven_once_or_overtaken`).
-/

namespace Orchestration

namespace Engine

/-! ## What two handlings do -/

/-- What two handlings of a result do about its run, they do once: they launch a step of the run,
use up a repetition of the step and hand work over. -/
structure DrivenOnce (own : List Uid) (u : Uid) (log : List Turn) : Prop where
  launches : log.countP (Turn.launches own) ≤ 1
  grants : log.countP (Turn.grants u) ≤ 1
  handsOver : log.countP Turn.handsOver ≤ 1

/-- A handling has found the result written, as the first that it has done, before any step of the
run was launched or the run was ended, and the other handling has done so later. -/
def Overtaken (own : List Uid) (run : Uid) (m : StepResult) (log : List Turn) : Prop :=
  ∃ l₁ k s y l₂, log = l₁ ++ .finding k s m.stepInstanceId y :: l₂ ∧ repeatsLast y m = true ∧
    (∀ t ∈ l₁, t.program ≠ k ∧ t.leaves own run = false) ∧
      ∃ t ∈ l₂, t.program ≠ k ∧ t.leaves own run = true

/-- What else is needed for a result to be handled once: it names its attempt, the stop condition of
its step is about that step and says the same each time, and no handling fails between a repetition
that it is granted and the launch. -/
inductive Excused (own : List Uid) (run : Uid) (m : StepResult) (shape : StepStructure)
    (log : List Turn) (results : List (Except EngineError Unit)) : Prop where
  /-- The result names no attempt, and has been written twice. -/
  | unnamed (noAttempt : m.attempt = none) (twice : 1 < applied m.stepInstanceId log)
  /-- The step is a loop whose stop condition is about other steps as well, or depends on the order
  of members. -/
  | unguided (foreign : ¬StepInstance.SelfGuided shape)
  /-- A handling has used up a repetition, and has failed before it has launched the step. -/
  | lapsed (k : Nat) (error : EngineError) (failed : results[k]? = some (.error error)) (t : Turn)
      (ht : t ∈ log) (hk : t.program = k) (granted : t.grants m.stepInstanceId = true)
      (stays : ∀ t ∈ log, t.program = k → t.leaves own run = false)

namespace Errand

variable {e : Errand} {st st' : Stage} {t : Turn} {s s' s₁ : Scene} {y : StepInstance}
variable {R : Rule} {setup : Setup} {pool pool' : List (Rest (Except EngineError Unit))}
variable {Q : Stage → Except EngineError Unit → Prop} {past log l₁ l₂ : List Turn} {i j : Nat}
variable {results : List (Except EngineError Unit)} {next : Option Uid}

/-! ## Company that has been beaten to it -/

theorem Turned.spares (h : e.Turned st t st') (hst : 5 ≤ st.rank) : e.Spares t.moment.call := by
  cases h with
  | spare _ spares => exact spares
  | handOver spares => exact spares
  | find | finish => trivial
  | write | refuse =>
    simp only [Stage.rank] at hst
    omega
  | grant may => exact absurd may.rank_lt (by omega)
  | exhaust may => exact absurd may.rank_lt (by omega)
  | launch _ may => exact absurd may.rank_lt (by omega)
  | select may =>
    cases st with
    | read | reread | granted =>
      simp only [Stage.rank] at hst
      omega
    | _ => exact may.elim

/-- One handling has found the result written, and another one has moved the run on by then. -/
structure Belated (e : Errand) (Q : Stage → Except EngineError Unit → Prop) (y : StepInstance)
    (next : Option Uid) (i j : Nat) (past : List Turn)
    (pool : List (Rest (Except EngineError Unit))) (s : Scene) : Prop where
  underway : e.Underway Q past pool s
  beyond : e.Beyond y next s
  gone : 5 ≤ (e.stageOf i past).rank
  stays : e.stageOf j past = .read y
  lingers : ∀ p, pool[j]? = some p → Lingers (e.InVain y) (e.Beyond y next) (fun _ ↦ True) p

/-- **Whoever comes too late stays where it is**, and the other one leaves the steps of the run
alone. -/
theorem Belated.turn (h : e.Belated Q y next i j past pool s) (hnext : ∀ v ∈ next, e.Leaves y v)
    (hwho : t.program ≠ j → t.program = i)
    {rest : t.moment.call.Answer → Rest (Except EngineError Unit)}
    (hp : pool[t.program]? = some (.call t.moment.call rest)) (hs : t.moment.scene = s)
    (hadm : s.Admits t.moment.call t.moment.answer) :
    e.Belated Q y next i j (past ++ [t]) (pool.set t.program (rest t.moment.answer)) t.after := by
  have hunder := h.underway.turn hp hs hadm
  subst hs
  obtain ⟨-, hturned⟩ := hunder.abides.turned
  obtain ⟨hallowed, -⟩ := h.underway.pursues _ _ hp
  by_cases htj : t.program = j
  · subst htj
    obtain ⟨hvain, hrest⟩ := h.lingers _ hp
    obtain ⟨hbeyond, hstays⟩ := h.beyond.inVain hvain hadm hnext
    have hstage : e.stageOf t.program (past ++ [t]) = .read y := by
      rw [stageOf_concat_self, h.stays]
      exact hstays
    refine ⟨hunder, hbeyond, ?_, hstage, fun p hpt ↦ ?_⟩
    · have hti : t.program ≠ i := by
        rintro rfl
        have hgone := h.gone
        rw [h.stays] at hgone
        exact absurd hgone (by simp)
      rw [stageOf_concat_of_ne hti]
      exact h.gone
    · rw [List.getElem?_set_self (List.getElem?_eq_some_iff.1 hp).1] at hpt
      exact Option.some.inj hpt ▸ hrest _ _ h.beyond hadm
  · obtain rfl := hwho htj
    refine ⟨hunder, ?_, Nat.le_trans h.gone hturned.rank_le, ?_, fun p hpj ↦ ?_⟩
    · exact h.beyond.after (serves_of_allows hallowed) _ fun v hv ↦
        step?_of_spares (hturned.spares h.gone) _ (hnext v hv).own
    · rw [stageOf_concat_of_ne htj]
      exact h.stays
    · rw [List.getElem?_set_ne htj] at hpj
      exact h.lingers p hpj

theorem Belated.interleaves (h : e.Belated Q y next i j past pool s)
    (hnext : ∀ v ∈ next, e.Leaves y v) (hwho : ∀ t ∈ log, t.program ≠ j → t.program = i)
    (hrun : Interleaves R pool s log pool' s') : e.Belated Q y next i j (past ++ log) pool' s' :=
  hrun.holds (P := e.Belated Q y next i j) h fun _ _ _ _ _ ht hp hs hadm h ↦
    h.turn hnext (hwho _ ht) hp hs hadm

/-! ## The ground at the beginning -/

/-- The ground is firm in a reachable scene in which the run is running and its steps are those of
the errand. -/
theorem ground_of_reachable {q : WorkflowInstance} (h : Reachable setup anyAnswer s)
    (hq : s.tables.run? e.run = some q) (hrunning : q.runStatus = .running)
    (hchain : e.own = (s.tables.chainOf e.run).map (·.uid))
    (hguided : ∀ x, s.tables.step? e.step = some x → StepInstance.SelfGuided x.shape) :
    e.Ground s := by
  obtain ⟨⟨ds, hst, -⟩, -⟩ := sound_of_reachable (guiding_nobody _) h
  obtain ⟨hqm, hqu⟩ := Store.Tables.mem_of_run? hq
  have hstep : ∀ {x}, x ∈ s.tables.steps → s.tables.step? x.uid = some x := fun hx ↦
    hst.keyed.step?_iff.2 ⟨hx, rfl⟩
  have hmem : ∀ {v}, v ∈ e.own ↔
      ∃ x ∈ s.tables.steps, x.workflowInstanceUid = e.run ∧ x.uid = v := by
    intro v
    simp only [hchain, List.mem_map, Store.Tables.mem_chainOf, and_assoc]
  have hthere : ∀ v ∈ e.own, ∃ x, s.tables.step? v = some x := by
    intro v hv
    obtain ⟨x, hx, -, rfl⟩ := hmem.1 hv
    exact ⟨x, hstep hx⟩
  have hissued : ∀ v ∈ e.own, v ∈ s.issued := by
    intro v hv
    obtain ⟨x, hx, -, rfl⟩ := hmem.1 hv
    exact hst.stepsIssued x hx
  have hown : ∀ x ∈ s.tables.steps, x.workflowInstanceUid = e.run ↔ x.uid ∈ e.own := by
    refine fun x hx ↦ ⟨fun hrun ↦ hmem.2 ⟨x, hx, hrun, rfl⟩, fun hv ↦ ?_⟩
    obtain ⟨y, hy, hrun, hyx⟩ := hmem.1 hv
    obtain rfl := Option.some.inj ((hstep hx).symm.trans (hyx ▸ hstep hy))
    exact hrun
  have hnext : ∀ x ∈ s.tables.steps, x.workflowInstanceUid = e.run →
      ∀ v ∈ x.nextStepId, v ∈ e.own ∧ v ≠ x.uid := by
    refine fun x hx hrun v hv ↦ ⟨?_, ?_⟩
    · obtain ⟨n, hn, hnv, hnrun⟩ := hst.links x hx v hv
      exact hmem.2 ⟨n, hn, hnrun.trans hrun, hnv⟩
    · rintro rfl
      exact (h.tidy.walked q hqm).linked.next_ne (hst.keyed.nodup_chainOf _)
        (Store.Tables.mem_chainOf.2 ⟨hx, hrun.trans hqu.symm⟩) hv
  exact ⟨⟨hqu ▸ hst.runsIssued q hqm, hissued⟩,
    fun x hx ↦ ⟨hown x hx, hnext x hx, fun hu ↦ hguided x (hu ▸ hstep hx)⟩, hthere,
    q, hq, .inl hrunning⟩

/-! ## Two handlings -/

theorem stageOf_of_waits (h : ∀ t ∈ log, t.program ≠ j) : e.stageOf j log = .unread := by
  induction log using List.reverseRecOn with
  | nil => rfl
  | append_singleton log t ih =>
    rw [stageOf_concat_of_ne (h t (by simp))]
    exact ih fun t' ht' ↦ h t' (List.mem_append_left _ ht')

/-- Once the only handling that has been at work has launched a step of the run or ended the run,
whoever finds the result written comes too late. -/
theorem Tells.beyond (htells : e.Tells s st) (hs : e.Ground s) (hst : 5 ≤ st.rank)
    (hy : s.tables.step? e.step = some y) (hrepeats : repeatsLast y e.result = true) :
    ∃ next, (∀ v ∈ next, e.Leaves y v) ∧ e.Beyond y next s := by
  have hcounts : ∃ x, s.tables.step? e.step = some x ∧ y.runCount ≤ x.runCount :=
    ⟨y, hy, Int.le_refl _⟩
  cases st with
  | launched v =>
    obtain ⟨x, hx, hwhy⟩ := htells
    obtain rfl := Option.some.inj (hx.symm.trans hy)
    rcases hwhy with hrunning | ⟨hleaves, htouched⟩
    · simp [repeatsLast, hrunning] at hrepeats
    · exact ⟨some v, fun w hw ↦ Option.some.inj hw ▸ hleaves, hs, hcounts, htouched⟩
  | ended => exact ⟨none, fun _ hv ↦ (by cases hv), hs, hcounts, htells⟩
  | unread | read | written | reread | granted => simp at hst

theorem countP_eq_turnsOf (hlog : ∀ t ∈ log, t.program < 2) (hij : i ≠ j) (hi : i < 2) (hj : j < 2)
    (w : Turn → Bool) : log.countP w = turnsOf i w log + turnsOf j w log := by
  rw [List.countP_eq_countP_filter_add log w (·.program == i), List.countP_filter,
    List.countP_filter]
  refine congrArg _ (List.countP_congr fun t ht ↦ ?_)
  have hlt := hlog t ht
  have hiff : t.program = j ↔ ¬t.program = i := by omega
  simp [hiff]

theorem Abides.drivenOnce (h : e.Abides log) (hlog : ∀ t ∈ log, t.program < 2) (hij : i ≠ j)
    (hi : i < 2) (hj : j < 2) (hst : (e.stageOf i log).rank < 4) : DrivenOnce e.own e.step log := by
  have honce : ∀ {n w}, 4 ≤ n → (∀ {st t st'}, e.Turned st t st' → w t = true →
      st.rank < n ∧ n ≤ st'.rank) → log.countP w ≤ 1 := by
    intro n w hn hw
    have hsi := h.turnsOf_le hw i
    have hsj := h.turnsOf_le hw j
    rw [if_neg (by omega)] at hsi
    rw [countP_eq_turnsOf hlog hij hi hj]
    split at hsj
    · omega
    · omega
  exact ⟨honce (by decide) Turned.launches_once, honce (by decide) Turned.grants_once,
    honce (by decide) Turned.handsOver_once⟩

theorem applies_of_spares (h : e.Spares t.moment.call) : t.applies e.step = false := by
  obtain ⟨i, s, c, answer⟩ := t
  cases c with
  | store c =>
    cases c with
    | applyStepResult v =>
      rcases answer with err | _ | _
      · rfl
      · rfl
      · exact beq_eq_false_iff_ne.2 fun hv ↦ h (hv ▸ e.mem)
    | _ => rfl
  | _ => rfl

theorem Turned.applies (h : e.Turned st t st') (ht : t.applies e.step = true) :
    ∃ x update, st = .read x ∧ t.moment.call = .store (.applyStepResult e.step update) ∧
      expectedRunCount x e.result = some update.expectedRunCount ∧
      (t.moment.scene.tables.answer (.applyStepResult e.step update)).1 = .ok true := by
  cases h with
  | write hexpected taken => exact ⟨_, _, rfl, rfl, hexpected, taken⟩
  | refuse refused => cases (Turn.applies_refused refused).symm.trans ht
  | spare _ spares => cases (applies_of_spares spares).symm.trans ht
  | handOver spares => cases (applies_of_spares spares).symm.trans ht
  | _ => cases ht

/-- The step has had the result if it was written, and it was written once. -/
def Booked (e : Errand) (a : Int) (past : List Turn) (s : Scene) : Prop :=
  applied e.step past = 0 ∨
    applied e.step past = 1 ∧ ∃ x, s.tables.step? e.step = some x ∧ a ≤ x.runCount

theorem Booked.turn {a : Int} (h : e.Booked a past t.moment.scene) (ha : e.result.attempt = some a)
    (hturned : e.Turned st t st') (hserves : e.Serves t.moment.call) :
    e.Booked a (past ++ [t]) t.after := by
  rw [Booked, applied_concat]
  by_cases ht : t.applies e.step = true
  · rw [if_pos ht]
    obtain ⟨x, update, -, hcall, hexpected, htaken⟩ := hturned.applies ht
    obtain ⟨z, hz, hrunning, hcount, -⟩ := Store.Tables.answer_accepted htaken
    have hupdate : update.expectedRunCount = a - 1 := by
      rw [expectedRunCount, ha] at hexpected
      simp only [Option.ite_none_left_eq_some, Option.some.injEq] at hexpected
      exact hexpected.2.symm
    obtain ⟨i, s, c, answer⟩ := t
    obtain rfl : c = _ := hcall
    have hafter : (s.afterStore (.applyStepResult e.step update)).tables.step? e.step =
        some (Store.Tables.withResult update z).2 := by
      rw [Scene.afterStore, Store.Tables.answer_of_accepted htaken,
        step?_onStep (mild_withResult update), if_pos rfl]
      exact congrArg (Option.map _) hz
    have hnext : (Store.Tables.withResult update z).2.runCount = z.runCount + 1 := by
      rw [Store.Tables.withResult, if_neg (by simp [hrunning, hcount])]
    -- The step has had one result less than the attempt says, so this is the first time.
    rcases h with hnone | ⟨-, y, hy, hle⟩
    · exact .inr ⟨by omega, _, hafter, by omega⟩
    · obtain rfl := Option.some.inj (hz.symm.trans hy)
      omega
  · rw [if_neg ht]
    refine h.imp_right ?_
    rintro ⟨hone, x, hx, hle⟩
    obtain ⟨y, hy, hle'⟩ := exists_step?_after hserves t.moment.answer e.mem hx
    exact ⟨hone, y, hy, Int.le_trans hle hle'⟩

theorem Underway.applied_le_one (h : e.Underway Q [] pool s)
    (hrun : Interleaves R pool s log pool' s') {a : Int} (ha : e.result.attempt = some a) :
    applied e.step log ≤ 1 := by
  have hbooked : e.Underway Q ([] ++ log) pool' s' ∧ e.Booked a ([] ++ log) s' := by
    refine hrun.holds (P := fun past pool s ↦ e.Underway Q past pool s ∧ e.Booked a past s)
      ⟨h, .inl rfl⟩ fun past pool s t next _ hp hs hadm ⟨h, hbooked⟩ ↦ ?_
    have hunder := h.turn hp hs hadm
    subst hs
    obtain ⟨hallowed, -⟩ := h.pursues _ _ hp
    exact ⟨hunder, hbooked.turn ha hunder.abides.turned.2 (serves_of_allows hallowed)⟩
  rcases hbooked.2 with hnone | ⟨hone, -⟩
  · exact Nat.le_trans (Nat.le_of_eq hnone) (Nat.zero_le 1)
  · exact Nat.le_of_eq hone

theorem underway_processResult (setup : Setup) (hs : e.Ground s) :
    e.Underway Settled [] [(setup.processResult e.result).run, (setup.processResult e.result).run]
      s := by
  refine ⟨hs, .none, fun k p hp ↦ ?_⟩
  obtain rfl : p = (setup.processResult e.result).run := by
    simpa using List.mem_of_getElem? hp
  exact takes_processResult setup e

theorem Underway.belated (h : e.Underway Q past pool s)
    (hp : pool[j]? = some (setup.processResult e.result).run)
    (hj : ∀ t ∈ past, t.program ≠ j) (hi : 5 ≤ (e.stageOf i past).rank)
    (hbeyond : e.Beyond y next s)
    (hnext : ∀ v ∈ next, e.Leaves y v) (hrepeats : repeatsLast y e.result = true)
    (hrun : Interleaves R pool s (.finding j s₁ e.step y :: log) pool' s') :
    ∃ pool₁ s₂, e.Belated Q y next i j (past ++ [.finding j s₁ e.step y]) pool₁ s₂ ∧
      Interleaves R pool₁ s₂ log pool' s' := by
  obtain ⟨rest, hpj, rfl, hadm, -, hrest⟩ := hrun.cons
  have hunread := stageOf_of_waits (e := e) hj
  have hij : j ≠ i := by
    rintro rfl
    rw [hunread] at hi
    simp at hi
  have hspares : e.Spares (.store (.getStep e.step)) := trivial
  have hserves : e.Serves (.store (.getStep e.step)) := trivial
  refine ⟨_, _, ⟨h.turn hpj rfl hadm, ?_, ?_, ?_, fun p hpp ↦ ?_⟩, hrest⟩
  · exact hbeyond.after hserves _ fun v hv ↦ step?_of_spares hspares _ (hnext v hv).own
  · rwa [stageOf_concat_of_ne hij]
  · refine (stageOf_concat_self past (.finding j s₁ e.step y)).trans ?_
    rw [hunread]
    rfl
  · obtain ⟨rest', hrun', -, hfound⟩ := run_processResult setup e.result
    cases hpj.symm.trans (hp.trans (congrArg some hrun'))
    rw [List.getElem?_set_self (List.getElem?_eq_some_iff.1 hpj).1] at hpp
    obtain rfl := Option.some.inj hpp
    have hy : y ∈ s₁.tables.steps ∧ y.uid = e.step :=
      Store.Tables.mem_of_step? (Except.ok.inj hadm).symm
    rw [show rest (.ok (some y)) = _ from hfound y]
    exact lingers_seeTo (h.ground.steps y hy.1) hy.2 hrepeats hnext

/-- **Whoever finds the result written leaves the run to the other handling**, if that has launched
a step of the run or ended the run by then. -/
theorem Underway.stays (h : e.Underway Q [] pool s)
    (hpool : pool[j]? = some (setup.processResult e.result).run)
    (hrun : Interleaves R pool s (l₁ ++ .finding j s₁ e.step y :: l₂) pool' s')
    (hfirst : ∀ t ∈ l₁, t.program = i) (hij : i ≠ j)
    (hwho : ∀ t ∈ l₂, t.program ≠ j → t.program = i)
    (hrepeats : repeatsLast y e.result = true) (hleft : ∃ t ∈ l₁, t.leaves e.own e.run = true) :
    e.stageOf j (l₁ ++ .finding j s₁ e.step y :: l₂) = .read y := by
  have hwaits : ∀ t ∈ l₁, t.program ≠ j := fun t ht htj ↦ hij ((hfirst t ht).symm.trans htj)
  obtain ⟨pool₁, s₂, hrun₁, hrun₂⟩ := hrun.split
  have hunder := h.interleaves hrun₁
  have htells := h.tells hrun₁ hfirst
  rw [List.nil_append] at hunder
  -- The step is found as it has been left.
  have hy : s₂.tables.step? e.step = some y := by
    obtain ⟨-, -, rfl, hadm, -⟩ := hrun₂.cons
    exact (Except.ok.inj hadm).symm
  have hgone : 5 ≤ (e.stageOf i l₁).rank := by
    obtain ⟨t, ht, hleaves⟩ := hleft
    exact hfirst t ht ▸ hunder.abides.le_rank ht hleaves
  obtain ⟨v, hnext, hbeyond⟩ := htells.beyond hunder.ground hgone hy hrepeats
  -- What remains of the handling is in vain.
  obtain ⟨pool₂, s₃, hlate, hrest⟩ := hunder.belated ((hrun₁.waits hwaits).trans hpool) hwaits hgone
    hbeyond hnext hrepeats hrun₂
  rw [List.append_cons]
  exact (hlate.interleaves hnext hwho hrest).stays

/-- **Whoever finds the result written has been overtaken**, if both handlings move the run on and
neither fails after it was granted a repetition. -/
theorem Underway.overtaken (h : e.Underway Settled [] pool s)
    (hpool : pool[j]? = some (setup.processResult e.result).run)
    (hrun : Interleaves R pool s log (results.map .done) s')
    (hwho : ∀ t ∈ log, t.program ≠ j → t.program = i) (hij : i ≠ j) (hi : i < results.length)
    (hfinds : FirstFinds e.step j y log) (hrepeats : repeatsLast y e.result = true)
    (hmi : 4 ≤ (e.stageOf i log).rank) (hmj : 4 ≤ (e.stageOf j log).rank) (shape : StepStructure) :
    Overtaken e.own e.run e.result log ∨ Excused e.own e.run e.result shape log results := by
  obtain ⟨l₁, s₁, l₂, rfl, hwaits⟩ := hfinds
  have hfirst : ∀ t ∈ l₁, t.program = i := fun t ht ↦
    hwho t (List.mem_append_left _ ht) (hwaits t ht)
  have hend := h.interleaves hrun
  rw [List.nil_append] at hend
  -- Had the step been left by then, the handling would have come too late.
  have hnotleft : ∀ t ∈ l₁, t.leaves e.own e.run = false := by
    intro t ht
    by_contra hleaves
    have hstays := h.stays hpool hrun hfirst hij
      (fun t ht ↦ hwho t (List.mem_append_right _ (List.mem_cons_of_mem _ ht))) hrepeats
      ⟨t, ht, Bool.not_eq_false _ ▸ hleaves⟩
    rw [hstays] at hmj
    simp at hmj
  by_cases hgone : 5 ≤ (e.stageOf i (l₁ ++ .finding j s₁ e.step y :: l₂)).rank
  · obtain ⟨t, ht, hti, hleaves⟩ := hend.abides.exists_leaves hgone
    refine .inl ⟨l₁, j, s₁, y, l₂, rfl, hrepeats, fun t ht ↦ ⟨hwaits t ht, hnotleft t ht⟩, t, ?_,
      hti ▸ hij, hleaves⟩
    rcases List.mem_append.1 ht with ht | ht
    · cases (hnotleft t ht).symm.trans hleaves
    · exact (List.mem_cons.1 ht).resolve_left fun h ↦ hij (hti ▸ h ▸ rfl)
  · -- The other handling has used up a repetition, and has failed before it has launched anything.
    have hgranted : e.stageOf i (l₁ ++ .finding j s₁ e.step y :: l₂) = .granted :=
      Stage.eq_granted hmi hgone
    obtain ⟨t, ht, hti, hgrants⟩ := hend.abides.exists_grants hgranted
    have hdone := hend.pursues i (.done results[i]) (by simp [hi])
    rw [hgranted] at hdone
    cases hresult : results[i] with
    | ok =>
      rw [hresult] at hdone
      exact absurd rfl hdone
    | error err =>
      refine .inr (.lapsed i err ?_ t ht hti hgrants fun t' ht' hti' ↦ ?_)
      · rw [List.getElem?_eq_getElem hi, hresult]
      · exact Bool.eq_false_iff.2 fun hleaves ↦ hgone (hti' ▸ hend.abides.le_rank ht' hleaves)

end Errand

variable {s s' : Scene} {setup : Setup} {R : Rule} {m : StepResult} {x : StepInstance}
variable {q : WorkflowInstance} {log : List Turn}

/-- **Two handlings of a result drive its run once**, unless one of them finds the result written
before the other has had the run leave the step. -/
theorem driven_once_or_overtaken (h : Reachable setup anyAnswer s)
    (hx : s.tables.step? m.stepInstanceId = some x)
    (hq : s.tables.run? x.workflowInstanceUid = some q) (hrunning : q.runStatus = .running)
    {r₁ r₂ : Except EngineError Unit}
    (hrun : Interleaves R [(setup.processResult m).run, (setup.processResult m).run] s log
      [.done r₁, .done r₂] s') :
    DrivenOnce ((s.tables.chainOf q.uid).map (·.uid)) m.stepInstanceId log ∨
      Overtaken ((s.tables.chainOf q.uid).map (·.uid)) q.uid m log ∨
        Excused ((s.tables.chainOf q.uid).map (·.uid)) q.uid m x.shape log [r₁, r₂] := by
  by_cases hguided : StepInstance.SelfGuided x.shape
  swap
  · exact .inr (.inr (.unguided hguided))
  obtain ⟨hxm, hxu⟩ := Store.Tables.mem_of_step? hx
  obtain ⟨hqm, hqu⟩ := Store.Tables.mem_of_run? hq
  let e : Errand :=
    { result := m
      run := q.uid
      own := (s.tables.chainOf q.uid).map (·.uid)
      mem := List.mem_map.2 ⟨x, Store.Tables.mem_chainOf.2 ⟨hxm, hqu.symm⟩, hxu⟩ }
  have hq : s.tables.run? q.uid = some q := hqu ▸ hq
  have hground : e.Ground s := Errand.ground_of_reachable h hq hrunning rfl fun y hy ↦
    Option.some.inj (hx.symm.trans hy) ▸ hguided
  have h₀ := Errand.underway_processResult setup hground
  have hrun : Interleaves R [(setup.processResult m).run, (setup.processResult m).run] s log
      ([r₁, r₂].map .done) s' := hrun
  have hend := h₀.interleaves hrun
  rw [List.nil_append] at hend
  have hlt : ∀ t ∈ log, t.program < 2 := hrun.program_lt
  -- Only if both handlings have moved the run on is there anything to be shown.
  by_cases hm₀ : 4 ≤ (e.stageOf 0 log).rank
  swap
  · exact .inl (hend.abides.drivenOnce hlt Nat.zero_ne_one (by decide) (by decide) (by omega))
  by_cases hm₁ : 4 ≤ (e.stageOf 1 log).rank
  swap
  · exact .inl (hend.abides.drivenOnce hlt Nat.one_ne_zero (by decide) (by decide) (by omega))
  -- Each of them has written the result or has found it written at its first reading.
  refine .inr ?_
  rcases hend.abides.entitled hm₁ with hw₁ | ⟨y, hfinds, hrepeats⟩
  swap
  · exact h₀.overtaken (i := 0) (j := 1) rfl hrun
      (fun t ht hne ↦ by have := hlt t ht; omega) Nat.zero_ne_one (by simp) hfinds
        hrepeats hm₀ hm₁ _
  rcases hend.abides.entitled hm₀ with hw₀ | ⟨y, hfinds, hrepeats⟩
  swap
  · exact h₀.overtaken (i := 1) (j := 0) rfl hrun
      (fun t ht hne ↦ by have := hlt t ht; omega) Nat.one_ne_zero (by simp) hfinds
        hrepeats hm₁ hm₀ _
  -- Both have written the result, so it names no attempt.
  have htwice : 1 < applied m.stepInstanceId log := by
    rw [applied, Errand.countP_eq_turnsOf hlt Nat.zero_ne_one (by decide) (by decide)]
    exact Nat.add_lt_add_of_le_of_lt (Nat.succ_le_of_lt hw₀) hw₁
  cases ha : m.attempt with
  | none => exact .inr (.unnamed ha htwice)
  | some a => exact absurd (h₀.applied_le_one hrun ha) (Nat.not_le_of_lt htwice)

/-- The first step of a run is answered, and the result is handled twice at the same time. The first
handling has just written it when the second one begins, and goes on when the second one is done. -/
def doubleHandling : List Turn × List (Except EngineError Unit) × Scene :=
  (willing.interleave 0 ([0, 0, 0] ++ List.replicate 12 1 ++ List.replicate 10 0)
    [(queueSetup.processResult firstAnswer).run, (queueSetup.processResult firstAnswer).run]
    underwayScene).get (by decide +kernel)

/-- The steps of the run that is under way. -/
def underwaySteps : List Uid := (underwayScene.tables.chainOf underwayRun.uid).map (·.uid)

/-- Nothing has failed, and both handlings have launched the second step and handed its work
over. -/
theorem overtaken_of_doubleHandling :
    (Reachable queueSetup anyAnswer underwayScene ∧
      underwayScene.tables.step? firstAnswer.stepInstanceId = some underwayStep ∧
      underwayScene.tables.run? underwayStep.workflowInstanceUid = some underwayRun ∧
      underwayRun.runStatus = .running ∧
      Interleaves noFailure [(queueSetup.processResult firstAnswer).run,
        (queueSetup.processResult firstAnswer).run] underwayScene doubleHandling.1
        [.done (.ok ()), .done (.ok ())] doubleHandling.2.2) ∧
    doubleHandling.1.countP (Turn.launches underwaySteps) = 2 ∧
    doubleHandling.1.countP Turn.handsOver = 2 ∧
    Overtaken underwaySteps underwayRun.uid firstAnswer doubleHandling.1 := by
  have hreach : Reachable queueSetup anyAnswer underwayScene :=
    (Collaborators.reachable_get _).weaken fun _ _ _ ↦ trivial
  have hx : underwayScene.tables.step? firstAnswer.stepInstanceId = some underwayStep := by
    decide +kernel
  have hq : underwayScene.tables.run? underwayStep.workflowInstanceUid = some underwayRun := by
    decide +kernel
  have hrunning : underwayRun.runStatus = .running := by decide +kernel
  have hdone : doubleHandling.2.1 = [.ok (), .ok ()] := by decide +kernel
  have hrun : Interleaves noFailure [(queueSetup.processResult firstAnswer).run,
      (queueSetup.processResult firstAnswer).run] underwayScene doubleHandling.1
      (doubleHandling.2.1.map .done) doubleHandling.2.2 :=
    (willing.interleaves_get _).weaken fun _ _ ↦ Collaborators.noFailure_of_single
  rw [hdone] at hrun
  have hlaunches : doubleHandling.1.countP (Turn.launches underwaySteps) = 2 := by decide +kernel
  refine ⟨⟨hreach, hx, hq, hrunning, hrun⟩, hlaunches, by decide +kernel, ?_⟩
  rcases driven_once_or_overtaken hreach hx hq hrunning hrun with honce | hovertaken | hexcused
  · exact absurd honce.launches (by rw [← underwaySteps, hlaunches]; decide)
  · exact hovertaken
  · cases hexcused with
    | unnamed hnone => cases hnone
    | unguided hforeign =>
      exact absurd (StepInstance.selfGuided_of_isPlainlyGuided (by decide +kernel)) hforeign
    | lapsed k err hfailed => rcases k with _ | _ | k <;> cases hfailed

end Engine

end Orchestration
