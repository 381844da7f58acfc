import Orchestration.Engine.Dispatch
import Orchestration.Proofs.NewChain

/-!
# Runs that stand

The invariant of the engine is a statement about the records of the store, the identifiers given
out, and the dispatches so far. It speaks of those runs only that are guided, that is, whose stop
conditions name no other step; which ones they are is a parameter `G`. A guided run has a chain that
stands somewhere (`RunStands`), and no step of it has been dispatched beyond the attempt that it is
in (`Stands`).

What the invariant says of a run depends on its status. Before a run is running its chain is fresh.
A paused run may hold a step, and may go on from that step when it is resumed. A run that is running
holds none, which is why it can be paused at any time.

Below, each way of changing the records is shown to keep the invariant under the conditions that the
callers of the store provide. A run may be changed as long as its new status demands nothing new
(`Stands.putRun`). A step may be changed if its run stands there (`Stands.putStep`).
-/

namespace Orchestration

namespace Engine

open Chain

/-! ## Dispatches -/

/-- Work that was to be handed over: an attempt of a step, with its input, of a function. -/
structure Dispatch where
  step : StepInstance
  input : Json.Object
  function : FunctionInfo
deriving DecidableEq, Repr, Inhabited

/-- The number of the attempt that is dispatched. -/
def Dispatch.attempt (d : Dispatch) : Int := attemptOf d.step

def Setup.parcelOf (setup : Setup) (d : Dispatch) : Parcel :=
  match setup.mode with
  | .queue => .message .work (workRequest d.step d.input d.function).toJson.text
  | .push =>
    .request (d.function.serviceUrl.getD "") (setup.pushRequest d.step d.input).toJson.text

def Parcel.handsOver : Parcel → Bool
  | .message channel _ => channel == .work
  | .request .. => true

theorem handsOver_parcelOf (setup : Setup) (d : Dispatch) :
    (setup.parcelOf d).handsOver = true := by
  unfold Setup.parcelOf
  cases setup.mode with
  | queue => rfl
  | push => rfl

/-- The parcels that have handed work over, or were to. -/
def Scene.handOvers (s : Scene) : List Parcel := (s.sent.map (·.parcel)).filter Parcel.handsOver

/-! ## The invariant -/

/-- The chain of a guided run. -/
structure ChainStands (cs : List StepInstance) : Prop where
  linked : Linked cs
  headed : Headed cs
  guided : ∀ s ∈ cs, StepInstance.SelfGuided s.shape
  stands : ∃ u, StandsAt cs u

/-- A guided run with its chain. -/
structure RunStands (r : WorkflowInstance) (cs : List StepInstance) : Prop where
  chain : ChainStands cs
  /-- Nothing has happened to the steps of a run that is not yet running. -/
  fresh : r.runStatus = .new ∨ r.runStatus = .deployingFunctions → ∀ s ∈ cs, s.Fresh
  /-- A paused run may go on from the step that it holds. -/
  held : r.runStatus = .paused → ∀ u, r.heldStepInstanceUid = some u → Open cs u
  /-- A run that may be paused holds no step. -/
  unheld : r.runStatus = .new ∨ r.runStatus = .deployingFunctions ∨ r.runStatus = .running →
    r.heldStepInstanceUid = none

/-- No step has been dispatched beyond the attempt that it is in. -/
def Within (s : StepInstance) (attempt : Int) : Prop :=
  attempt ≤ s.runCount ∨ s.runStatus = .running ∧ attempt ≤ s.runCount + 1

/-- The records of the store after some dispatches, with the identifiers given out so far. -/
structure Stands (G : Uid → Prop) (t : Store.Tables) (issued : List Uid) (ds : List Dispatch) :
    Prop where
  keyed : t.Keyed
  runsIssued : ∀ r ∈ t.runs, r.uid ∈ issued
  stepsIssued : ∀ s ∈ t.steps, s.uid ∈ issued
  /-- What a step names as the next one is a step of the same run. -/
  links : ∀ s ∈ t.steps, ∀ u, s.nextStepId = some u →
    ∃ n ∈ t.steps, n.uid = u ∧ n.workflowInstanceUid = s.workflowInstanceUid
  /-- What a run holds is one of its own steps. -/
  holds : ∀ r ∈ t.runs, ∀ u, r.heldStepInstanceUid = some u →
    ∃ s ∈ t.steps, s.uid = u ∧ s.workflowInstanceUid = r.uid
  run : ∀ r ∈ t.runs, G r.uid → RunStands r (t.chainOf r.uid)
  dispatchesIssued : ∀ d ∈ ds, d.step.uid ∈ issued
  within : ∀ d ∈ ds, ∀ s ∈ t.steps, s.uid = d.step.uid → G s.workflowInstanceUid →
    Within s d.attempt
  /-- The dispatches of one step have ascending attempts. -/
  ascending : ds.Pairwise fun d e ↦
    G e.step.workflowInstanceUid → d.step.uid = e.step.uid → d.attempt < e.attempt

/-- The invariant of the engine. -/
def Standing (setup : Setup) (G : Uid → Prop) (s : Scene) : Prop :=
  ∃ ds, Stands G s.tables s.issued ds ∧ s.handOvers = ds.map setup.parcelOf

theorem standing_empty (setup : Setup) (G : Uid → Prop) : Standing setup G {} :=
  ⟨[],
    { keyed := ⟨List.nodup_nil, List.nodup_nil, by simp⟩
      runsIssued := by simp
      stepsIssued := by simp
      links := by simp
      holds := by simp
      run := by simp
      dispatchesIssued := by simp
      within := by simp
      ascending := .nil }, rfl⟩

/-! ## Changing a run -/

variable {G : Uid → Prop} {t : Store.Tables} {issued : List Uid} {ds : List Dispatch}
variable {r r' : WorkflowInstance} {cs : List StepInstance}

theorem RunStands.of_eq (h : RunStands r cs) (hs : r'.runStatus = r.runStatus)
    (hh : r'.heldStepInstanceUid = r.heldStepInstanceUid) : RunStands r' cs where
  chain := h.chain
  fresh hn := h.fresh (hs ▸ hn)
  held hn u hu := h.held (hs ▸ hn) u (hh ▸ hu)
  unheld hn := hh ▸ h.unheld (hs ▸ hn)

theorem RunStands.of_terminal (h : RunStands r cs) (hs : r'.runStatus.isTerminal = true) :
    RunStands r' cs where
  chain := h.chain
  fresh hn := by rcases hn with hn | hn <;> simp [hn, RunStatus.isTerminal] at hs
  held hn := by simp [hn, RunStatus.isTerminal] at hs
  unheld hn := by rcases hn with hn | hn | hn <;> simp [hn, RunStatus.isTerminal] at hs

theorem RunStands.of_unheld (h : RunStands r cs) (hh : r'.heldStepInstanceUid = none)
    (hs : r'.runStatus = .running ∨ r'.runStatus = .paused) : RunStands r' cs where
  chain := h.chain
  fresh hn := by rcases hs with hs | hs <;> simp [hs] at hn
  held _ u hu := by
    rw [hh] at hu
    cases hu
  unheld _ := hh

/-- A run whose chain is fresh, and that holds nothing, may begin to wait. -/
theorem RunStands.of_waiting (h : RunStands r cs) (hh : r'.heldStepInstanceUid = none)
    (hf : ∀ s ∈ cs, s.Fresh) (hs : r'.runStatus = .deployingFunctions) : RunStands r' cs where
  chain := h.chain
  fresh _ := hf
  held hn := by
    rw [hs] at hn
    cases hn
  unheld _ := hh

theorem RunStands.of_open (h : RunStands r cs) (hs : r'.runStatus = .paused) {u : Uid}
    (hu : r'.heldStepInstanceUid = some u) (ho : Open cs u) : RunStands r' cs where
  chain := h.chain
  fresh hn := by simp [hs] at hn
  held _ v hv := by
    obtain rfl : u = v := Option.some.inj (hu.symm.trans hv)
    exact ho
  unheld hn := by simp [hs] at hn

/-- Writing over a run that stands afterwards as well keeps the invariant. -/
theorem Stands.putRun (h : Stands G t issued ds) (hr : r ∈ t.runs) (hu : r'.uid = r.uid)
    (hheld : ∀ u, r'.heldStepInstanceUid = some u → r.heldStepInstanceUid = some u ∨
      ∃ s ∈ t.steps, s.uid = u ∧ s.workflowInstanceUid = r.uid)
    (hrun : G r.uid → RunStands r (t.chainOf r.uid) → RunStands r' (t.chainOf r.uid)) :
    Stands G (t.putRun r') issued ds where
  keyed := h.keyed.putRun r'
  runsIssued q hq := by
    rcases Store.mem_overwrite hq with rfl | ⟨hq, -⟩
    · exact hu ▸ h.runsIssued r hr
    · exact h.runsIssued q hq
  stepsIssued := h.stepsIssued
  links := h.links
  holds q hq u hqu := by
    rcases Store.mem_overwrite hq with rfl | ⟨hq, -⟩
    · rw [hu]
      exact (hheld u hqu).elim (h.holds r hr u) id
    · exact h.holds q hq u hqu
  run q hq hG := by
    rw [Store.Tables.chainOf_putRun]
    rcases Store.mem_overwrite hq with rfl | ⟨hq, -⟩
    · rw [hu] at hG ⊢
      exact hrun hG (h.run r hr hG)
    · exact h.run q hq hG
  dispatchesIssued := h.dispatchesIssued
  within := h.within
  ascending := h.ascending

/-! ## Changing a step -/

variable {s s' : StepInstance} {u : Uid}

/-- Two states of one step: what the definition of the step has fixed is the same in both. -/
structure SameStep (s s' : StepInstance) : Prop where
  uid : s'.uid = s.uid
  run : s'.workflowInstanceUid = s.workflowInstanceUid
  shape : s'.shape = s.shape
  label : s'.runOrderLabel = s.runOrderLabel
  next : s'.nextStepId = s.nextStepId

theorem SameStep.trans {s'' : StepInstance} (h : SameStep s s') (h' : SameStep s' s'') :
    SameStep s s'' :=
  ⟨h'.uid.trans h.uid, h'.run.trans h.run, h'.shape.trans h.shape, h'.label.trans h.label,
    h'.next.trans h.next⟩

theorem ChainStands.overwrite (h : ChainStands cs) (hcs : (cs.map (·.uid)).Nodup) (hs : s ∈ cs)
    (hstep : SameStep s s') (hst : StandsAt cs s.uid) :
    ChainStands (Store.overwrite (·.uid) s' cs) where
  linked := by
    refine Linked.congr (Store.map_overwrite fun y hy hk ↦ ?_) h.linked
    obtain rfl : y = s := List.inj_on_of_nodup_map hcs hy hs (hk.trans hstep.uid)
    rw [hstep.uid, hstep.next]
  headed := by
    refine Headed.congr (Store.map_overwrite fun y hy hk ↦ ?_) h.headed
    obtain rfl : y = s := List.inj_on_of_nodup_map hcs hy hs (hk.trans hstep.uid)
    exact hstep.label
  guided y hy := by
    rcases Store.mem_overwrite hy with rfl | ⟨hy, -⟩
    · exact hstep.shape ▸ h.guided s hs
    · exact h.guided y hy
  stands := ⟨s.uid, hst.overwrite hcs hstep.uid⟩

/-- A step of a guided run may change its state: the run stands at the step and is under way, and
the step loses no attempt. -/
structure Moves (t : Store.Tables) (s s' : StepInstance) : Prop where
  stands : StandsAt (t.chainOf s.workflowInstanceUid) s.uid
  begun : ∀ r ∈ t.runs, r.uid = s.workflowInstanceUid →
    r.runStatus ≠ .new ∧ r.runStatus ≠ .deployingFunctions
  held : ∀ r ∈ t.runs, r.uid = s.workflowInstanceUid → r.runStatus = .paused →
    ∀ u, r.heldStepInstanceUid = some u → u = s.uid
  counts : s'.runCount = s.runCount + 1 ∨
    s'.runCount = s.runCount ∧ (s.runStatus = .running → s'.runStatus = .running)

theorem Within.of_counts {n : Int} (h : Within s n)
    (hc : s'.runCount = s.runCount + 1 ∨
      s'.runCount = s.runCount ∧ (s.runStatus = .running → s'.runStatus = .running)) :
    Within s' n := by
  rcases hc with hc | ⟨hc, hr⟩
  · refine .inl ?_
    rcases h with h | ⟨-, h⟩
    · omega
    · omega
  · rcases h with h | ⟨hs, h⟩
    · exact .inl (by omega)
    · exact .inr ⟨hr hs, by omega⟩

private theorem exists_overwrite (hu : s'.uid = s.uid)
    (hw : s'.workflowInstanceUid = s.workflowInstanceUid) {v w : Uid}
    (ht : t.Keyed) (hs : s ∈ t.steps)
    (h : ∃ y ∈ t.steps, y.uid = v ∧ y.workflowInstanceUid = w) :
    ∃ y ∈ (t.putStep s').steps, y.uid = v ∧ y.workflowInstanceUid = w := by
  obtain ⟨y, hy, rfl, rfl⟩ := h
  by_cases hys : y.uid = s'.uid
  · obtain rfl := ht.eq_of_step hy hs (hys.trans hu)
    exact ⟨s', Store.mem_overwrite_self hy hys, hu, hw⟩
  · exact ⟨y, Store.mem_overwrite_of_ne hy hys, rfl, rfl⟩

theorem Stands.putStep (h : Stands G t issued ds) (hs : s ∈ t.steps) (hstep : SameStep s s')
    (hG : G s.workflowInstanceUid → Moves t s s') : Stands G (t.putStep s') issued ds where
  keyed := h.keyed.putStep hs hstep.run
  runsIssued := h.runsIssued
  stepsIssued y hy := by
    rcases Store.mem_overwrite hy with rfl | ⟨hy, -⟩
    · exact hstep.uid ▸ h.stepsIssued s hs
    · exact h.stepsIssued y hy
  links y hy v hv := by
    refine exists_overwrite hstep.uid hstep.run h.keyed hs ?_
    rcases Store.mem_overwrite hy with rfl | ⟨hy, -⟩
    · rw [hstep.run]
      exact h.links s hs v (hstep.next ▸ hv)
    · exact h.links y hy v hv
  holds r hr v hv := exists_overwrite hstep.uid hstep.run h.keyed hs (h.holds r hr v hv)
  run r hr hGr := by
    have hrun := h.run r hr hGr
    by_cases hw : r.uid = s.workflowInstanceUid
    · have hm := hG (hw ▸ hGr)
      have hcs := h.keyed.nodup_chainOf s.workflowInstanceUid
      rw [hw] at hrun ⊢
      rw [h.keyed.chainOf_putStep hs hstep.uid hstep.run]
      have hmem : s ∈ t.chainOf s.workflowInstanceUid := Store.Tables.mem_chainOf.2 ⟨hs, rfl⟩
      obtain ⟨hnew, hdep⟩ := hm.begun r hr hw
      refine ⟨hrun.chain.overwrite hcs hmem hstep hm.stands, fun hn ↦ ?_, fun hn v hv ↦ ?_,
        hrun.unheld⟩
      · exact absurd hn (by simp [hnew, hdep])
      · obtain rfl := hm.held r hr hw hn v hv
        exact .inl (hm.stands.overwrite hcs hstep.uid)
    · rw [h.keyed.chainOf_putStep_of_ne hs hstep.uid hstep.run hw]
      exact hrun
  dispatchesIssued := h.dispatchesIssued
  within d hd y hy hu hGy := by
    rcases Store.mem_overwrite hy with rfl | ⟨hy, -⟩
    · rw [hstep.run] at hGy
      rw [hstep.uid] at hu
      exact (h.within d hd s hs hu hGy).of_counts (hG hGy).counts
    · exact h.within d hd y hy hu hGy
  ascending := h.ascending

/-- The run of a step that is running stands there, so the step may take its result. -/
theorem Stands.moves_of_running (h : Stands G t issued ds) (hs : s ∈ t.steps)
    (hr : s.runStatus = .running) (hc : s'.runCount = s.runCount + 1)
    (hG : G s.workflowInstanceUid) : Moves t s s' := by
  have hmem : s ∈ t.chainOf s.workflowInstanceUid := Store.Tables.mem_chainOf.2 ⟨hs, rfl⟩
  have hrun : ∀ r ∈ t.runs, r.uid = s.workflowInstanceUid →
      RunStands r (t.chainOf s.workflowInstanceUid) :=
    fun r hr hu ↦ hu ▸ h.run r hr (hu ▸ hG)
  refine ⟨?_, fun r hrm hu ↦ ?_, fun r hrm hu hp v hv ↦ ?_, .inl hc⟩
  · obtain ⟨r, hrm, hu⟩ := h.keyed.owned s hs
    obtain ⟨v, hv⟩ := (hrun r hrm hu).chain.stands
    exact (hv.eq_of_running hmem hr).symm ▸ hv
  · have hfresh := (hrun r hrm hu).fresh
    refine ⟨fun hn ↦ ?_, fun hn ↦ ?_⟩
    · exact (hfresh (.inl hn) s hmem).ne_running hr
    · exact (hfresh (.inr hn) s hmem).ne_running hr
  · exact ((hrun r hrm hu).held hp v hv).standsAt_of_running hmem hr (h.keyed.nodup_chainOf _)

/-! ### Launching -/

/-- A step may be launched: its run stands at it and is under way, and no attempt of it is. -/
def Launchable (G : Uid → Prop) (t : Store.Tables) (u : Uid) : Prop :=
  ∀ s ∈ t.steps, s.uid = u → G s.workflowInstanceUid →
    Ready (t.chainOf s.workflowInstanceUid) u ∧
      ∀ r ∈ t.runs, r.uid = s.workflowInstanceUid →
        r.runStatus ≠ .new ∧ r.runStatus ≠ .deployingFunctions ∧ r.runStatus ≠ .paused

theorem Launchable.moves (h : Launchable G t s.uid) (hs : s ∈ t.steps)
    (hc : s'.runCount = s.runCount) (hG : G s.workflowInstanceUid) : Moves t s s' := by
  obtain ⟨hready, hrun⟩ := h s hs rfl hG
  have hmem : s ∈ t.chainOf s.workflowInstanceUid := Store.Tables.mem_chainOf.2 ⟨hs, rfl⟩
  refine ⟨hready.stands, fun r hr hu ↦ ?_, fun r hr hu hp ↦ ?_, .inr ⟨hc, fun hr ↦ ?_⟩⟩
  · exact ⟨(hrun r hr hu).1, (hrun r hr hu).2.1⟩
  · exact absurd hp (hrun r hr hu).2.2
  · exact absurd hr (hready.idle s hmem rfl)

/-- A step that changes without getting an attempt may be launched as before. -/
theorem Launchable.putStep (h : Launchable G t s.uid) (ht : t.Keyed) (hs : s ∈ t.steps)
    (hstep : SameStep s s') (hr : s'.runStatus = s.runStatus) :
    Launchable G (t.putStep s') s.uid := by
  intro y hy hu hG
  have hy' : y = s' := by
    rcases Store.mem_overwrite hy with rfl | ⟨-, hne⟩
    · rfl
    · exact absurd (hu.trans hstep.uid.symm) hne
  subst hy'
  rw [hstep.run] at hG ⊢
  obtain ⟨hready, hrun⟩ := h s hs rfl hG
  rw [ht.chainOf_putStep hs hstep.uid hstep.run]
  refine ⟨⟨hready.stands.overwrite (ht.nodup_chainOf _) hstep.uid, fun z hz hzu ↦ ?_⟩, hrun⟩
  rcases Store.mem_overwrite hz with rfl | ⟨hz, hne⟩
  · rw [hr]
    exact hready.idle s (Store.Tables.mem_chainOf.2 ⟨hs, rfl⟩) rfl
  · exact absurd (hzu.trans hstep.uid.symm) hne

/-- The first step of a run that is under way may be launched while it is new. -/
theorem Stands.launchable_first (h : Stands G t issued ds) {run : Uid}
    (hs : s ∈ t.chainOf run) (hl : s.runOrderLabel = .first) (hnew : G run → s.runStatus = .new)
    (hrun : ∀ r ∈ t.runs, r.uid = run →
      r.runStatus ≠ .new ∧ r.runStatus ≠ .deployingFunctions ∧ r.runStatus ≠ .paused) :
    Launchable G t s.uid := by
  obtain ⟨hmem, rfl⟩ := Store.Tables.mem_chainOf.1 hs
  intro y hy hu hG
  obtain rfl := h.keyed.eq_of_step hy hmem hu
  obtain ⟨r, hr, hru⟩ := h.keyed.owned y hy
  have hstands := (h.run r hr (hru ▸ hG)).chain
  rw [hru] at hstands
  obtain ⟨v, hv⟩ := hstands.stands
  have hnl : ¬y.Left := fun hleft ↦ hleft.ne_new (hnew hG)
  refine ⟨⟨hv.eq_first hstands.headed hs hl hnl ▸ hv, fun z hz hzu ↦ ?_⟩, hrun⟩
  rw [h.keyed.eq_of_step (Store.Tables.mem_chainOf.1 hz).1 hy hzu, hnew hG]
  decide

/-- No dispatch of a launchable step is of a later attempt than the one it has been in. -/
theorem Stands.attempt_le (h : Stands G t issued ds) (hl : Launchable G t s.uid) (hs : s ∈ t.steps)
    (hG : G s.workflowInstanceUid) {d : Dispatch} (hd : d ∈ ds) (hu : d.step.uid = s.uid) :
    d.attempt ≤ s.runCount := by
  rcases h.within d hd s hs hu.symm hG with hle | ⟨hr, -⟩
  · exact hle
  · have hmem : s ∈ t.chainOf s.workflowInstanceUid := Store.Tables.mem_chainOf.2 ⟨hs, rfl⟩
    exact absurd hr ((hl s hs rfl hG).1.idle s hmem rfl)

theorem Stands.dispatch (h : Stands G t issued ds) {d : Dispatch} (hs : d.step ∈ t.steps)
    (hr : d.step.runStatus = .running)
    (hle : G d.step.workflowInstanceUid →
      ∀ e ∈ ds, e.step.uid = d.step.uid → e.attempt ≤ d.step.runCount) :
    Stands G t issued (ds ++ [d]) where
  keyed := h.keyed
  runsIssued := h.runsIssued
  stepsIssued := h.stepsIssued
  links := h.links
  holds := h.holds
  run := h.run
  dispatchesIssued e he := by
    rcases List.mem_append.1 he with he | he
    · exact h.dispatchesIssued e he
    · rw [List.mem_singleton.1 he]
      exact h.stepsIssued d.step hs
  within e he y hy hu hG := by
    rcases List.mem_append.1 he with he | he
    · exact h.within e he y hy hu hG
    · obtain rfl := List.mem_singleton.1 he
      rw [h.keyed.eq_of_step hy hs hu]
      exact .inr ⟨hr, Int.le_refl _⟩
  ascending := by
    refine List.pairwise_append.2 ⟨h.ascending, List.pairwise_singleton _ _, fun e he d' hd' ↦ ?_⟩
    obtain rfl := List.mem_singleton.1 hd'
    intro hG hu
    exact Int.lt_add_one_of_le (hle hG e he hu)

/-! ## Making and removing runs -/

/-- The tables with a run and its steps put in, none of which has been there. -/
def withRun (t : Store.Tables) (run : WorkflowInstance) (steps : List StepInstance) :
    Store.Tables :=
  { runs := t.runs ++ [run], steps := t.steps ++ steps }

private theorem foldl_insertStep (t : Store.Tables) {steps : List StepInstance}
    (hnd : (steps.map (·.uid)).Nodup) (hnew : ∀ x ∈ steps, ∀ s ∈ t.steps, s.uid ≠ x.uid) :
    steps.foldl Store.Tables.insertStep t = { t with steps := t.steps ++ steps } := by
  induction steps generalizing t with
  | nil => simp
  | cons x rest ih =>
    obtain ⟨hx, hrest⟩ := List.nodup_cons.1 hnd
    have hnone : (t.step? x.uid).isSome = false := by
      rw [Bool.eq_false_iff]
      intro hsome
      obtain ⟨s, hs⟩ := Option.isSome_iff_exists.1 hsome
      obtain ⟨hmem, hu⟩ := Store.Tables.mem_of_step? hs
      exact hnew x List.mem_cons_self s hmem hu
    have hput : t.insertStep x = { t with steps := t.steps ++ [x] } := by
      rw [Store.Tables.insertStep, hnone]
      rfl
    rw [List.foldl_cons, hput, ih _ hrest, List.append_assoc, List.singleton_append]
    intro y hy s hs
    rcases List.mem_append.1 hs with hs | hs
    · exact hnew y (List.mem_cons_of_mem _ hy) s hs
    · obtain rfl := List.mem_singleton.1 hs
      exact fun hu ↦ hx (List.mem_map.2 ⟨y, hy, hu.symm⟩)

theorem answer_insertRun {run : WorkflowInstance} {steps : List StepInstance}
    (hr : ∀ r ∈ t.runs, r.uid ≠ run.uid) (hnd : (steps.map (·.uid)).Nodup)
    (hnew : ∀ x ∈ steps, ∀ s ∈ t.steps, s.uid ≠ x.uid) :
    t.answer (.insertRun run steps) = (.ok (), withRun t run steps) := by
  have hnone : (t.run? run.uid).isSome = false := by
    rw [Bool.eq_false_iff]
    intro hsome
    obtain ⟨r, hr'⟩ := Option.isSome_iff_exists.1 hsome
    obtain ⟨hmem, hu⟩ := Store.Tables.mem_of_run? hr'
    exact hr r hmem hu
  have hfold := foldl_insertStep { t with runs := t.runs ++ [run] } hnd hnew
  rw [Store.Tables.answer, hnone, if_neg (by simp), hfold]
  rfl

/-- The chain of a run that has been put in is what was put in with it. -/
theorem chainOf_withRun_self (ht : t.Keyed) {run : WorkflowInstance} {steps : List StepInstance}
    (hr : ∀ r ∈ t.runs, r.uid ≠ run.uid) (hown : ∀ x ∈ steps, x.workflowInstanceUid = run.uid) :
    (withRun t run steps).chainOf run.uid = steps := by
  have hold : t.steps.filter (fun s ↦ decide (s.workflowInstanceUid = run.uid)) = [] := by
    refine List.filter_eq_nil_iff.2 fun s hs hw ↦ ?_
    obtain ⟨r, hrm, hu⟩ := ht.owned s hs
    exact hr r hrm (hu.trans (of_decide_eq_true hw))
  have hall : steps.filter (fun s ↦ decide (s.workflowInstanceUid = run.uid)) = steps :=
    List.filter_eq_self.2 fun s hs ↦ decide_eq_true (hown s hs)
  rw [Store.Tables.chainOf, withRun, List.filter_append, hold, hall, List.nil_append]

/-- Putting a run in leaves the chains of all other runs as they are. -/
theorem chainOf_withRun_of_ne {run : WorkflowInstance} {steps : List StepInstance} {v : Uid}
    (hown : ∀ x ∈ steps, x.workflowInstanceUid = run.uid) (hv : v ≠ run.uid) :
    (withRun t run steps).chainOf v = t.chainOf v := by
  have hnew : steps.filter (fun s ↦ decide (s.workflowInstanceUid = v)) = [] :=
    List.filter_eq_nil_iff.2 fun s hs hw ↦ hv ((of_decide_eq_true hw).symm.trans (hown s hs))
  rw [Store.Tables.chainOf, Store.Tables.chainOf, withRun, List.filter_append, hnew,
    List.append_nil]

theorem keyed_withRun (ht : t.Keyed) {run : WorkflowInstance} {steps : List StepInstance}
    (hr : ∀ r ∈ t.runs, r.uid ≠ run.uid) (hnd : (steps.map (·.uid)).Nodup)
    (hnew : ∀ x ∈ steps, ∀ s ∈ t.steps, s.uid ≠ x.uid)
    (hown : ∀ x ∈ steps, x.workflowInstanceUid = run.uid) : (withRun t run steps).Keyed where
  runs := by
    show ((t.runs ++ [run]).map (·.uid)).Nodup
    rw [List.map_append]
    refine List.nodup_append.2 ⟨ht.runs, List.nodup_singleton _, fun u hu v hv huv ↦ ?_⟩
    obtain ⟨r, hrm, rfl⟩ := List.mem_map.1 hu
    exact hr r hrm (huv.trans (List.mem_singleton.1 hv))
  steps := by
    show ((t.steps ++ steps).map (·.uid)).Nodup
    rw [List.map_append]
    refine List.nodup_append.2 ⟨ht.steps, hnd, fun u hu v hv huv ↦ ?_⟩
    obtain ⟨s, hsm, rfl⟩ := List.mem_map.1 hu
    obtain ⟨x, hx, rfl⟩ := List.mem_map.1 hv
    exact hnew x hx s hsm huv
  owned s hsm := by
    rcases List.mem_append.1 hsm with hsm | hsm
    · obtain ⟨r, hrm, hu⟩ := ht.owned s hsm
      exact ⟨r, List.mem_append_left _ hrm, hu⟩
    · exact ⟨run, List.mem_append_right _ (List.mem_singleton_self _), (hown s hsm).symm⟩

/-- A run may be put in whose chain stands, under identifiers that nothing has had so far. -/
theorem Stands.withRun (h : Stands G t issued ds) {issued' : List Uid}
    {run : WorkflowInstance} {steps : List StepInstance} (hi : issued ⊆ issued')
    (hr : run.uid ∈ issued' ∧ run.uid ∉ issued)
    (hs : ∀ x ∈ steps, x.uid ∈ issued' ∧ x.uid ∉ issued) (hnd : (steps.map (·.uid)).Nodup)
    (hown : ∀ x ∈ steps, x.workflowInstanceUid = run.uid) (hlinked : Linked steps)
    (hheld : run.heldStepInstanceUid = none) (hG : G run.uid → RunStands run steps) :
    Stands G (withRun t run steps) issued' ds := by
  have hrne : ∀ r ∈ t.runs, r.uid ≠ run.uid := fun r hrm hu ↦ hr.2 (hu ▸ h.runsIssued r hrm)
  have hsne : ∀ x ∈ steps, ∀ s ∈ t.steps, s.uid ≠ x.uid :=
    fun x hx s hsm hu ↦ (hs x hx).2 (hu ▸ h.stepsIssued s hsm)
  refine ⟨keyed_withRun h.keyed hrne hnd hsne hown, fun r hrm ↦ ?_, fun s hsm ↦ ?_,
    fun s hsm v hv ↦ ?_, fun r hrm v hv ↦ ?_, fun r hrm hGr ↦ ?_,
    fun d hd ↦ hi (h.dispatchesIssued d hd), fun d hd s hsm hu hGs ↦ ?_, h.ascending⟩
  · rcases List.mem_append.1 hrm with hrm | hrm
    · exact hi (h.runsIssued r hrm)
    · exact List.mem_singleton.1 hrm ▸ hr.1
  · rcases List.mem_append.1 hsm with hsm | hsm
    · exact hi (h.stepsIssued s hsm)
    · exact (hs s hsm).1
  · rcases List.mem_append.1 hsm with hsm | hsm
    · obtain ⟨n, hn, hu, hw⟩ := h.links s hsm v hv
      exact ⟨n, List.mem_append_left _ hn, hu, hw⟩
    · obtain ⟨n, hn, hu⟩ := hlinked.exists_next hsm hv
      exact ⟨n, List.mem_append_right _ hn, hu, (hown n hn).trans (hown s hsm).symm⟩
  · rcases List.mem_append.1 hrm with hrm | hrm
    · obtain ⟨s, hsm, hu, hw⟩ := h.holds r hrm v hv
      exact ⟨s, List.mem_append_left _ hsm, hu, hw⟩
    · rw [List.mem_singleton.1 hrm, hheld] at hv
      cases hv
  · rcases List.mem_append.1 hrm with hrm | hrm
    · rw [chainOf_withRun_of_ne hown (hrne r hrm)]
      exact h.run r hrm hGr
    · obtain rfl := List.mem_singleton.1 hrm
      rw [chainOf_withRun_self h.keyed hrne hown]
      exact hG hGr
  · rcases List.mem_append.1 hsm with hsm | hsm
    · exact h.within d hd s hsm hu hGs
    · exact absurd (hu ▸ h.dispatchesIssued d hd) (hs s hsm).2

/-- Removing runs with their steps leaves the chains of all other runs as they are. -/
theorem chainOf_remove {doomed : List Uid} {v : Uid} (hv : v ∉ doomed) :
    (t.remove doomed).chainOf v = t.chainOf v := by
  rw [Store.Tables.chainOf, Store.Tables.chainOf, Store.Tables.remove, List.filter_filter]
  refine List.filter_congr fun s _ ↦ ?_
  by_cases hw : s.workflowInstanceUid = v
  · simp [hw, hv]
  · simp [hw]

theorem chainOf_remove_of_mem {doomed : List Uid} {u : Uid} (hu : u ∈ doomed) :
    (t.remove doomed).chainOf u = [] := by
  refine List.eq_nil_iff_forall_not_mem.2 fun x hx ↦ ?_
  obtain ⟨hmem, rfl⟩ := Store.Tables.mem_chainOf.1 hx
  have hkept := (List.mem_filter.1 hmem).2
  rw [List.contains_iff_mem.2 hu] at hkept
  cases hkept

theorem run?_remove {doomed : List Uid} {u : Uid} :
    (t.remove doomed).run? u = if u ∈ doomed then none else t.run? u := by
  have hfind : (t.remove doomed).run? u =
      (t.runs.filter fun r ↦ !doomed.contains r.uid).find? fun r ↦ r.uid = u := rfl
  rw [hfind, List.find?_filter]
  split
  · next hu =>
    refine List.find?_eq_none.2 fun r _ ↦ ?_
    by_cases hr : r.uid = u
    · simp [hr, hu]
    · simp [hr]
  · next hu =>
    refine congrArg (fun p ↦ t.runs.find? p) (funext fun r ↦ ?_)
    by_cases hr : r.uid = u
    · simp [hr, hu]
    · simp [hr]

theorem Stands.remove (h : Stands G t issued ds) (doomed : List Uid) :
    Stands G (t.remove doomed) issued ds where
  keyed := by
    refine ⟨h.keyed.runs.sublist (List.filter_sublist.map _),
      h.keyed.steps.sublist (List.filter_sublist.map _), fun s hs ↦ ?_⟩
    obtain ⟨hsm, hkept⟩ := List.mem_filter.1 hs
    obtain ⟨r, hr, hu⟩ := h.keyed.owned s hsm
    exact ⟨r, List.mem_filter.2 ⟨hr, by rw [hu]; exact hkept⟩, hu⟩
  runsIssued r hr := h.runsIssued r (List.mem_filter.1 hr).1
  stepsIssued s hs := h.stepsIssued s (List.mem_filter.1 hs).1
  links s hs v hv := by
    obtain ⟨hsm, hkept⟩ := List.mem_filter.1 hs
    obtain ⟨n, hn, hu, hw⟩ := h.links s hsm v hv
    exact ⟨n, List.mem_filter.2 ⟨hn, by rw [hw]; exact hkept⟩, hu, hw⟩
  holds r hr v hv := by
    obtain ⟨hrm, hkept⟩ := List.mem_filter.1 hr
    obtain ⟨s, hsm, hu, hw⟩ := h.holds r hrm v hv
    exact ⟨s, List.mem_filter.2 ⟨hsm, by rw [hw]; exact hkept⟩, hu, hw⟩
  run r hr hG := by
    obtain ⟨hrm, hkept⟩ := List.mem_filter.1 hr
    rw [chainOf_remove (by simpa using hkept)]
    exact h.run r hrm hG
  dispatchesIssued := h.dispatchesIssued
  within d hd s hs := h.within d hd s (List.mem_filter.1 hs).1
  ascending := h.ascending

end Engine

end Orchestration
