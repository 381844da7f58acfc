import Orchestration.Proofs.Collaborators
import Orchestration.Proofs.Histories

/-!
# What the record of a run says

The status of a run, the time of its end, its errors, its output and the step that it holds are
written by separate calls in several places. Between two operations they fit each other and the
steps of the run (`RecordFits`). In particular a completed run has the output of its last step, and
each of its steps has had a result.

That every step has had one is a matter of the way that the run has taken. A step is launched only
where the run begins, or where the step before has been left, or where the run has come already
(`Reached`). So wherever it has come to, the steps before have had their results (`Walked`). This is
said of all runs, whatever the stop conditions of their loops ask for; nothing is known of the place
at which such a run stands, which may run two of its steps at a time.
-/

namespace Orchestration

namespace Engine

open Chain

variable {R : Rule} {setup : Setup} {G : Uid → Prop} {o : Operation} {s₀ s s' : Scene}
variable {log l : List Moment} {t : Store.Tables} {q p : WorkflowInstance}
variable {before after cs : List StepInstance} {x y : StepInstance}

/-! ## The way of a run -/

/-- A run has come to a step. -/
def Entered (x : StepInstance) : Prop := x.runStatus ≠ .new ∨ 1 ≤ x.runCount

/-- A run has gone along its chain. -/
structure Walked (cs : List StepInstance) : Prop where
  linked : Linked cs
  headed : Headed cs
  counted : ∀ x ∈ cs, 0 ≤ x.runCount
  /-- A step that is neither new nor running has had a result. -/
  settled : ∀ x ∈ cs, x.runStatus ≠ .new → x.runStatus ≠ .running → 1 ≤ x.runCount
  /-- The steps before one to which the run has come have had a result. -/
  inOrder : cs.Pairwise fun b x ↦ Entered x → 1 ≤ b.runCount

namespace Walked

theorem of_fresh (hl : Linked cs) (hh : Headed cs) (hf : ∀ x ∈ cs, x.Fresh) : Walked cs where
  linked := hl
  headed := hh
  counted x hx := Int.le_of_eq (hf x hx).2.symm
  settled x hx hnew := absurd (hf x hx).1 hnew
  inOrder := by
    refine List.pairwise_of_forall_mem_list fun b _ x hx hentered ↦ ?_
    obtain ⟨hnew, hcount⟩ := hf x hx
    rcases hentered with h | h
    · exact absurd hnew h
    · omega

theorem before_entered (h : Walked (before ++ x :: after)) (hx : Entered x) :
    ∀ b ∈ before, 1 ≤ b.runCount :=
  fun b hb ↦ (List.pairwise_append.1 h.inOrder).2.2 b hb x List.mem_cons_self hx

/-- A step may change that loses no result, if those before it have had one when it is entered. -/
theorem put (h : Walked (before ++ x :: after)) (hsame : SameStep x y)
    (hcount : x.runCount ≤ y.runCount)
    (hsettled : y.runStatus ≠ .new → y.runStatus ≠ .running → 1 ≤ y.runCount)
    (hbefore : Entered y → ∀ b ∈ before, 1 ≤ b.runCount) : Walked (before ++ y :: after) := by
  obtain ⟨hb, hxa, hacross⟩ := List.pairwise_append.1 h.inOrder
  obtain ⟨hx, ha⟩ := List.pairwise_cons.1 hxa
  have hmem : ∀ z ∈ before ++ y :: after, z = y ∨ z ∈ before ++ x :: after := by
    intro z hz
    simp only [List.mem_append, List.mem_cons] at hz ⊢
    tauto
  refine ⟨h.linked.congr ?_, h.headed.congr ?_, fun z hz ↦ ?_, fun z hz ↦ ?_,
    List.pairwise_append.2 ⟨hb, List.pairwise_cons.2 ⟨fun a ham ↦ ?_, ha⟩, fun b hbm z hz ↦ ?_⟩⟩
  · simp only [List.map_append, List.map_cons, hsame.uid, hsame.next]
  · simp only [List.map_append, List.map_cons, hsame.label]
  · rcases hmem z hz with rfl | hz
    · exact Int.le_trans (h.counted x (by simp)) hcount
    · exact h.counted z hz
  · rcases hmem z hz with rfl | hz
    · exact hsettled
    · exact h.settled z hz
  · exact fun hentered ↦ Int.le_trans (hx a ham hentered) hcount
  · rcases List.mem_cons.1 hz with rfl | hz
    · exact fun hentered ↦ hbefore hentered b hbm
    · exact hacross b hbm z (List.mem_cons_of_mem _ hz)

theorem place (h : Walked (t.chainOf x.workflowInstanceUid)) (ht : t.Keyed) (hx : x ∈ t.steps)
    (hreached : Reached t x) : ∃ before after,
      t.chainOf x.workflowInstanceUid = before ++ x :: after ∧ ∀ b ∈ before, 1 ≤ b.runCount := by
  have hmem : x ∈ t.chainOf x.workflowInstanceUid := Store.Tables.mem_chainOf.2 ⟨hx, rfl⟩
  cases hreached with
  | first hfirst =>
    obtain ⟨rest, hcs⟩ := h.headed.eq_cons hmem hfirst
    exact ⟨[], rest, hcs, fun b hb ↦ nomatch hb⟩
  | again hnew =>
    obtain ⟨before, after, hcs⟩ := List.append_of_mem hmem
    exact ⟨before, after, hcs, (hcs ▸ h).before_entered (.inl hnew)⟩
  | next y hy hrun hnext hstatus =>
    have hym : y ∈ t.chainOf x.workflowInstanceUid :=
      Store.Tables.mem_chainOf.2 ⟨(Store.Tables.mem_of_step? hy).1, hrun⟩
    obtain ⟨hnew, hrunning⟩ : y.runStatus ≠ .new ∧ y.runStatus ≠ .running := by
      rcases hstatus with h | h
      · rw [h]
        decide
      · rw [h]
        decide
    have hcount := h.settled y hym hnew hrunning
    obtain ⟨before, after, hcs⟩ := List.append_of_mem hym
    rw [hcs] at h
    -- What comes after the step that has been left is the step that it names.
    obtain ⟨rest, rfl⟩ : ∃ rest, after = x :: rest := by
      have hlink := h.linked.next.symm.trans hnext
      cases after with
      | nil => cases hlink
      | cons z rest =>
        have hzm : z ∈ t.chainOf x.workflowInstanceUid := by
          rw [hcs]
          simp
        have hz := (Store.Tables.mem_chainOf.1 hzm).1
        exact ⟨rest, congrArg (· :: rest) (ht.eq_of_step hz hx (Option.some.inj hlink))⟩
    refine ⟨before ++ [y], rest, by rw [hcs]; simp, fun b hb ↦ ?_⟩
    rcases List.mem_append.1 hb with hb | hb
    · exact h.before_entered (.inl hnew) b hb
    · rwa [List.mem_singleton.1 hb]

/-- If a step was successful that names no other, it is the last one, and all have had a result. -/
theorem last (h : Walked cs) (hx : x ∈ cs) (hnone : x.nextStepId = none)
    (hstatus : x.runStatus = .completed ∨ x.runStatus = .skipped) :
    cs.getLast? = some x ∧ ∀ y ∈ cs, 1 ≤ y.runCount := by
  obtain ⟨hnew, hrunning⟩ : x.runStatus ≠ .new ∧ x.runStatus ≠ .running := by
    rcases hstatus with h | h
    · rw [h]
      decide
    · rw [h]
      decide
  have hcount := h.settled x hx hnew hrunning
  obtain ⟨before, after, rfl⟩ := List.append_of_mem hx
  obtain rfl : after = [] := by
    have hlink := h.linked.next.symm.trans hnone
    cases after with
    | nil => rfl
    | cons z rest => cases hlink
  refine ⟨by simp, fun y hy ↦ ?_⟩
  rcases List.mem_append.1 hy with hy | hy
  · exact h.before_entered (.inl hnew) y hy
  · rwa [List.mem_singleton.1 hy]

end Walked

/-! ## Records -/

/-- The record of a run fits the chain of the run. -/
structure RecordFits (q : WorkflowInstance) (cs : List StepInstance) : Prop where
  ended : q.endTime.isSome = true ↔ q.runStatus.isTerminal = true
  flawless : q.runStatus.isTerminal = false ∨ q.runStatus = .completed ∨ q.runStatus = .stopped →
    q.errorMessages = []
  flawed : q.runStatus.isTerminal = true → q.runStatus ≠ .completed → q.runStatus ≠ .stopped →
    q.errorMessages.length = 1
  silent : q.runStatus ≠ .completed → q.outputData = []
  completed : q.runStatus = .completed → ∃ x, cs.getLast? = some x ∧
    (x.runStatus = .completed ∨ x.runStatus = .skipped) ∧ q.outputData = x.outputData
  answered : q.runStatus = .completed → ∀ x ∈ cs, 1 ≤ x.runCount
  held : q.heldStepInstanceUid.isSome = true → q.runStatus = .paused ∨ q.runStatus = .stopped

namespace RecordFits

/-- What a run has done so far is of no account for its record before it has completed. -/
theorem of_not_completed {cs' : List StepInstance} (h : RecordFits q cs)
    (hq : q.runStatus ≠ .completed) : RecordFits q cs' :=
  { h with
    completed := fun hyes ↦ absurd hyes hq
    answered := fun hyes ↦ absurd hyes hq }

theorem put_of_running (h : RecordFits q (before ++ x :: after)) (hrunning : x.runStatus = .running)
    (hcount : x.runCount ≤ y.runCount) : RecordFits q (before ++ y :: after) := by
  refine { h with completed := fun hq ↦ ?_, answered := fun hq z hz ↦ ?_ }
  · obtain ⟨z, hz, hstatus, houtput⟩ := h.completed hq
    refine ⟨z, ?_, hstatus, houtput⟩
    cases after with
    | nil =>
      -- The last step of a completed run is not running.
      obtain rfl : x = z := by simpa using hz
      rw [hrunning] at hstatus
      exact hstatus.elim nofun nofun
    | cons a rest => simpa using hz
  · have hall := h.answered hq
    rcases List.mem_append.1 hz with hz | hz
    · exact hall z (List.mem_append_left _ hz)
    · rcases List.mem_cons.1 hz with rfl | hz
      · exact Int.le_trans (hall x (by simp)) hcount
      · exact hall z (List.mem_append_right _ (List.mem_cons_of_mem _ hz))

theorem unheld (h : RecordFits q cs) (hgoes : GoesOn q) : q.heldStepInstanceUid.isSome = false := by
  refine Bool.eq_false_iff.2 fun hyes ↦ ?_
  rcases h.held hyes with hq | hq
  · exact hgoes.2 hq
  · exact hgoes.not_terminal (by rw [hq]; rfl)

theorem going (h : RecordFits q cs) (hq : q.runStatus.isTerminal = false)
    (hp : p.runStatus.isTerminal = false) (hend : p.endTime = q.endTime)
    (herrors : p.errorMessages = q.errorMessages) (houtput : p.outputData = q.outputData)
    (hheld : p.heldStepInstanceUid.isSome = true → p.runStatus = .paused) : RecordFits p cs := by
  have hne : ∀ {r : WorkflowInstance}, r.runStatus.isTerminal = false →
      r.runStatus ≠ .completed := by
    intro r hr hno
    rw [hno] at hr
    cases hr
  refine ⟨?_, fun _ ↦ herrors.trans (h.flawless (.inl hq)), fun hyes ↦ ?_,
    fun _ ↦ houtput.trans (h.silent (hne hq)), fun hyes ↦ absurd hyes (hne hp),
    fun hyes ↦ absurd hyes (hne hp), fun hyes ↦ .inl (hheld hyes)⟩
  · rw [hend, h.ended, hq, hp]
  · rw [hp] at hyes
    cases hyes

theorem endedRun {status : RunStatus} {failure : Option Failure} {output : Option Json.Object}
    {time : Instant} (h : RecordFits q cs) (hq : q.runStatus.isTerminal = false)
    (hend : status.isTerminal = true)
    (hreason : failure = none ↔ status = .completed ∨ status = .stopped)
    (hheld : q.heldStepInstanceUid.isSome = true → status = .stopped)
    (hlast : status = .completed → ∃ x, cs.getLast? = some x ∧
      (x.runStatus = .completed ∨ x.runStatus = .skipped) ∧ output = some x.outputData)
    (hall : status = .completed → ∀ x ∈ cs, 1 ≤ x.runCount) :
    RecordFits (endedRun q status failure output time) cs where
  ended := ⟨fun _ ↦ hend, fun _ ↦ rfl⟩
  flawless := by
    rintro (hno | hyes)
    · cases hend.symm.trans hno
    · obtain rfl := hreason.2 hyes
      exact h.flawless (.inl hq)
  flawed := by
    intro _ hcompleted hstopped
    cases failure with
    | none => exact ((hreason.1 rfl).elim hcompleted hstopped).elim
    | some f =>
      show (Dict.insert f.step f.reason q.errorMessages).length = 1
      rw [h.flawless (.inl hq)]
      rfl
  silent := by
    intro (hno : status ≠ .completed)
    show (finalOutput? status output).getD q.outputData = []
    rw [finalOutput?, if_neg hno, Option.getD_none]
    refine h.silent fun hyes ↦ ?_
    rw [hyes] at hq
    cases hq
  completed := by
    intro (hyes : status = .completed)
    obtain ⟨x, hx, hstatus, houtput⟩ := hlast hyes
    refine ⟨x, hx, hstatus, ?_⟩
    show (finalOutput? status output).getD q.outputData = x.outputData
    rw [finalOutput?, if_pos hyes, houtput, Option.getD_some]
  answered := hall
  held hyes := .inr (hheld hyes)

end RecordFits

/-! ## Changes of the records -/

/-- All runs have gone along their chains, and their records fit them. -/
structure Tidy (t : Store.Tables) : Prop where
  walked : ∀ q ∈ t.runs, Walked (t.chainOf q.uid)
  fits : ∀ q ∈ t.runs, RecordFits q (t.chainOf q.uid)

namespace Tidy

theorem putRun (h : Tidy t) (hq : q ∈ t.runs) (hu : p.uid = q.uid)
    (hp : RecordFits q (t.chainOf q.uid) → RecordFits p (t.chainOf q.uid)) : Tidy (t.putRun p) := by
  constructor
  · intro r hr
    rw [Store.Tables.chainOf_putRun]
    rcases Store.mem_overwrite hr with rfl | ⟨hr, -⟩
    · rw [hu]
      exact h.walked q hq
    · exact h.walked r hr
  · intro r hr
    rw [Store.Tables.chainOf_putRun]
    rcases Store.mem_overwrite hr with rfl | ⟨hr, -⟩
    · rw [hu]
      exact hp (h.fits q hq)
    · exact h.fits r hr

theorem putStep (h : Tidy t) (ht : t.Keyed) (hsame : SameStep x y)
    (hcs : t.chainOf x.workflowInstanceUid = before ++ x :: after)
    (hcount : x.runCount ≤ y.runCount)
    (hsettled : y.runStatus ≠ .new → y.runStatus ≠ .running → 1 ≤ y.runCount)
    (hbefore : Entered y → ∀ b ∈ before, 1 ≤ b.runCount)
    (hfits : ∀ q ∈ t.runs, q.uid = x.workflowInstanceUid →
      RecordFits q (before ++ x :: after) → RecordFits q (before ++ y :: after)) :
    Tidy (t.putStep y) := by
  have hmem : x ∈ t.chainOf x.workflowInstanceUid := by
    rw [hcs]
    simp
  have hx := (Store.Tables.mem_chainOf.1 hmem).1
  have hown : (t.putStep y).chainOf x.workflowInstanceUid = before ++ y :: after := by
    rw [ht.chainOf_putStep hx hsame.uid hsame.run, hcs]
    exact overwrite_middle (hcs ▸ ht.nodup_chainOf _) hsame.uid
  have hother : ∀ {run}, run ≠ x.workflowInstanceUid → (t.putStep y).chainOf run = t.chainOf run :=
    fun hne ↦ ht.chainOf_putStep_of_ne hx hsame.uid hsame.run hne
  constructor
  · intro q hq
    have hwalked := h.walked q hq
    by_cases hu : q.uid = x.workflowInstanceUid
    · rw [hu, hcs] at hwalked
      rw [hu, hown]
      exact hwalked.put hsame hcount hsettled hbefore
    · rwa [hother hu]
  · intro q hq
    have hfit := h.fits q hq
    by_cases hu : q.uid = x.workflowInstanceUid
    · rw [hu, hcs] at hfit
      rw [hu, hown]
      exact hfits q hq hu hfit
    · rwa [hother hu]

/-- A step of a run that goes on changes, to which the run had come before if it has come there
now. -/
theorem putStep_of_goesOn (h : Tidy t) (ht : t.Keyed) (hx : t.step? x.uid = some x)
    (hq : t.run? x.workflowInstanceUid = some q) (hgoes : GoesOn q) (hsame : SameStep x y)
    (hcount : y.runCount = x.runCount) (hstatus : y.runStatus = x.runStatus) :
    Tidy (t.putStep y) := by
  have hmem := (Store.Tables.mem_of_step? hx).1
  have hchain : x ∈ t.chainOf x.workflowInstanceUid := Store.Tables.mem_chainOf.2 ⟨hmem, rfl⟩
  obtain ⟨hqm, hqu⟩ := Store.Tables.mem_of_run? hq
  have hwalked := h.walked q hqm
  rw [hqu] at hwalked
  obtain ⟨before, after, hcs⟩ := List.append_of_mem hchain
  refine h.putStep ht hsame hcs (Int.le_of_eq hcount.symm) ?_ ?_ fun r hr hu hfit ↦
    hfit.of_not_completed fun hyes ↦ ?_
  · rw [hstatus, hcount]
    exact hwalked.settled x hchain
  · rw [Entered, hstatus, hcount]
    exact (hcs ▸ hwalked).before_entered
  · obtain rfl := ht.eq_of_run hr hqm (hu.trans hqu.symm)
    exact hgoes.not_terminal (by rw [hyes]; rfl)

theorem withRun (h : Tidy t) (ht : t.Keyed) {new : WorkflowInstance} {instances : List StepInstance}
    (hnew : ∀ r ∈ t.runs, r.uid ≠ new.uid) (hown : ∀ x ∈ instances, x.workflowInstanceUid = new.uid)
    (hwalked : Walked instances) (hfits : RecordFits new instances) :
    Tidy (withRun t new instances) := by
  constructor
  · intro r hr
    rcases List.mem_append.1 hr with hr | hr
    · rw [chainOf_withRun_of_ne hown (hnew r hr)]
      exact h.walked r hr
    · rw [List.mem_singleton.1 hr, chainOf_withRun_self ht hnew hown]
      exact hwalked
  · intro r hr
    rcases List.mem_append.1 hr with hr | hr
    · rw [chainOf_withRun_of_ne hown (hnew r hr)]
      exact h.fits r hr
    · rw [List.mem_singleton.1 hr, chainOf_withRun_self ht hnew hown]
      exact hfits

theorem remove (h : Tidy t) (doomed : List Uid) : Tidy (t.remove doomed) := by
  constructor
  · intro r hr
    obtain ⟨hrm, hkept⟩ := List.mem_filter.1 hr
    rw [chainOf_remove (by simpa using hkept)]
    exact h.walked r hrm
  · intro r hr
    obtain ⟨hrm, hkept⟩ := List.mem_filter.1 hr
    rw [chainOf_remove (by simpa using hkept)]
    exact h.fits r hrm

end Tidy

/-! ## Deeds -/

theorem Forward.goesOn {status : RunStatus} (h : Forward q.runStatus status) :
    GoesOn q ∧ status.isTerminal = false := by
  unfold GoesOn
  generalize q.runStatus = before at h
  cases h with
  | begin => exact ⟨⟨rfl, nofun⟩, rfl⟩
  | wait => exact ⟨⟨rfl, nofun⟩, rfl⟩
  | ready => exact ⟨⟨rfl, nofun⟩, rfl⟩
  | pause => exact ⟨⟨rfl, nofun⟩, rfl⟩

theorem RecordFits.finished {status : RunStatus} {failure : Option Failure}
    {output : Option Json.Object} {time : Instant} (h : RecordFits q (t.chainOf q.uid))
    (hwalked : Walked (t.chainOf q.uid)) (hq : q.runStatus.isTerminal = false)
    (hends : Ends status failure output) (hconcludes : Concludes t q status output) :
    RecordFits (Engine.endedRun q status failure output time) (t.chainOf q.uid) := by
  have hlast : status = .completed → ∃ x, (t.chainOf q.uid).getLast? = some x ∧
      (x.runStatus = .completed ∨ x.runStatus = .skipped) ∧ output = some x.outputData ∧
      ∀ y ∈ t.chainOf q.uid, 1 ≤ y.runCount := by
    intro hcompleted
    obtain ⟨x, hx, hown, hnone, hstatus, houtput⟩ := hconcludes.last hcompleted
    have hmem := Store.Tables.mem_chainOf.2 ⟨(Store.Tables.mem_of_step? hx).1, hown⟩
    obtain ⟨hlast, hall⟩ := hwalked.last hmem hnone hstatus
    exact ⟨x, hlast, hstatus, houtput, hall⟩
  refine h.endedRun hq hends.isTerminal ?_ (fun hheld ↦ ?_) (fun hcompleted ↦ ?_)
    fun hcompleted ↦ ?_
  · cases hends with
    | completed => exact ⟨fun _ ↦ .inl rfl, fun _ ↦ rfl⟩
    | failed failure hstatus =>
      refine ⟨fun hno ↦ (nomatch hno), fun hyes ↦ ?_⟩
      rcases hstatus with rfl | rfl | rfl | rfl
      all_goals exact hyes.elim nofun nofun
  · rw [hconcludes.unheld] at hheld
    cases hheld
  · obtain ⟨x, hx, hstatus, houtput, -⟩ := hlast hcompleted
    exact ⟨x, hx, hstatus, houtput⟩
  · obtain ⟨_, -, -, -, hall⟩ := hlast hcompleted
    exact hall

/-- A run that is ended without a report is stopped, or fails before it has begun. -/
theorem RecordFits.left {status : RunStatus} {failure : Option Failure} {time : Instant}
    (h : RecordFits q cs) (hq : q.runStatus.isTerminal = false)
    (hquits : Quits o q status failure) :
    RecordFits (Engine.endedRun q status failure none time) cs := by
  have hwaiting : ∀ f, q.runStatus = .deployingFunctions →
      RecordFits (Engine.endedRun q .failedWithTerminalError (some f) none time) cs := by
    intro f hdeploying
    refine h.endedRun hq rfl ⟨nofun, fun hyes ↦ hyes.elim nofun nofun⟩ (fun hheld ↦ ?_) nofun nofun
    rw [h.unheld (goesOn_of_unbegun (.inr hdeploying))] at hheld
    cases hheld
  cases hquits with
  | stop => exact h.endedRun hq rfl ⟨fun _ ↦ .inr rfl, fun _ ↦ rfl⟩ (fun _ ↦ rfl) nofun nofun
  | watch _ _ _ _ f hdeploying => exact hwaiting f hdeploying
  | failRun _ _ f hdeploying => exact hwaiting f hdeploying

/-- **A deed leaves the records tidy.** -/
theorem Deed.tidy (h : Deed setup G o s₀ log s l s') (hs : Sound setup G s) (ht : Tidy s.tables) :
    Tidy s'.tables := by
  have hk := hs.keyed
  cases h with
  | idle | refuse | dispatch | cancel | outcome => exact ht
  | again q told s' _ _ _ htold => exact htold.tables.1 ▸ ht
  | make definition steps input parent parentStep run uids time instances new l s₁
      hne hlen hnd hrun _ hinst hnew =>
    subst hinst hnew
    obtain ⟨ds, hst, -⟩ := hs.standing
    have hmade := fun x hx ↦ of_mem_buildStepInstances run input hlen (s := x) hx
    have hunknown : ∀ r ∈ s.tables.runs, r.uid ≠ run := by
      intro r hr hu
      exact hrun (hu ▸ hst.runsIssued r hr)
    refine ht.withRun hk hunknown (fun x hx ↦ (hmade x hx).2.1)
      (.of_fresh (linked_buildStepInstances run input hlen hnd)
        (headed_buildStepInstances run input hlen hne) fun x hx ↦ (hmade x hx).1) ?_
    exact ⟨⟨nofun, nofun⟩, fun _ ↦ rfl, nofun, fun _ ↦ rfl, nofun, nofun, nofun⟩
  | startTime q time hq hnew =>
    have hgoes := goesOn_of_unbegun (.inl hnew)
    refine ht.putRun (Store.Tables.mem_of_run? hq).1 rfl fun h ↦
      h.going hgoes.1 hgoes.1 rfl rfl rfl fun hheld ↦ ?_
    cases (h.unheld hgoes).symm.trans hheld
  | move q status expected hq hmove =>
    obtain ⟨hgoes, hend⟩ := hmove.goesOn
    refine ht.putRun (Store.Tables.mem_of_run? hq).1 rfl fun h ↦
      h.going hgoes.1 hend rfl rfl rfl fun hheld ↦ ?_
    cases (h.unheld hgoes).symm.trans hheld
  | resume q rest _ hq hpaused =>
    exact ht.putRun (Store.Tables.mem_of_run? hq).1 rfl fun h ↦
      h.going (by rw [hpaused]; rfl) rfl rfl rfl rfl nofun
  | hold q x hq hpaused =>
    have hgoes : q.runStatus.isTerminal = false := by
      rw [hpaused]
      rfl
    exact ht.putRun (Store.Tables.mem_of_run? hq).1 rfl fun h ↦
      h.going hgoes hgoes rfl rfl rfl fun _ ↦ hpaused
  | launch q x input time hx hq hgoes _ _ _ hreached =>
    obtain ⟨hqm, hqu⟩ := Store.Tables.mem_of_run? hq
    have hxm := (Store.Tables.mem_of_step? hx).1
    have hwalked := ht.walked q hqm
    rw [hqu] at hwalked
    obtain ⟨before, after, hcs, hbefore⟩ := hwalked.place hk hxm hreached
    have hsame : SameStep x (Store.Tables.launched input time x) := ⟨rfl, rfl, rfl, rfl, rfl⟩
    refine ht.putStep hk hsame hcs (Int.le_refl _) (fun _ hno ↦ absurd rfl hno)
      (fun _ ↦ hbefore) fun r hr hu hfit ↦ hfit.of_not_completed fun hyes ↦ ?_
    obtain rfl := hk.eq_of_run hr hqm (hu.trans hqu.symm)
    exact hgoes.not_terminal (by rw [hyes]; rfl)
  | select q x name hx hq hgoes =>
    exact ht.putStep_of_goesOn hk hx hq hgoes ⟨rfl, rfl, rfl, rfl, rfl⟩ rfl rfl
  | grant q x hx hq hgoes =>
    exact ht.putStep_of_goesOn hk hx hq hgoes ⟨rfl, rfl, rfl, rfl, rfl⟩ rfl rfl
  | record m x time expected _ _ _ hx hrunning hcount =>
    have hsame : SameStep x (answeredStep x m time) := ⟨rfl, rfl, rfl, rfl, rfl⟩
    rw [withResult_of_running hrunning hcount]
    show Tidy (s.tables.putStep (answeredStep x m time))
    have hmem := (Store.Tables.mem_of_step? hx).1
    have hchain : x ∈ s.tables.chainOf x.workflowInstanceUid :=
      Store.Tables.mem_chainOf.2 ⟨hmem, rfl⟩
    obtain ⟨q, hqm, hqu⟩ := hk.owned x hmem
    have hwalked := ht.walked q hqm
    rw [hqu] at hwalked
    have hnonneg := hwalked.counted x hchain
    obtain ⟨before, after, hcs⟩ := List.append_of_mem hchain
    have hmore : (answeredStep x m time).runCount = x.runCount + 1 := rfl
    refine ht.putStep hk hsame hcs (by omega) (fun _ _ ↦ by omega) (fun _ ↦ ?_) fun r _ _ hfit ↦
      hfit.put_of_running hrunning (by omega)
    exact (hcs ▸ hwalked).before_entered (.inl (by rw [hrunning]; nofun))
  | finish q status failure output time rest told s' hq hgoes hends _ htold hconcludes =>
    rw [htold.tables.1]
    have hqm := (Store.Tables.mem_of_run? hq).1
    exact ht.putRun hqm rfl fun h ↦ h.finished (ht.walked q hqm) hgoes hends hconcludes
  | quit q status failure time expected rest hquits hq hgoes =>
    exact ht.putRun (Store.Tables.mem_of_run? hq).1 rfl fun h ↦ h.left hgoes hquits
  | remove uids => exact ht.remove _

theorem Reachable.tidy (h : Reachable setup R s) : Tidy s.tables := by
  induction h with
  | empty => exact ⟨fun q hq ↦ (nomatch hq), fun q hq ↦ nomatch hq⟩
  | step o before hrun _ ih =>
    obtain ⟨log, -, hdeeds⟩ := before.deeds (guiding_nobody _) hrun
    exact hdeeds.holds (P := fun _ s ↦ Tidy s.tables) ih fun _ _ _ _ hs _ deed hP ↦ deed.tidy hs hP

/-- **Run records stay consistent.** In every reachable scene, whatever has failed on the way, the
record of each run fits its status and its steps. -/
theorem records_fit_of_reachable {setup : Setup} {s : Scene} (h : Reachable setup anyAnswer s) :
    ∀ q ∈ s.tables.runs, Linked (s.tables.chainOf q.uid) ∧ RecordFits q (s.tables.chainOf q.uid) :=
  fun q hq ↦ ⟨(h.tidy.walked q hq).linked, h.tidy.fits q hq⟩

/-- The result of a successful attempt of a step of a run. -/
def doneAnswer (run step : Nat) (attempt : Int) : StepResult :=
  { stepInstanceId := World.nthUid step
    workflowInstanceId := World.nthUid run
    runStatus := .completed
    outputData := [("done", .bool true)]
    attempt := some attempt }

/-- Two runs of `callThenLoop`: one has completed, the other has been stopped while it was
paused. -/
def settledScene : Scene :=
  (willing.performAll queueSetup
    [.start (.ofNat 1) [] none none, .result firstAnswer, .result (doneAnswer 0 2 1),
      .result (doneAnswer 0 2 2), .start (.ofNat 1) [] none none, .pause (World.nthUid 3),
      .result (doneAnswer 3 4 1), .stop (World.nthUid 3)] {}).get (by decide +kernel)

theorem records_fit_of_settledScene :
    Reachable queueSetup anyAnswer settledScene ∧
    (settledScene.tables.runs.map fun q ↦ (q.runStatus, q.outputData, q.heldStepInstanceUid)) =
      [(.completed, [("done", .bool true)], none), (.stopped, [], some (World.nthUid 4))] ∧
    ∀ q ∈ settledScene.tables.runs, Linked (settledScene.tables.chainOf q.uid) ∧
      RecordFits q (settledScene.tables.chainOf q.uid) := by
  have hreach : Reachable queueSetup anyAnswer settledScene :=
    (Collaborators.reachable_get _).weaken fun _ _ _ ↦ trivial
  exact ⟨hreach, by decide +kernel, records_fit_of_reachable hreach⟩

end Engine

end Orchestration
