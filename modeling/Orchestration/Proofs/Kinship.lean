import Orchestration.Proofs.Clearance
import Orchestration.Proofs.Likeness
import Orchestration.Proofs.Trees

/-!
# What an operation has to do with

The run of a sub-workflow names the run that it is a part of and the step of it that it reports to.
So runs form trees, and an operation that is about some runs stays in their trees: whatever it puts
in is below them (`Conducted.under`), whatever it changes is theirs or new (`Conducted.frame`), and
whatever it publishes is about a run that is theirs, or new, or waits for one of them
(`Conducted.about`).

Which step waits for a run is read off the record of the run alone. Nothing says that the step is
one of the run that is named beside it: whoever starts a run from outside may name any two. Where
all of them name a step of the run (`Done.NamesOwnStep`), every record does so (`History.filed`).
-/

namespace Orchestration

namespace Engine

variable {R : Rule} {setup : Setup} {o : Operation} {s₀ s s' : Scene} {log : List Moment}
  {past : List Done} {q : WorkflowInstance} {u v p k : Uid}

/-! ## What is kept of a tree -/

theorem SameRun.trans {r : WorkflowInstance} (h : SameRun q r) {r' : WorkflowInstance}
    (h' : SameRun r r') : SameRun q r' :=
  ⟨h'.uid.trans h.uid, h'.input.trans h.input, h'.parent.trans h.parent,
    h'.parentStep.trans h.parentStep, h'.createdAt.trans h.createdAt⟩

/-- A run that is found after a call was there before, or the call has put it in. -/
theorem RunAfter.found_or_made {m : Moment} {r : WorkflowInstance} (h : RunAfter m r) :
    (∃ q ∈ m.scene.tables.runs, SameRun q r) ∨ ∃ steps, m.call = .store (.insertRun r steps) := by
  cases h with
  | kept q hq hsame => exact .inl ⟨q, hq, hsame⟩
  | written q _ _ hq hsame => exact .inl ⟨q, (Store.Tables.mem_of_run? hq).1, hsame⟩
  | made steps hcall => exact .inr ⟨steps, hcall⟩

theorem Proper.keepsRun {c : Call} {a : c.Answer} (h : Proper setup o s₀ log s c) (hs : Grounded s)
    (ha : s.Admits c a) (hq : q ∈ s.tables.runs) :
    ∃ r ∈ (s.after c a).tables.runs, SameRun q r := by
  obtain ⟨r, hr, hu⟩ := (h.after hs a).2.runs q hq
  refine ⟨r, hr, ?_⟩
  rcases (run_after hs.keyed ha hr).found_or_made with ⟨q', hq', hsame⟩ | ⟨steps, hcall⟩
  · obtain rfl := hs.keyed.eq_of_run hq' hq (hsame.uid.symm.trans hu)
    exact hsame
  · obtain rfl : c = _ := hcall
    exact absurd hu.symm (Founds.uid h.mayAsk |>.ne_run q hq)

theorem Proper.keepsUnder {c : Call} {a : c.Answer} (h : Proper setup o s₀ log s c)
    (hs : Grounded s) (ha : s.Admits c a) (hu : Under s.tables u v) :
    Under (s.after c a).tables u v := by
  refine Relation.ReflTransGen.mono ?_ _ _ hu
  rintro x y ⟨q, hq, hqu, hparent⟩
  obtain ⟨r, hr, hsame⟩ := h.keepsRun hs ha hq
  exact ⟨r, hr, hsame.uid.trans hqu, hsame.parent.trans hparent⟩

/-! ## Where records come from -/

/-- A run that an operation leaves was there before, or is new and has a father. -/
theorem Conducted.run_origin (h : Conducted setup o s₀ log s) (hs : Grounded s₀)
    (hq : q ∈ s.tables.runs) : (∃ q₀ ∈ s₀.tables.runs, SameRun q₀ q) ∨
      q.uid ∉ s₀.issued ∧ Fathers o s₀ s q.parentInstanceUid q.parentStepInstanceUid := by
  induction h generalizing q with
  | begin => exact .inl ⟨q, hq, rfl, rfl, rfl, rfl, rfl⟩
  | @call log s c a before admitted proper ih =>
    have hground := before.grounded hs
    have hgrows := (proper.after hground a).2
    rcases (run_after hground.keyed admitted hq).found_or_made with ⟨r, hr, hsame⟩ | ⟨steps, hcall⟩
    · rcases ih hr with ⟨q₀, hq₀, hsame₀⟩ | ⟨hnew, hfathers⟩
      · exact .inl ⟨q₀, hq₀, hsame₀.trans hsame⟩
      · refine .inr ⟨hsame.uid ▸ hnew, ?_⟩
        rw [hsame.parent, hsame.parentStep]
        exact hgrows.fathers hfathers
    · obtain rfl : c = _ := hcall
      have hfounds : Founds o s₀ s q steps := proper.mayAsk
      exact .inr ⟨hfounds.uid.fresh, hgrows.fathers hfounds.parents⟩

theorem Conducted.step_origin (h : Conducted setup o s₀ log s) (hs : Grounded s₀) {y : StepInstance}
    (hy : y ∈ s.tables.steps) : (∃ x ∈ s₀.tables.steps, SameStep x y) ∨ y.uid ∉ s₀.issued := by
  induction h generalizing y with
  | begin => exact .inl ⟨y, hy, rfl, rfl, rfl, rfl, rfl⟩
  | @call log s c a before admitted proper ih =>
    have hground := before.grounded hs
    rcases (step_after hground.keyed admitted hy).found_or_made with ⟨x, hx, hsame⟩ |
      ⟨new, steps, hcall, hmem⟩
    · rcases ih hx with ⟨x₀, hx₀, hsame₀⟩ | hnew
      · exact .inl ⟨x₀, hx₀, hsame₀.trans hsame⟩
      · exact .inr (hsame.uid ▸ hnew)
    · obtain rfl : c = _ := hcall
      exact .inr (Founds.stepUids (proper.mayAsk : Founds o s₀ s new steps) y hmem).fresh

/-- Whether an operation starts a run from outside. -/
def Operation.isStart : Operation → Bool
  | .start .. => true
  | _ => false

theorem Fathers.of_not_isStart {parent parentStep : Option Uid}
    (h : Fathers o s₀ s parent parentStep) (ho : o.isStart = false) :
      ∃ run step, parent = some run ∧ parentStep = some step ∧ Owns o s₀ s run ∧
      HasStep s.tables run step := by
  cases h with
  | outside workflow input _ _ hstart =>
    rw [hstart] at ho
    cases ho
  | step run step hown hstep => exact ⟨run, step, rfl, rfl, hown, hstep⟩

/-- **Whatever an operation puts in is below the runs that it names.** -/
theorem Conducted.under (h : Conducted setup o s₀ log s) (hs : Grounded s₀) (ho : o.isStart = false)
    (hq : q ∈ s.tables.runs) (hnew : q.uid ∉ s₀.issued) :
    ∃ u, o.Names s₀.tables u ∧ Under s.tables q.uid u := by
  induction h generalizing q with
  | begin => exact absurd (hs.runsIssued q hq) hnew
  | @call log s c a before admitted proper ih =>
    have hground := before.grounded hs
    have hlift : ∀ {r}, r ∈ s.tables.runs → r.uid ∉ s₀.issued →
        ∃ u, o.Names s₀.tables u ∧ Under (s.after c a).tables r.uid u := by
      intro r hr hnew
      obtain ⟨u, hnames, hunder⟩ := ih hr hnew
      exact ⟨u, hnames, proper.keepsUnder hground admitted hunder⟩
    rcases (run_after hground.keyed admitted hq).found_or_made with ⟨r, hr, hsame⟩ | ⟨steps, hcall⟩
    · exact hsame.uid ▸ hlift hr (hsame.uid ▸ hnew)
    · obtain rfl : c = _ := hcall
      obtain ⟨run, step, hparent, -, hown, x, hx, -, hrun⟩ :=
        (Founds.parents (proper.mayAsk : Founds o s₀ s q steps)).of_not_isStart ho
      have hchild : ChildOf (s.after (.store (.insertRun q steps)) a).tables q.uid run :=
        ⟨q, hq, rfl, hparent⟩
      rcases hown with hnames | ⟨hfresh, -⟩
      · exact ⟨run, hnames, .single hchild⟩
      · obtain ⟨r, hr, hru⟩ := hground.keyed.owned x hx
        obtain rfl := hru.trans hrun
        obtain ⟨u, hnames, hunder⟩ := hlift hr hfresh
        exact ⟨u, hnames, .head hchild hunder⟩

/-! ## What an operation changes -/

theorem Scene.tables_after_of_ne_store {c : Call} (hc : ∀ c', c ≠ .store c') (a : c.Answer) :
    (s.after c a).tables = s.tables := by
  cases c with
  | store c => exact absurd rfl (hc c)
  | publish => exact tables_publish s _ _ _
  | _ => rfl

/-- A call of the store that may be made is confined to own runs, or looks a step up. -/
theorem MayAsk.confined {c : Store.Call} (h : MayAsk o s₀ log s c) (hs : Grounded s) :
    (∃ k, c = .getStep k) ∨ Confined (Owns o s₀ (s.afterStore c)) s.tables c := by
  have hstep : ∀ {run k}, Owns o s₀ s run → HasStep s.tables run k →
      ∀ x ∈ s.tables.steps, x.uid = k → Owns o s₀ s x.workflowInstanceUid := by
    rintro run k hown ⟨y, hy, hyk, rfl⟩ x hx hxk
    rwa [hs.keyed.eq_of_step hx hy (hxk.trans hyk.symm)]
  cases c with
  | getStep k => exact .inl ⟨k, rfl⟩
  | setHeldStep | updateRunStatus => exact .inr h.1
  | setSelectedCase | decrementRetry | applyStepResult =>
    obtain ⟨run, hown, hhas⟩ := h
    exact .inr (hstep hown hhas)
  | launchStep =>
    obtain ⟨run, hown, hhas, -⟩ := h
    exact .inr (hstep hown hhas)
  | insertRun new steps =>
    have hfounds : Founds o s₀ s new steps := h
    exact .inr ⟨.inr ⟨hfounds.uid.fresh, hfounds.uid.known⟩, hfounds.uid.ne_run, hfounds.distinct,
      fun x hx ↦ (hfounds.stepUids x hx).ne_step, hfounds.own⟩
  | updateStepStatus | setStepStartTime | setStepEndTime | listTopLevelRuns | deleteRuns =>
    exact h.elim
  | _ => exact .inr h

/-- **An operation changes no records but those of its own runs.** -/
theorem Conducted.frame (h : Conducted setup o s₀ log s) (hs : Grounded s₀) :
    Alike (fun u ↦ ¬ Owns o s₀ s u) s₀.tables s.tables := by
  induction h with
  | begin => exact .refl _
  | @call log s c a before admitted proper ih =>
    have hground := before.grounded hs
    have hgrows := (proper.after hground a).2
    refine (ih.mono fun u hu hown ↦ hu (hgrows.owns hown)).trans ?_
    by_cases hc : ∃ c', c = .store c'
    · obtain ⟨c, rfl⟩ := hc
      rcases (proper.mayAsk : MayAsk o s₀ log s c).confined hground with ⟨k, rfl⟩ | hconfined
      · exact .refl _
      · exact hconfined.frame hground.keyed fun u hown hnot ↦ hnot hown
    · rw [Scene.tables_after_of_ne_store (fun c' hc' ↦ hc ⟨c', hc'⟩)]
      exact .refl _

/-! ## What an operation tells -/

/-- An operation has to do with a run: the run is its own, or waits for one that it names. -/
def DealsWith (o : Operation) (s₀ s : Scene) (u : Uid) : Prop :=
  Owns o s₀ s u ∨ ∃ q ∈ s₀.tables.runs, o.Names s₀.tables q.uid ∧ q.parentInstanceUid = some u ∧
    q.parentStepInstanceUid.isSome = true

theorem DealsWith.mono (h : DealsWith o s₀ s u) (hgrows : Grows s s') : DealsWith o s₀ s' u :=
  h.imp_left hgrows.owns

/-- The run that waits for an own run is an own run as well, and has the step, or waits for a run
that was there before. -/
theorem Conducted.waits (h : Conducted setup o s₀ log s) (hs : Grounded s₀) (ho : o.isStart = false)
    (hq : q ∈ s.tables.runs) (hown : Owns o s₀ s q.uid) (hp : q.parentInstanceUid = some p)
    (hk : q.parentStepInstanceUid = some k) : Owns o s₀ s p ∧ HasStep s.tables p k ∨
      ∃ q₀ ∈ s₀.tables.runs, SameRun q₀ q ∧ o.Names s₀.tables q₀.uid := by
  rcases h.run_origin hs hq with ⟨q₀, hq₀, hsame⟩ | ⟨-, hfathers⟩
  · refine .inr ⟨q₀, hq₀, hsame, ?_⟩
    rcases hown with hnames | ⟨hfresh, -⟩
    · exact hsame.uid ▸ hnames
    · exact absurd (hsame.uid ▸ hs.runsIssued q₀ hq₀) hfresh
  · obtain ⟨run, step, hrun, hstep, hownRun, hhas⟩ := hfathers.of_not_isStart ho
    obtain rfl := Option.some.inj (hp.symm.trans hrun)
    obtain rfl := Option.some.inj (hk.symm.trans hstep)
    exact .inl ⟨hownRun, hhas⟩

theorem Conducted.dealsWith_parent (h : Conducted setup o s₀ log s) (hs : Grounded s₀)
    (ho : o.isStart = false) (hq : q ∈ s.tables.runs) (hown : Owns o s₀ s q.uid)
    (hp : q.parentInstanceUid = some p) (hk : q.parentStepInstanceUid = some k) :
    DealsWith o s₀ s p := by
  rcases h.waits hs ho hq hown hp hk with ⟨hownRun, -⟩ | ⟨q₀, hq₀, hsame, hnames⟩
  · exact .inl hownRun
  · exact .inr ⟨q₀, hq₀, hnames, hsame.parent.symm.trans hp,
      by rw [← hsame.parentStep, hk, Option.isSome_some]⟩

theorem Conducted.owns_of_due (h : Conducted setup o s₀ log s) (hs : Grounded s₀)
    {n : RunNotification} (hdue : due log = some n) : Owns o s₀ s n.workflowInstanceUid := by
  cases h with
  | begin => cases hdue
  | @call log s c a before admitted proper =>
    have hground := before.grounded hs
    have hgrows := (proper.after hground a).2
    refine hgrows.owns ?_
    rw [due_concat] at hdue
    -- An own step that is found is one of an own run.
    have hstep : ∀ {k status}, OwnsStep o s₀ s k →
        (s.tables.step? k).map (stepNotification · status) = some n →
          Owns o s₀ s n.workflowInstanceUid := by
      rintro k status ⟨run, hown, y, hy, hyk, rfl⟩ hfound
      obtain ⟨x, hx, rfl⟩ := Option.map_eq_some_iff.1 hfound
      obtain ⟨hxm, hxk⟩ := Store.Tables.mem_of_step? hx
      obtain rfl := hground.keyed.eq_of_step hy hxm (hyk.trans hxk.symm)
      exact hown
    cases c with
    | store c =>
      have hmay : MayAsk o s₀ log s c := proper.mayAsk
      cases c with
      | updateRunStatus u status expected =>
        rcases a with e | _ | _
        · cases hdue
        · cases hdue
        · obtain rfl := Option.some.inj hdue
          exact hmay.1
      | launchStep k input time =>
        obtain ⟨run, hown, hhas, -⟩ := hmay
        cases a with
        | error => cases hdue
        | ok => exact hstep ⟨run, hown, hhas⟩ hdue
      | applyStepResult k update =>
        rcases a with e | _ | _
        · cases hdue
        · cases hdue
        · exact hstep hmay hdue
      | updateStepStatus => exact hmay.elim
      | _ => cases hdue
    | _ => cases hdue

/-- **What an operation publishes is about a run that it has to do with.** -/
theorem Conducted.about (h : Conducted setup o s₀ log s) (hs : Grounded s₀) (ho : o.isStart = false)
    (hwatch : ∀ run time phase, o ≠ .watch run time phase) {m : Moment} (hm : m ∈ log)
    {channel : Channel} {payload : String} (hpub : m.published? channel = some payload) :
    ∃ u, DealsWith o s₀ s u ∧ About u channel payload := by
  induction h with
  | begin => cases hm
  | @call log s c a before admitted proper ih =>
    have hgrows := (proper.after (before.grounded hs) a).2
    rcases List.mem_append.1 hm with hm | hm
    · obtain ⟨u, hdeals, habout⟩ := ih hm
      exact ⟨u, hdeals.mono hgrows, habout⟩
    obtain rfl := List.mem_singleton.1 hm
    obtain rfl : c = .publish channel payload :=
      Moment.call_of_offered (Moment.offered?_of_published hpub)
    suffices hdeals : ∃ u, DealsWith o s₀ s u ∧ About u channel payload by
      obtain ⟨u, hdeals, habout⟩ := hdeals
      exact ⟨u, hdeals.mono hgrows, habout⟩
    cases hdue : due log with
    | some n =>
      obtain ⟨rfl, rfl⟩ := Call.publish.inj ((proper_of_due hdue).1 proper)
      exact ⟨_, .inl (before.owns_of_due hs hdue), n, rfl, rfl⟩
    | none =>
      have hmay : MayPublish setup o s₀ log s channel payload := (proper_of_none hdue).1 proper
      cases channel with
      | work =>
        obtain ⟨-, x, input, f, info, hhands, rfl⟩ := hmay
        exact ⟨_, .inl hhands.own, _, rfl, rfl⟩
      | results =>
        obtain ⟨m, rfl, hown | ⟨q, hq, hown, hp, hk⟩⟩ := hmay
        · exact ⟨_, .inl hown, m, rfl, rfl⟩
        · exact ⟨_, before.dealsWith_parent hs ho hq hown hp hk, m, rfl, rfl⟩
      | deployments =>
        obtain ⟨run, time, phase, ho⟩ := hmay
        exact absurd ho (hwatch run time phase)
      | notifications => exact hmay.elim

/-! ## Steps that are named beside their runs -/

/-- Every run that names a run and a step to report to names a step of that run. -/
def Filed (s : Scene) : Prop :=
  ∀ q ∈ s.tables.runs, ∀ p k, q.parentInstanceUid = some p → q.parentStepInstanceUid = some k →
    p ∈ s.issued ∧ k ∈ s.issued ∧ ∀ x ∈ s.tables.steps, x.uid = k → x.workflowInstanceUid = p

/-- A start from outside that names a run and a step to report to names a step of that run. -/
def Done.NamesOwnStep (d : Done) : Prop :=
  ∀ workflow input p k, d.operation = .start workflow input (some p) (some k) →
    ∀ m ∈ d.log.head?, HasStep m.scene.tables p k

theorem Conducted.run_of_known (h : Conducted setup o s₀ log s) (hs : Grounded s₀)
    (hk : k ∈ s₀.issued) (hsteps : ∀ x ∈ s₀.tables.steps, x.uid = k → x.workflowInstanceUid = p) :
    ∀ x ∈ s.tables.steps, x.uid = k → x.workflowInstanceUid = p := by
  rintro y hy rfl
  rcases h.step_origin hs hy with ⟨x, hx, hsame⟩ | hnew
  · exact hsame.run.trans (hsteps x hx hsame.uid.symm)
  · exact absurd hk hnew

theorem HasStep.filed (h : HasStep s.tables p k) (hs : Grounded s) :
    p ∈ s.issued ∧ k ∈ s.issued ∧ ∀ x ∈ s.tables.steps, x.uid = k → x.workflowInstanceUid = p := by
  obtain ⟨y, hy, rfl, rfl⟩ := h
  refine ⟨?_, hs.stepsIssued y hy, fun x hx hu ↦ by rw [hs.keyed.eq_of_step hx hy hu]⟩
  obtain ⟨q, hq, hu⟩ := hs.keyed.owned y hy
  exact hu ▸ hs.runsIssued q hq

theorem Conducted.filed (h : Conducted setup o s₀ log s) (hs : Grounded s₀) (hfiled : Filed s₀)
    (houtside : ∀ workflow input p k, o = .start workflow input (some p) (some k) →
      HasStep s₀.tables p k) : Filed s := by
  intro q hq p k hp hk
  have hgrows := h.grows hs
  rcases h.run_origin hs hq with ⟨q₀, hq₀, hsame⟩ | ⟨-, hfathers⟩
  · obtain ⟨hpi, hki, hsteps⟩ := hfiled q₀ hq₀ p k (hsame.parent ▸ hp) (hsame.parentStep ▸ hk)
    exact ⟨hgrows.issued hpi, hgrows.issued hki, h.run_of_known hs hki hsteps⟩
  · refine HasStep.filed ?_ (h.grounded hs)
    rw [hp, hk] at hfathers
    cases hfathers with
    | outside workflow input _ _ ho => exact hgrows.hasStep (houtside workflow input p k ho)
    | step run step _ hstep => exact hstep

theorem LeftOf.filed (h : LeftOf s s') (hfiled : Filed s) : Filed s' := by
  intro q hq p k hp hk
  obtain ⟨hpi, hki, hsteps⟩ := hfiled q (h.runs hq) p k hp hk
  exact ⟨h.issued ▸ hpi, h.issued ▸ hki, fun x hx ↦ hsteps x (h.steps hx)⟩

theorem Conducted.eq_of_nil (h : Conducted setup o s₀ [] s) : s = s₀ := by
  generalize hlog : ([] : List Moment) = log at h
  cases h with
  | begin => rfl
  | call => simp at hlog

theorem History.grounded (h : History setup R past s) : Grounded s :=
  (h.sound (guiding_nobody R)).standing.grounded

/-- **Where whoever starts a run from outside names a step of the run that it is to be a part of,
every run does so.** -/
theorem History.filed (h : History setup R past s) (hnames : ∀ d ∈ past, d.NamesOwnStep) :
    Filed s := by
  induction h with
  | empty => exact fun q hq ↦ nomatch hq
  | @more past s s' d before hlogs _ ih =>
    have hs := before.grounded
    have hfiled := ih fun e he ↦ hnames e (List.mem_append_left _ he)
    have hd := hnames d (List.mem_append_right _ (List.mem_singleton_self d))
    by_cases hsweep : ∃ keepDays maxCount, d.operation = .sweep keepDays maxCount
    · obtain ⟨keepDays, maxCount, ho⟩ := hsweep
      rw [ho] at hlogs
      exact (logs_sweep hlogs).1.filed hfiled
    have hconducted := (conducted_of_logs hs (fun keepDays maxCount ho ↦
      hsweep ⟨keepDays, maxCount, ho⟩) hlogs).conducted
    cases hlog : d.log with
    | nil =>
      rw [hlog] at hconducted
      exact hconducted.eq_of_nil ▸ hfiled
    | cons m rest =>
      refine hconducted.filed hs hfiled fun workflow input p k ho ↦ ?_
      rw [← Conducted.eq_of_nil (hconducted.proper_at (hlog.trans (List.nil_append _).symm)).1]
      exact hd workflow input p k ho m (hlog ▸ rfl)

end Engine

end Orchestration
