import Orchestration.Proofs.Collaborators
import Orchestration.Proofs.ExpressionErrors
import Orchestration.Proofs.LaunchOutcome
import Orchestration.Proofs.PartValues

/-!
# Collaborators that take work

Where the functions of a workflow are deployed and whatever is handed over is taken, launching a
step has one course: the step is put into an attempt and the attempt is handed over once
(`Scene.dispatched`), unless the step has no function to call. Then the launch ends the run, or does
nothing at all where the value that the function depends on has no document.

Ending a run that no other run has started has one course as well, because there is nobody to report
to.
-/

namespace Orchestration

namespace Engine

open Chain

/-! ## What the collaborators do -/

namespace Collaborators

variable (k : Collaborators) (setup : Setup)

/-- Work for a function is taken. -/
def TakesWork (info : FunctionInfo) : Prop :=
  match setup.mode with
  | .queue => k.publish .work = .ok ()
  | .push => ∃ url, info.serviceUrl = some url ∧
      ∀ body, ∃ response, k.reach url body = .ok response ∧ response.isSuccess = true

/-- A function is deployed, and work for it is taken. -/
def Serves (f : Uid) : Prop :=
  ∃ info, k.function f = .ok info ∧ info.isDeployed = true ∧ k.TakesWork setup info

/-- A dispatch is the work that a request asks for. -/
structure Asks (d : Dispatch) (request : Request) : Prop where
  step : d.step.name = request.step
  function : k.function request.function = .ok d.function
  attempt : d.attempt = request.attempt
  input : d.input = request.input

end Collaborators

/-- The scene after a step has been put into an attempt and the attempt has been handed over. -/
def Scene.dispatched (s : Scene) (setup : Setup) (d : Dispatch) : Scene :=
  { s with tables := s.tables.putStep d.step }.send (setup.parcelOf d) true

theorem Scene.handOvers_dispatched (s : Scene) (setup : Setup) (d : Dispatch) :
    (s.dispatched setup d).handOvers = s.handOvers ++ [setup.parcelOf d] := by
  unfold Scene.handOvers Scene.dispatched Scene.send
  rw [List.map_append, List.filter_append]
  simp [handsOver_parcelOf]

/-- What was written of a step before its dispatch is not seen any more. -/
theorem Scene.dispatched_putStep {s : Scene} {setup : Setup} {d : Dispatch} {y : StepInstance}
    (h : y.uid = d.step.uid) :
    ({ s with tables := s.tables.putStep y } : Scene).dispatched setup d =
    s.dispatched setup d := by
  show Scene.send { s with tables := (s.tables.putStep y).putStep d.step } _ _ = _
  rw [Store.Tables.putStep_putStep h]
  rfl

/-! ## Handing over -/

variable {k : Collaborators} {setup : Setup} {s s' : Scene}
variable {x step : StepInstance} {r : Except EngineError Unit}

theorem runs_send_of_takesWork {input : Json.Object} {info : FunctionInfo}
    (hinfo : k.TakesWork setup info) (h : Runs k.rule (setup.send x input info) s r s') :
    r = .ok () ∧ s' = s.send (setup.parcelOf ⟨x, input, info⟩) true := by
  have hover : ∀ {o s₁}, Runs k.rule (setup.handOver x input info) s o s₁ →
      o = .ok () ∧ s₁ = s.send (setup.parcelOf ⟨x, input, info⟩) true := by
    intro o s₁ hrun
    unfold Setup.handOver at hrun
    unfold Collaborators.TakesWork at hinfo
    unfold Setup.parcelOf
    cases hmode : setup.mode with
    | queue =>
      rw [hmode] at hrun hinfo
      obtain ⟨ho, rfl⟩ := runs_publish.1 hrun
      obtain rfl : o = .ok () := ho.trans hinfo
      exact ⟨rfl, rfl⟩
    | push =>
      rw [hmode] at hrun hinfo
      obtain ⟨url, hurl, hreach⟩ := hinfo
      obtain ⟨response, hresponse, hsuccess⟩ :=
        hreach (setup.pushRequest x input).toJson.text
      unfold Setup.push at hrun
      dsimp only
      rw [hurl] at hrun ⊢
      rcases runs_bind.1 hrun with ⟨e, h₁, -⟩ | ⟨answer, s₂, h₁, h₂⟩
      · obtain ⟨he, -⟩ := runs_post.1 h₁
        cases he.trans hresponse
      · obtain ⟨ha, rfl⟩ := runs_post.1 h₁
        obtain rfl := Except.ok.inj (ha.trans hresponse)
        rw [if_pos hsuccess] at h₂
        exact runs_pure.1 h₂
  unfold Setup.send at h
  obtain ⟨o, s₁, h₁, hrest⟩ := runs_attempt_bind.1 h
  obtain ⟨rfl, rfl⟩ := hover h₁
  exact runs_pure.1 hrest

/-! ## Launching -/

/-- A dispatch puts a step into an attempt with its input as it is. -/
def Launches (x : StepInstance) (d : Dispatch) : Prop :=
  d.input = x.inputData ∧ ∃ time name,
    d.step = Store.Tables.launched x.inputData time { x with selectedCaseName := name }

theorem runs_dispatchFunction_of_serves {f : Uid} {input : Json.Object} (ht : s.tables.Keyed)
    (hx : s.tables.step? step.uid = some x) (hf : k.Serves setup f)
    (h : Runs k.rule (setup.dispatchFunction step input f) s r s') :
    ∃ time info, k.function f = .ok info ∧ r = .ok () ∧
      s' = s.dispatched setup ⟨Store.Tables.launched input time x, input, info⟩ := by
  obtain ⟨info, hinfo, -, htakes⟩ := hf
  rcases runs_bind.1 h with ⟨e, h₁, -⟩ | ⟨i, s₁, h₁, hrest⟩
  · obtain ⟨he, -⟩ := runs_getFunction.1 h₁
    cases he.trans hinfo
  obtain ⟨hi, rfl⟩ := runs_getFunction.1 h₁
  obtain rfl := Except.ok.inj (hi.trans hinfo)
  rcases runs_bind.1 hrest with ⟨e, h₂, -⟩ | ⟨y, s₂, h₂, hsend⟩
  · obtain ⟨_, he, -⟩ := runs_launchAttempt_eq ht hx h₂
    cases he
  obtain ⟨time, hy, rfl⟩ := runs_launchAttempt_eq ht hx h₂
  obtain rfl := Except.ok.inj hy
  obtain ⟨rfl, rfl⟩ := runs_send_of_takesWork htakes hsend
  exact ⟨time, i, hinfo, rfl, rfl⟩

theorem finds_normalize_of_no_formulas {t : Store.Tables} {input : Json.Object} {run : Uid}
    {current : Option StepInstance} (h : formulasOfMembers input = []) :
    Finds t (normalize input run current) (.ok input) := by
  unfold normalize
  rw [h]
  exact finds_bind.2 (.inr ⟨[], finds_ofExcept.2 rfl, finds_pure.2 rfl⟩)

/-- The functions that an activity may call. -/
def Activity.functions : Activity → List Uid
  | .call f | .loop f _ => [f]
  | .choice _ functions => functions.map (·.2)

theorem mem_functions_of_choose {functions : Dict Uid} {value : String} {f : Uid}
    (h : Part.choose functions value = .ok f) : f ∈ functions.map (·.2) := by
  unfold Part.choose at h
  split at h
  · next hget => exact Except.ok.inj h ▸ List.mem_map_of_mem (Dict.mem_of_get? hget)
  · split at h
    · next hget => exact Except.ok.inj h ▸ List.mem_map_of_mem (Dict.mem_of_get? hget)
    · cases h

variable {run : Uid} {c : Course} {before after : List StepInstance} {startChild : StartChild}

/-- **A launch calls the function of the part**, or fails with the reason why there is none. -/
theorem ShowsCourse.runs_tryLaunch (h : ShowsCourse s.tables run c before x after)
    (ht : s.tables.Keyed) (hx : s.tables.step? x.uid = some x) (hrun : x.workflowInstanceUid = run)
    (hk : ∀ f ∈ c.current.activity.functions, k.Serves setup f)
    (hlaunch : Runs k.rule (setup.tryLaunch startChild x) s r s') :
    (∃ f d, c.current.function c.done = .ok f ∧ k.function f = .ok d.function ∧ Launches x d ∧
      r = .ok () ∧ s' = s.dispatched setup d) ∨
    ∃ e, c.current.function c.done = .error e ∧ r = .error e ∧ s' = s ∧
      (Setup.preventsLaunch e = true ∨ e = .undecodable) := by
  have hinput : Finds s.tables (normalize x.inputData x.workflowInstanceUid (some x))
      (.ok x.inputData) := by
    refine finds_normalize_of_no_formulas ?_
    rw [h.current.input]
    exact h.fits.1.input
  have hrest := hinput.next hlaunch
  have hcall : ∀ f, x.shape = .simple f ∨ (∃ text, x.shape = .doWhile f text) →
      c.current.function c.done = .ok f → f ∈ c.current.activity.functions →
      ∃ f d, c.current.function c.done = .ok f ∧ k.function f = .ok d.function ∧ Launches x d ∧
        r = .ok () ∧ s' = s.dispatched setup d := by
    intro f hshape hfunction hmem
    have hdispatch : Runs k.rule (setup.dispatchFunction x x.inputData f) s r s' := by
      rcases hshape with hshape | ⟨text, hshape⟩
      · rw [hshape] at hrest
        exact hrest
      · rw [hshape] at hrest
        exact hrest
    obtain ⟨time, info, hinfo, hr, hs'⟩ :=
      runs_dispatchFunction_of_serves ht hx (hk f hmem) hdispatch
    exact ⟨f, _, hfunction, hinfo, ⟨rfl, time, x.selectedCaseName, rfl⟩, hr, hs'⟩
  rcases h.current.shape_cases with ⟨f, hshape, hp⟩ | ⟨f, text, hshape, hp⟩ |
    ⟨expression, cases, functions, hshape, hfs, hp⟩
  · refine .inl (hcall f (.inl hshape) ?_ ?_)
    · rw [Part.function, hp]
    · rw [hp]
      exact List.mem_singleton_self f
  · refine .inl (hcall f (.inr ⟨text, hshape⟩) ?_ ?_)
    · rw [Part.function, hp]
    · rw [hp]
      exact List.mem_singleton_self f
  · have hvalue := h.finds_decision hrun hp
    have hfunction : c.current.function c.done =
        Part.decision c.done expression >>= Part.choose functions := by
      rw [Part.function, hp]
    rw [hshape] at hrest
    cases hd : Part.decision c.done expression with
    | error e =>
      rw [hd] at hvalue hfunction
      obtain ⟨rfl, rfl⟩ := hvalue.fails hrest
      refine .inr ⟨e, hfunction, rfl, rfl,
        (failsWith_evaluateSwitch _ _ hvalue).imp_left fun he ↦ ?_⟩
      rw [Setup.preventsLaunch, he, Bool.true_or]
    | ok value =>
      rw [hd] at hvalue hfunction
      have hrest := hvalue.next hrest
      rcases chooseCase_functionsOf? hfs value with ⟨name, f, hcase, hchoose⟩ | ⟨e, hcase, hchoose⟩
      · -- The case is noted before the attempt begins.
        have hrest := (finds_ofExcept.2 hcase.symm).next hrest
        have hrest := (writes_setSelectedCase hx name).next hrest
        obtain ⟨time, info, hinfo, hr, hs'⟩ := runs_dispatchFunction_of_serves
          (s := { s with tables := s.tables.putStep { x with selectedCaseName := some name } })
          (ht.putStep (Store.Tables.mem_of_step? hx).1 rfl) (ht.step?_putStep hx rfl rfl)
          (hk f (by rw [hp]; exact mem_functions_of_choose hchoose)) hrest
        refine .inl
          ⟨f, ⟨Store.Tables.launched x.inputData time { x with selectedCaseName := some name },
          x.inputData, info⟩, hfunction.trans hchoose, hinfo, ⟨rfl, time, some name, rfl⟩, hr,
          hs'.trans (Scene.dispatched_putStep rfl)⟩
      · obtain ⟨rfl, rfl⟩ := (finds_ofExcept.2 hcase.symm).fails hrest
        exact .inr ⟨e, hfunction.trans hchoose, rfl, rfl, .inl (preventsLaunch_of_chooseCase hcase)⟩

/-- **A launch dispatches the part, or ends its run.** Where the function depends on a value that
has no document it may do neither. -/
theorem ShowsCourse.runs_launch (h : ShowsCourse s.tables run c before x after)
    (ht : s.tables.Keyed) (hx : s.tables.step? x.uid = some x) (hrun : x.workflowInstanceUid = run)
    (hk : ∀ f ∈ c.current.activity.functions, k.Serves setup f)
    (hlaunch : Runs k.rule (setup.launch startChild x) s r s') :
    (∃ f d, c.current.function c.done = .ok f ∧ k.function f = .ok d.function ∧ Launches x d ∧
      s' = s.dispatched setup d) ∨
    ∃ e, c.current.function c.done = .error e ∧
      (Runs k.rule (setup.fail run .failed x.name e.message) s r s' ∨ e = .undecodable) := by
  obtain ⟨o, s₁, htry, hrest⟩ := runs_launch_iff.1 hlaunch
  rcases h.runs_tryLaunch ht hx hrun hk htry with
    ⟨f, d, hf, hinfo, hd, rfl, rfl⟩ | ⟨e, he, rfl, rfl, hprevents⟩
  · exact .inl ⟨f, d, hf, hinfo, hd, (runs_pure.1 hrest).2⟩
  · refine .inr ⟨e, he, hprevents.imp_left fun hp ↦ ?_⟩
    rw [settle_of_preventsLaunch hp, hrun] at hrest
    exact hrest

/-! ## Ending -/

variable {R : Rule} {q : WorkflowInstance}

theorem runs_terminate_of_no_parent {status : RunStatus} {failure : Option Failure}
    {output : Option Json.Object} (ht : s.tables.Keyed) (hq : s.tables.run? run = some q)
    (hnt : q.runStatus.isTerminal = false) (hparent : q.parentInstanceUid = none)
    (h : Runs R (setup.terminate run status failure output) s r s') :
    ∃ time, s' = { s with tables := s.tables.putRun (endedRun q status failure output time) } := by
  obtain ⟨time, hreport⟩ := runs_terminate ht hq hnt h
  unfold reportToParent at hreport
  have hnone : (endedRun q status failure output time).parentInstanceUid = none := hparent
  rw [hnone] at hreport
  exact ⟨time, (runs_pure.1 hreport).2⟩

end Engine

end Orchestration
