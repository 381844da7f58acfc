import Orchestration.Proofs.ConductTriples
import Orchestration.Proofs.References

/-!
# The conduct of launches and starts

A step that may be launched is one of an own run that is clear to go. Its work is handed over to a
function that the step names and that has just been looked up, and a run that it starts reports to
it.

A new run is clear to go if it begins with another run. Else its functions are looked up in a row,
and it is clear to go if all of them are found to be deployed.
-/

namespace Orchestration

namespace Engine

open Chain

variable {setup : Setup} {o : Operation} {s₀ s s' : Scene} {log l : List Moment} {u : Uid}
variable {startChild : StartChild} {step : StepInstance}

/-! ## Handing over -/

theorem conducts_handOver {x : StepInstance} {input : Json.Object} {f : Uid} {info : FunctionInfo} :
    Conducts setup o s₀ (fun log s ↦ HandsOver o s₀ log s x f info) (setup.handOver x input info)
      fun _ _ _ ↦ True := by
  unfold Setup.handOver
  cases hmode : setup.mode with
  | queue => exact .publish fun _ _ _ h ↦ ⟨hmode, x, input, f, info, h, rfl⟩
  | push =>
    unfold Setup.push
    dsimp only
    cases hurl : info.serviceUrl with
    | none => exact .throw _
    | some url =>
      refine .bind (.post fun _ _ _ h ↦ ⟨hmode, x, input, f, info, h, hurl, rfl⟩) fun response ↦ ?_
      exact .ite (fun _ ↦ .pure _) fun _ ↦ .throw _

theorem conducts_send {x : StepInstance} {input : Json.Object} {info : FunctionInfo} (f : Uid) :
    Conducts setup o s₀ (fun log s ↦ HandsOver o s₀ log s x f info) (setup.send x input info)
      fun _ _ _ ↦ True := by
  unfold Setup.send
  refine .bind (conducts_handOver.attempt.stays (.owns _) fun _ _ _ h ↦ h.own) fun sent ↦ ?_
  cases sent with
  | ok _ => exact .pure _
  | error e => exact conducts_publishResult fun _ _ _ h ↦ .inl h.2

/-! ## Launching -/

/-- A step may be launched: it is one of an own run that is clear to go. -/
structure ClearToLaunch (o : Operation) (s₀ : Scene) (log : List Moment) (s : Scene)
    (x : StepInstance) : Prop where
  ours : Ours o s₀ s x
  clear : Cleared o s₀ log s x.workflowInstanceUid

theorem Firm.clearToLaunch (x : StepInstance) : Firm fun log s ↦ ClearToLaunch o s₀ log s x :=
  fun _ _ l _ hs h ↦ ⟨hs.ours h.ours, hs.cleared h.clear l⟩

theorem conducts_getFunction {P : List Moment → Scene → Prop} (hP : Lasts P) (f : Uid) :
    Conducts setup o s₀ P (Action.getFunction f) fun info log s ↦
      P log s ∧ ∃ m ∈ log, m.finds? f = some info := by
  have hask : Asks Call.consults (Action.getFunction f) := ⟨trivial, fun _ ↦ trivial⟩
  refine (Conducts.consults hask hP).logged.mono (fun _ _ _ h ↦ h) fun info log s _ h ↦ ⟨h.1.1, ?_⟩
  obtain ⟨-, R, log₀, l, t, rfl, -, -, -, h⟩ := h
  obtain ⟨rfl, -, rfl⟩ := logs_getFunction.1 h
  exact ⟨_, List.mem_append_right _ List.mem_cons_self, if_pos rfl⟩

/-- **Work is handed over to a function that has been looked up.** -/
theorem conducts_dispatchFunction {input : Json.Object} {f : Uid}
    (hf : f ∈ step.shape.functionRefs) :
    Conducts setup o s₀ (fun log s ↦ ClearToLaunch o s₀ log s step)
      (setup.dispatchFunction step input f) fun _ _ _ ↦ True := by
  refine .bind (conducts_getFunction (Firm.clearToLaunch step).lasts f) fun info ↦ ?_
  refine .bind ((conducts_launchAttempt.of fun _ _ _ h ↦ ⟨h.1.ours, h.1.clear⟩).stays (.happened _)
    fun _ _ _ h ↦ h.2) fun x ↦ (conducts_send f).of fun log s _ h ↦ ?_
  obtain ⟨⟨hours, hx, hrunning, hsame⟩, hfound⟩ := h
  exact ⟨hx, hrunning, hsame.run ▸ hours.own, hsame.shape ▸ hf, hfound⟩

/-- Whatever starts the run of a sub-workflow is well conducted, if the run is to report to one of
the operation's own steps. -/
def ChildConducts (setup : Setup) (o : Operation) (s₀ : Scene) (startChild : StartChild) : Prop :=
  ∀ workflow input parent parentStep,
    Conducts setup o s₀ (fun _ s ↦ Fathers o s₀ s (some parent) (some parentStep))
      (startChild workflow input parent parentStep) fun _ _ _ ↦ True

theorem conducts_startSubWorkflow (hc : ChildConducts setup o s₀ startChild) {input : Json.Object}
    {workflow : Uid} :
    Conducts setup o s₀ (fun log s ↦ ClearToLaunch o s₀ log s step)
      (Setup.startSubWorkflow startChild step input workflow) fun _ _ _ ↦ True :=
  .bind (conducts_launchAttempt.of fun _ _ _ h ↦ ⟨h.ours, h.clear⟩) fun x ↦
    (hc workflow input x.workflowInstanceUid x.uid).of fun _ _ _ ⟨hours, hx, _, hsame⟩ ↦
      .step _ _ (hsame.run ▸ hours.own) ⟨x, hx, rfl, rfl⟩

theorem conducts_setSelectedCase {name : String} :
    Conducts setup o s₀ (fun log s ↦ ClearToLaunch o s₀ log s step)
      (Action.store (.setSelectedCase step.uid name)) fun _ log s ↦ ClearToLaunch o s₀ log s step :=
  ((Conducts.store (fun _ _ ↦ rfl) fun _ _ _ h ↦ h.ours.ownsStep).stays (.clearToLaunch step)
    fun _ _ _ h ↦ h).mono (fun _ _ _ h ↦ h) fun _ _ _ _ h ↦ h.2

theorem mem_of_chooseCase {cases : Dict CaseTarget} {value name : String} {target : CaseTarget}
    (h : chooseCase cases value = .ok (name, target)) : (name, target) ∈ cases := by
  unfold chooseCase at h
  split at h
  · next hget =>
    cases h
    exact Dict.mem_of_get? hget
  · split at h
    · next hget =>
      cases h
      exact Dict.mem_of_get? hget
    · cases h

theorem conducts_tryLaunch (hc : ChildConducts setup o s₀ startChild) :
    Conducts setup o s₀ (fun log s ↦ ClearToLaunch o s₀ log s step)
      (setup.tryLaunch startChild step) fun _ _ _ ↦ True := by
  -- Whatever is looked at on the way is a step of the same run.
  have hlook : ∀ {β : Type} {a : Action β},
      Asks (Call.inquires step.workflowInstanceUid fun _ ↦ False) a →
        Conducts setup o s₀ (fun log s ↦ ClearToLaunch o s₀ log s step) a fun _ log s ↦
        ClearToLaunch o s₀ log s step := fun ha ↦
    (Conducts.inquires ha (Firm.clearToLaunch step).lasts (fun _ _ _ h ↦ h.ours.own)
      fun _ _ _ _ _ hk ↦ hk.elim).mono (fun _ _ _ h ↦ h) fun _ _ _ _ h ↦ h.1
  unfold Setup.tryLaunch
  refine .bind (hlook (asks_normalize (fun _ ↦ rfl) _)) fun input ↦ ?_
  cases hshape : step.shape with
  | simple f | doWhile f text =>
    exact conducts_dispatchFunction (by simp [hshape, StepStructure.functionRefs])
  | subWorkflow w => exact conducts_startSubWorkflow hc
  | switch expression cases =>
    refine .bind (hlook (asks_evaluateSwitch (fun _ ↦ rfl) _)) fun value ↦ ?_
    refine .bind (.ofExcept _) fun ⟨name, target⟩ ↦ ?_
    by_cases hchoice : chooseCase cases value = .ok (name, target)
    · refine .bind (conducts_setSelectedCase.of fun _ _ _ h ↦ h.1) fun _ ↦ ?_
      cases target with
      | function f =>
        refine conducts_dispatchFunction ?_
        rw [hshape]
        exact List.mem_filterMap.2 ⟨_, mem_of_chooseCase hchoice, rfl⟩
      | subWorkflow w => exact conducts_startSubWorkflow hc
    · exact fun _ _ _ _ _ _ _ h _ ↦ absurd h.2 hchoice

/-- **A launch is well conducted**, whatever comes of it. -/
theorem conducts_launch (hc : ChildConducts setup o s₀ startChild) :
    Conducts setup o s₀ (fun log s ↦ ClearToLaunch o s₀ log s step) (setup.launch startChild step)
      fun _ _ _ ↦ True := by
  unfold Setup.launch
  refine .bind ((conducts_tryLaunch hc).attempt.stays (.owns step.workflowInstanceUid)
    fun _ _ _ h ↦ h.ours.own) fun result ↦ ?_
  cases result with
  | ok _ => exact .pure _
  | error e =>
    exact .ite (fun _ ↦ (conducts_fail (by decide) (by decide)).of fun _ _ _ h ↦ h.2) fun _ ↦
      .throw _

/-! ## Making a run -/

/-- Identifiers have been given out, each once, and no record has any of them. -/
def Unused (s₀ s : Scene) (vs : List Uid) : Prop := vs.Nodup ∧ ∀ v ∈ vs, ToBeUsed s₀ s v

theorem conducts_newUid (vs : List Uid) :
    Conducts setup o s₀ (fun _ s ↦ Unused s₀ s vs) Action.newUid fun u _ s ↦
      Unused s₀ s (u :: vs) := by
  intro R log s l r s' hat hvs h
  obtain ⟨u, rfl, hnew, -, rfl, rfl⟩ := logs_newUid.1 h
  obtain ⟨hat', hgrows⟩ := hat.call (c := .newUid) hnew trivial rfl
  refine ⟨hat', hgrows, fun v hv ↦ ?_⟩
  obtain rfl := Except.ok.inj hv
  have hground := hat.grounded
  have hused : u ∉ usedIn s.tables := by
    intro hu
    rcases List.mem_append.1 hu with hu | hu
    · obtain ⟨q, hq, rfl⟩ := List.mem_map.1 hu
      exact hnew (hground.runsIssued q hq)
    · obtain ⟨x, hx, rfl⟩ := List.mem_map.1 hu
      exact hnew (hground.stepsIssued x hx)
  refine ⟨List.nodup_cons.2 ⟨fun hu ↦ hnew (hvs.2 u hu).known, hvs.1⟩, fun v hv ↦ ?_⟩
  rcases List.mem_cons.1 hv with rfl | hv
  · exact ⟨List.mem_append_right _ (List.mem_singleton_self _),
      fun hold ↦ hnew ((hat.conducted.grows hat.origin).issued hold), hused⟩
  · exact ⟨hgrows.issued (hvs.2 v hv).known, (hvs.2 v hv).fresh, (hvs.2 v hv).unused⟩

theorem conducts_newUids (n : Nat) (vs : List Uid) :
    Conducts setup o s₀ (fun _ s ↦ Unused s₀ s vs) (Action.newUids n) fun us _ s ↦
      us.length = n ∧ Unused s₀ s (us ++ vs) := by
  induction n generalizing vs with
  | zero =>
    exact (Conducts.ofExcept (.ok [])).mono (fun _ _ _ h ↦ h) fun us _ _ _ h ↦ by
      obtain rfl := Except.ok.inj h.2
      exact ⟨rfl, h.1⟩
  | succ n ih =>
    refine .bind (conducts_newUid vs) fun u ↦ .bind (ih (u :: vs)) fun us ↦ ?_
    refine (Conducts.ofExcept (.ok (u :: us))).mono (fun _ _ _ h ↦ h) fun us' _ _ _ h ↦ ?_
    obtain ⟨⟨hlen, hnodup, hunused⟩, hus⟩ := h
    obtain rfl := Except.ok.inj hus
    have hperm : (us ++ u :: vs).Perm (u :: us ++ vs) := List.perm_middle
    exact ⟨by rw [List.length_cons, hlen], hperm.nodup_iff.1 hnodup,
      fun v hv ↦ hunused v (hperm.mem_iff.2 hv)⟩

/-- A run has been made with its steps, which are the only ones that it has. -/
structure MadeWhole (o : Operation) (s₀ s : Scene)
    (e : WorkflowInstance × List StepInstance) : Prop where
  made : e ∈ s.made
  own : Owns o s₀ s e.1.uid
  steps : ∀ y ∈ s.tables.steps, y.workflowInstanceUid = e.1.uid → ∃ x ∈ e.2, SameStep x y

/-- The steps of a run are made from definitions. -/
def MadeFrom (steps : List StepDefinition) (e : WorkflowInstance × List StepInstance) : Prop :=
  ∀ x ∈ e.2, ∃ d ∈ steps, x.shape = d.shape

theorem Unused.founds {definition : WorkflowDefinition} {steps : List StepDefinition}
    {input : Json.Object} {parent parentStep : Option Uid} {run : Uid}
    {uids : List Uid} {time : Instant}
    (h : Unused s₀ s (uids ++ [run])) (hlen : uids.length = steps.length)
    (hparents : Fathers o s₀ s parent parentStep) {instances : List StepInstance}
    (hinst : instances = buildStepInstances run steps input uids) :
    Founds o s₀ s (newRun run definition instances input parent parentStep time) instances := by
  obtain ⟨hnodup, hunused⟩ := h
  have hmap : instances.map (·.uid) = uids := hinst ▸ map_uid_buildStepInstances run input hlen
  have hof := fun x hx ↦ of_mem_buildStepInstances run input hlen (hinst ▸ hx : x ∈ _)
  refine ⟨hunused run (List.mem_append_right _ (List.mem_singleton_self _)), rfl, rfl,
    fun x hx ↦ ?_, ?_, fun x hx ↦ (hof x hx).2.1, fun x hx ↦ (hof x hx).1.1, ?_, hparents⟩
  · exact hunused _ (List.mem_append_left _ (hmap ▸ List.mem_map_of_mem hx))
  · rw [hmap]
    exact (List.nodup_append.1 hnodup).1
  · exact hinst ▸ linked_buildStepInstances run input hlen (List.nodup_append.1 hnodup).1

/-- **A run is made with its steps** under identifiers that nothing else has. -/
theorem conducts_generate {definition : WorkflowDefinition} {steps : List StepDefinition}
    {input : Json.Object} {parent parentStep : Option Uid} :
    Conducts setup o s₀ (fun _ s ↦ Fathers o s₀ s parent parentStep)
      (generate definition steps input parent parentStep) fun m _ s ↦
        MadeWhole o s₀ s m ∧ MadeFrom steps m := by
  have hparents : Firm fun _ s ↦ Fathers o s₀ s parent parentStep := .fathers _ _
  have hrun : Conducts setup o s₀ (fun _ s ↦ Fathers o s₀ s parent parentStep) Action.newUid
      fun run _ s ↦ Unused s₀ s [run] ∧ Fathers o s₀ s parent parentStep :=
    ((conducts_newUid []).of fun _ _ _ _ ↦ ⟨List.nodup_nil, nofun⟩).stays hparents fun _ _ _ h ↦ h
  unfold generate
  refine .ite (fun _ ↦ .throw_bind _ _) fun _ ↦ .bind hrun fun run ↦ ?_
  refine .bind (((conducts_newUids steps.length [run]).of fun _ _ _ h ↦ h.1).stays hparents
    fun _ _ _ h ↦ h.2) fun uids ↦ ?_
  refine .bind (.consults ⟨trivial, fun _ ↦ trivial⟩ (lasts_of_scene _)) fun time ↦ ?_
  intro R log s l r s' hat ⟨⟨⟨hlen, hunused⟩, hfathers⟩, _⟩ h
  generalize hinst : buildStepInstances run steps input uids = instances at h
  have hfounds : Founds o s₀ s (newRun run definition instances input parent parentStep time)
      instances :=
    hunused.founds hlen hfathers hinst.symm
  generalize newRun run definition instances input parent parentStep time = new at h hfounds
  rcases logs_bind.1 h with ⟨e, h₁, -⟩ | ⟨l₁, l₂, _, s₁, rfl, h₁, h₂⟩
  · obtain ⟨-, hr, -⟩ := logs_store.1 h₁
    cases hr.trans (congrArg Prod.fst hfounds.answer)
  obtain ⟨rfl, hr, -, rfl⟩ := logs_store.1 h₁
  obtain ⟨rfl, rfl, rfl⟩ := logs_pure.1 h₂
  obtain ⟨hat', hgrows⟩ := hat.call (c := .store (.insertRun new instances)) hr hfounds rfl
  refine ⟨hat', hgrows, fun m hm ↦ ?_⟩
  obtain rfl := Except.ok.inj hm
  refine ⟨⟨List.mem_append_right _ (List.mem_singleton_self _),
    .inr ⟨hfounds.uid.fresh, hgrows.issued hfounds.uid.known⟩, fun y hy hrun ↦ ?_⟩, fun x hx ↦ ?_⟩
  · have htables : (s.afterStore (.insertRun new instances)).tables =
        withRun s.tables new instances := congrArg Prod.snd hfounds.answer
    rw [htables] at hy
    rcases List.mem_append.1 hy with hy | hy
    · obtain ⟨q, hq, hqu⟩ := hat.grounded.keyed.owned y hy
      exact absurd (hqu.trans hrun) (hfounds.uid.ne_run q hq)
    · exact ⟨y, hy, rfl, rfl, rfl, rfl, rfl⟩
  · exact (of_mem_buildStepInstances run input hlen (hinst ▸ hx : x ∈ _)).2.2

/-! ## Preparing a run -/

/-- The start of a run has just been noted, and then its steps have been listed. -/
def Readied (log : List Moment) (u : Uid) : Prop :=
  ∃ before m₁ m₂ time, log = before ++ [m₁, m₂] ∧ m₁.call = .store (.setRunStartTime u time) ∧
    m₂.call = .store (.listSteps u)

/-- What is looked up in a row right after that is looked up to prepare the run. -/
theorem Readied.prepares (h : Readied log u) (hl : ∀ m ∈ l, m.isLookUp = true) {m : Moment}
    (hm : m ∈ l) : Prepares (log ++ l) u m := by
  obtain ⟨before, m₁, m₂, time, rfl, h₁, h₂⟩ := h
  exact ⟨before, m₁, m₂, time, l, [], by simp, h₁, h₂, hl, hm⟩

/-- Functions are looked up in a row, and those that are not deployed are told. -/
theorem logs_lookUpFunctions {R : Rule} {refs : List (Uid × String)}
    {r : Except EngineError (Except Failure (List (FunctionInfo × String)))}
    (h : Logs R (Setup.lookUpFunctions refs) s l r s') :
    (∀ m ∈ l, m.isLookUp = true) ∧ ∀ undeployed, r = .ok (.ok undeployed) →
      ∀ f ∈ refs.map (·.1), ∃ m ∈ l, ∃ info, m.finds? f = some info ∧
        (info.isDeployed = true ∨ info ∈ undeployed.map (·.1)) := by
  induction refs generalizing l r s' with
  | nil =>
    obtain ⟨rfl, -, -⟩ := logs_pure.1 h
    exact ⟨fun m hm ↦ (nomatch hm), fun _ _ f hf ↦ nomatch hf⟩
  | cons ref rest ih =>
    rcases logs_bind.1 h with ⟨e, h₁, -⟩ | ⟨l₁, l₂, found, s₁, rfl, h₁, h₂⟩
    · obtain ⟨_, -, he⟩ := logs_attempt.1 h₁
      cases he
    obtain ⟨found', h₁, hfound⟩ := logs_attempt.1 h₁
    obtain rfl := Except.ok.inj hfound
    obtain ⟨rfl, -, rfl⟩ := logs_getFunction.1 h₁
    have hmem : ∀ {l : List Moment}, (∀ m ∈ l, m.isLookUp = true) →
        ∀ m ∈ [⟨s₁, .getFunction ref.1, found⟩] ++ l, m.isLookUp = true := by
      intro l hl m hm
      rcases List.mem_cons.1 hm with rfl | hm
      · rfl
      · exact hl m hm
    cases found with
    | error e =>
      dsimp only at h₂
      split at h₂
      · obtain ⟨rfl, rfl, -⟩ := logs_pure.1 h₂
        exact ⟨hmem fun m hm ↦ (nomatch hm), fun _ hr ↦ nomatch Except.ok.inj hr⟩
      · obtain ⟨rfl, rfl, -⟩ := logs_throw.1 h₂
        exact ⟨hmem fun m hm ↦ (nomatch hm), fun _ hr ↦ nomatch hr⟩
    | ok info =>
      dsimp only at h₂
      rcases logs_bind.1 h₂ with ⟨e, h₃, rfl⟩ | ⟨l₃, l₄, others, s₃, rfl, h₃, h₄⟩
      · exact ⟨hmem (ih h₃).1, fun _ hr ↦ nomatch hr⟩
      obtain ⟨rfl, rfl, -⟩ := logs_pure.1 h₄
      rw [List.append_nil]
      refine ⟨hmem (ih h₃).1, fun undeployed hr f hf ↦ ?_⟩
      cases others with
      | error failure => cases Except.ok.inj hr
      | ok others =>
        have hundeployed : (if info.isDeployed = true then others else (info, ref.2) :: others) =
            undeployed := Except.ok.inj (Except.ok.inj hr)
        have hothers : ∀ i ∈ others.map (·.1), i ∈ undeployed.map (·.1) := by
          intro i hi
          rw [← hundeployed]
          split
          · exact hi
          · exact List.mem_cons_of_mem _ hi
        rcases List.mem_cons.1 hf with rfl | hf
        · refine ⟨_, List.mem_cons_self, info, if_pos rfl, ?_⟩
          by_cases hdeployed : info.isDeployed = true
          · exact .inl hdeployed
          · rw [← hundeployed, if_neg hdeployed]
            exact .inr List.mem_cons_self
        · obtain ⟨m, hm, i, hi, hseen⟩ := (ih h₃).2 others rfl f hf
          exact ⟨m, List.mem_cons_of_mem _ hm, i, hi, hseen.imp_right (hothers i)⟩

/-- The functions of a run have been looked up to prepare it, and those that were not found to be
deployed are among some. -/
def Surveyed (log : List Moment) (e : WorkflowInstance × List StepInstance)
    (undeployed : List FunctionInfo) : Prop :=
  ∀ x ∈ e.2, ∀ f ∈ x.shape.functionRefs, ∃ m, Prepares log e.1.uid m ∧
    ∃ info, m.finds? f = some info ∧ (info.isDeployed = true ∨ info ∈ undeployed)

theorem Firm.surveyed (e : WorkflowInstance × List StepInstance) (undeployed : List FunctionInfo) :
    Firm fun log _ ↦ Surveyed log e undeployed := by
  intro log s l s' _ h x hx f hf
  obtain ⟨m, hm, hfound⟩ := h x hx f hf
  exact ⟨m, hm.append l, hfound⟩

theorem asks_lookUpFunctions (refs : List (Uid × String)) :
    Asks Call.consults (Setup.lookUpFunctions refs) := by
  induction refs with
  | nil => exact .pure _
  | cons ref rest ih =>
    refine .bind (.attempt ⟨trivial, fun _ ↦ trivial⟩) fun found ↦ ?_
    split
    · exact .bind ih fun _ ↦ .pure _
    · exact .ite (.pure _) (.throw _)

theorem asks_requestDeployments (functions : List FunctionInfo) :
    Asks Call.consults (Setup.requestDeployments functions) := by
  induction functions with
  | nil => exact .pure _
  | cons f rest ih => exact .ite ih (.bind ⟨trivial, fun _ ↦ trivial⟩ fun _ ↦ ih)

variable {steps : List StepDefinition} {e : WorkflowInstance × List StepInstance}

/-- **The functions of a run are looked up in a row** after it has been readied. -/
theorem conducts_lookUpFunctions (hfrom : MadeFrom steps e) :
    Conducts setup o s₀ (fun log _ ↦ Readied log e.1.uid)
      (Setup.lookUpFunctions (Setup.referencedFunctions steps)) fun found log _ ↦
        ∀ undeployed, found = .ok undeployed → Surveyed log e (undeployed.map (·.1)) := by
  have hlook : Conducts setup o s₀ (fun log _ ↦ Readied log e.1.uid)
      (Setup.lookUpFunctions (Setup.referencedFunctions steps)) fun _ _ _ ↦ True :=
    ((Conducts.consults (asks_lookUpFunctions _) (lasts_of_scene _)).of
      fun _ _ _ _ ↦ trivial).forget
  refine hlook.logged.mono (fun _ _ _ h ↦ h) fun found log s _ h undeployed hfound x hx f hf ↦ ?_
  obtain ⟨-, R, log₀, l, t, rfl, -, hready, -, h⟩ := h
  obtain ⟨hrow, hseen⟩ := logs_lookUpFunctions h
  obtain ⟨d, hd, hshape⟩ := hfrom x hx
  have hkey := mem_keys_referencedFunctions.2 ⟨d, hd, hshape ▸ hf⟩
  obtain ⟨m, hm, hinfo⟩ := hseen undeployed (congrArg _ hfound) f hkey
  exact ⟨m, hready.prepares hrow hm, hinfo⟩

/-- A run whose functions have all been seen deployed is clear to go. -/
theorem Surveyed.cleared (h : Surveyed log e []) (hmade : e ∈ s.made) :
    Cleared o s₀ log s e.1.uid := by
  refine .prepared e hmade rfl fun x hx f hf ↦ ?_
  obtain ⟨m, hm, info, hinfo, hdeployed⟩ := h x hx f hf
  refine ⟨m, hm, ?_⟩
  rw [Moment.seesDeployed, hinfo]
  exact hdeployed.resolve_right (by simp)

theorem conducts_begin {P : List Moment → Scene → Prop} (hP : Firm P)
    (hclear : ∀ ⦃log s⦄, AtRest setup o s₀ log s → P log s →
      Owns o s₀ s u ∧ Cleared o s₀ log s u) :
    Conducts setup o s₀ P (updateRunStatus u .running) fun _ log s ↦ P log s := by
  have hwrite : Conducts setup o s₀ P (updateRunStatus u .running) fun _ _ _ ↦ True :=
    (conducts_writeRunStatus u .running none).of fun _ _ hat h ↦
      ⟨(hclear hat h).1, fun _ ↦ .inl (hclear hat h).2, nofun⟩
  exact (hwrite.stays hP fun _ _ _ h ↦ h).mono (fun _ _ _ h ↦ h) fun _ _ _ _ h ↦ h.2

/-- A run has been made, and its first step is at hand. -/
structure Opens (o : Operation) (s₀ s : Scene) (e : WorkflowInstance × List StepInstance)
    (first : StepInstance) : Prop where
  made : e ∈ s.made
  ours : Ours o s₀ s first
  run : first.workflowInstanceUid = e.1.uid

theorem Opens.own {first : StepInstance} (h : Opens o s₀ s e first) : Owns o s₀ s e.1.uid :=
  h.run ▸ h.ours.own

theorem Firm.opens (e : WorkflowInstance × List StepInstance) (first : StepInstance) :
    Firm fun _ s ↦ Opens o s₀ s e first :=
  fun _ _ _ _ hs h ↦ ⟨hs.made h.made, hs.ours h.ours, h.run⟩

/-- **A run whose functions are all deployed begins, and another waits or fails.** -/
theorem conducts_prepareFunctions (hc : ChildConducts setup o s₀ startChild)
    (hfrom : MadeFrom steps e) {first : StepInstance} :
    Conducts setup o s₀ (fun log s ↦ Readied log e.1.uid ∧ Opens o s₀ s e first)
      (setup.prepareFunctions startChild e.1.uid steps first) fun _ _ _ ↦ True := by
  unfold Setup.prepareFunctions
  refine .bind (((conducts_lookUpFunctions hfrom).of fun _ _ _ h ↦ h.1).stays (.opens e first)
    fun _ _ _ h ↦ h.2) fun found ↦ ?_
  cases found with
  | error failure => exact (conducts_terminate (by decide) (by decide)).of fun _ _ _ h ↦ h.2.own
  | ok undeployed =>
    have hfirm : Firm fun log s ↦ Surveyed log e (undeployed.map (·.1)) ∧ Opens o s₀ s e first :=
      (Firm.surveyed e _).and (.opens e first)
    refine Conducts.of (P := fun log s ↦ Surveyed log e (undeployed.map (·.1)) ∧
      Opens o s₀ s e first) ?_ fun _ _ _ h ↦ ⟨h.1 _ rfl, h.2⟩
    dsimp only
    split
    · exact (conducts_fail (by decide) (by decide)).of fun _ _ _ h ↦ h.2.own
    refine .ite (fun hempty ↦ ?_) fun _ ↦ ?_
    · obtain rfl := List.isEmpty_iff.1 hempty
      refine .bind (conducts_begin hfirm fun _ _ _ h ↦ ⟨h.2.own, h.1.cleared h.2.made⟩) fun _ ↦ ?_
      exact (conducts_launch hc).of fun _ _ _ h ↦ ⟨h.2.ours, h.2.run ▸ h.1.cleared h.2.made⟩
    · refine .bind (.consults (asks_requestDeployments _) hfirm.lasts) fun _ ↦ ?_
      refine .bind
        (((conducts_updateRunStatus (by decide) (by decide)).of fun _ _ _ h ↦ h.1.2.own).stays hfirm
        fun _ _ _ h ↦ h.1) fun _ ↦ .spawn fun log s _ h ↦ ?_
      refine ⟨h.2.2.own, e, h.2.2.made, rfl, fun x hx f hf ↦ ?_⟩
      obtain ⟨m, hm, info, hinfo, hseen⟩ := h.2.1 x hx f hf
      exact ⟨m, hm, info, hinfo, hseen.imp_right List.mem_map_of_mem⟩

/-! ## Starting a run -/

theorem MadeWhole.of_steps (h : MadeWhole o s₀ s e) (hs : Grows s s')
    (hsteps : s'.tables.steps = s.tables.steps) : MadeWhole o s₀ s' e :=
  ⟨hs.made h.made, hs.owns h.own, hsteps ▸ h.steps⟩

theorem logs_firstStep {R : Rule} {r : Except EngineError StepInstance}
    (h : Logs R (firstStep u) s l r s') : ∃ a, l = [⟨s, .store (.listSteps u), a⟩] := by
  rcases logs_bind.1 h with ⟨e, h₁, -⟩ | ⟨l₁, l₂, steps, s₁, rfl, h₁, h₂⟩
  · exact ⟨_, (logs_store.1 h₁).1⟩
  · obtain ⟨rfl, -⟩ := logs_store.1 h₁
    split at h₂
    · exact ⟨_, by rw [(logs_pure.1 h₂).1, List.append_nil]⟩
    · exact ⟨_, by rw [(logs_throw.1 h₂).1, List.append_nil]⟩

/-- The start of a run is noted last. -/
def NotedStart (log : List Moment) (u : Uid) : Prop :=
  ∃ before m time, log = before ++ [m] ∧ m.call = .store (.setRunStartTime u time)

theorem conducts_setRunStartTime :
    Conducts setup o s₀ (fun _ s ↦ MadeWhole o s₀ s e) (setRunStartTime e.1.uid) fun _ log s ↦
      NotedStart log e.1.uid ∧ MadeWhole o s₀ s e := by
  refine .bind (.consults ⟨trivial, fun _ ↦ trivial⟩ (lasts_of_scene _)) fun time ↦ ?_
  refine (Conducts.store (fun _ _ ↦ rfl) fun _ _ _ h ↦ h.1.own).logged.mono (fun _ _ _ h ↦ h)
    fun _ log s _ h ↦ ?_
  obtain ⟨-, R, log₀, l, t, rfl, -, hwhole, hgrows, h⟩ := h
  obtain ⟨rfl, -, -, rfl⟩ := logs_store.1 h
  exact ⟨⟨log₀, _, time, rfl, rfl⟩, hwhole.1.of_steps hgrows (Store.Tables.steps_onRun _ _)⟩

/-- **A new run is readied** by listing its steps, and its first step is one of those that it was
made with. -/
theorem conducts_firstStep :
    Conducts setup o s₀ (fun log s ↦ NotedStart log e.1.uid ∧ MadeWhole o s₀ s e)
      (Action.attempt (firstStep e.1.uid)) fun found log s ↦
        (Readied log e.1.uid ∧ MadeWhole o s₀ s e) ∧ ∀ first, found = .ok first →
        first ∈ s.tables.chainOf e.1.uid ∧ first.runOrderLabel = .first := by
  have hlook : Conducts setup o s₀ (fun _ s ↦ MadeWhole o s₀ s e) (firstStep e.1.uid) fun x _ s ↦
      MadeWhole o s₀ s e ∧ x ∈ s.tables.chainOf e.1.uid ∧ x.runOrderLabel = .first :=
    .firstStep (lasts_of_scene _) fun _ _ _ h ↦ h.own
  refine (hlook.attempt.of fun _ _ _ h ↦ h.2).logged.mono (fun _ _ _ h ↦ h) fun found log s _ h ↦ ?_
  obtain ⟨hfound, R, log₀, l, t, rfl, -, ⟨⟨before, m, time, rfl, hm⟩, hwhole⟩, -, h⟩ := h
  obtain ⟨o, h, -⟩ := logs_attempt.1 h
  obtain ⟨a, rfl⟩ := logs_firstStep h
  have hs := still_firstStep _ h.runs
  subst hs
  exact ⟨⟨⟨before, m, _, time, List.append_assoc _ _ _, hm, rfl⟩, hwhole⟩,
    fun first hfirst ↦ (hfound first hfirst).2⟩

theorem conducts_startRun (hc : ChildConducts setup o s₀ startChild)
    {definition : WorkflowDefinition} (hfrom : MadeFrom steps e) :
    Conducts setup o s₀ (fun _ s ↦ MadeWhole o s₀ s e)
      (setup.startRun startChild e.1.uid definition steps) fun _ _ _ ↦ True := by
  -- What is shown of the run in the end is looked up in its own records.
  have hstate : ∀ {P : List Moment → Scene → Prop} {a : Action Unit},
      Conducts setup o s₀ P a (fun _ _ _ ↦ True) →
      (∀ ⦃log s⦄, AtRest setup o s₀ log s → P log s → Owns o s₀ s e.1.uid) →
      Conducts setup o s₀ P (a >>= fun _ ↦ state e.1.uid) fun _ _ _ ↦ True :=
    fun ha hown ↦ .bind (ha.stays (.owns _) hown) fun _ ↦ Conducts.state.of fun _ _ _ h ↦ h.2
  refine .bind conducts_setRunStartTime fun _ ↦ .bind conducts_firstStep fun found ↦ ?_
  cases found with
  | error err =>
    refine .ite (fun _ ↦ hstate ?_ fun _ _ _ h ↦ h.1.2.own) fun _ ↦ .throw_bind _ _
    exact (conducts_fail (by decide) (by decide)).of fun _ _ _ h ↦ h.1.2.own
  | ok first =>
    have hopens : ∀ {log s}, ((Readied log e.1.uid ∧ MadeWhole o s₀ s e) ∧ ∀ x,
        (Except.ok first : Except EngineError StepInstance) = .ok x →
          x ∈ s.tables.chainOf e.1.uid ∧ x.runOrderLabel = .first) →
        Opens o s₀ s e first ∧ ∃ x ∈ e.2, SameStep x first ∧ first.runOrderLabel = .first := by
      intro log s ⟨⟨_, hwhole⟩, hfirst⟩
      obtain ⟨hmem, hlabel⟩ := hfirst first rfl
      obtain ⟨hx, hrun⟩ := Store.Tables.mem_chainOf.1 hmem
      obtain ⟨y, hy, hsame⟩ := hwhole.steps first hx hrun
      exact ⟨⟨hwhole.made, .of_mem (hrun ▸ hwhole.own) hx, hrun⟩, y, hy, hsame, hlabel⟩
    refine .ite (fun hsub ↦ ?_) fun _ ↦ ?_
    · -- A run that begins with another run is clear to go at once.
      have hfirm : Firm fun log s ↦ Opens o s₀ s e first ∧ Cleared o s₀ log s e.1.uid :=
        (Firm.opens e first).and (.cleared _)
      refine Conducts.of (P := fun log s ↦ Opens o s₀ s e first ∧ Cleared o s₀ log s e.1.uid) ?_
        fun log s _ h ↦ ?_
      · refine .bind (conducts_begin hfirm fun _ _ _ h ↦ ⟨h.1.own, h.2⟩) fun _ ↦ ?_
        refine hstate ((conducts_launch hc).of fun _ _ _ h ↦ ⟨h.1.ours, h.1.run ▸ h.2⟩)
          fun _ _ _ h ↦ h.1.own
      · obtain ⟨hopen, x, hx, hsame, hlabel⟩ := hopens h
        exact ⟨hopen, .nested e x hopen.made rfl hx (hsame.label.symm.trans hlabel)
          (hsame.shape ▸ hsub)⟩
    · exact hstate ((conducts_prepareFunctions hc hfrom).of fun _ _ _ h ↦ ⟨h.1.1, (hopens h).1⟩)
        fun _ _ _ h ↦ h.1.2.own

/-- **To start a run is well conducted**, if it is to report where runs may report. -/
theorem conducts_startWith (hc : ChildConducts setup o s₀ startChild) {workflow : Uid}
    {input : Json.Object} {parent parentStep : Option Uid} :
    Conducts setup o s₀ (fun _ s ↦ Fathers o s₀ s parent parentStep)
      (setup.startWith startChild workflow input parent parentStep) fun _ _ _ ↦ True := by
  have hfathers : Firm fun _ s ↦ Fathers o s₀ s parent parentStep := .fathers _ _
  refine .andThen (.consults ⟨trivial, fun _ ↦ trivial⟩ hfathers.lasts) hfathers fun definition ↦ ?_
  have hsteps : Asks Call.consults (Setup.stepsOf definition workflow) :=
    .ite ⟨trivial, fun _ ↦ trivial⟩ (.pure _)
  refine .andThen (.consults hsteps hfathers.lasts) hfathers fun steps ↦ ?_
  exact .bind conducts_generate fun ⟨_, _⟩ ↦ .given fun hfrom ↦ conducts_startRun hc hfrom

/-- **Starts are well conducted**, however many runs start one another. -/
theorem conducts_startNested (depth : Nat) (workflow : Uid) (input : Json.Object)
    (parent parentStep : Option Uid) :
    Conducts setup o s₀ (fun _ s ↦ Fathers o s₀ s parent parentStep)
      (setup.startNested depth workflow input parent parentStep) fun _ _ _ ↦ True := by
  induction depth generalizing workflow input parent parentStep with
  | zero => exact .throw _
  | succ depth ih =>
    exact conducts_startWith fun w i p k ↦ .bind (ih w i (some p) (some k)) fun _ ↦ .pure _

theorem conducts_launchStep :
    Conducts setup o s₀ (fun log s ↦ ClearToLaunch o s₀ log s step) (setup.launchStep step)
      fun _ _ _ ↦ True :=
  conducts_launch fun w i p k ↦ .bind (conducts_startNested _ w i (some p) (some k)) fun _ ↦ .pure _

end Engine

end Orchestration
