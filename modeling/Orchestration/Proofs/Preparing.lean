import Orchestration.Proofs.Beginning
import Orchestration.Proofs.Clearance

/-!
# What a start decides

A start looks up every function that a step of the workflow may call, once each, and decides by what
the catalog says of them. It turns the run down if a function cannot be had, it begins the run at
once if all are deployed, and else it has the run wait for those that are not (`StartDecision`).

What is done about steps and functions is read off the log: `commitments` are the calls that ask for
a deployment, launch a step, hand work over or start to wait. The catalog need not stay as it is
while the start is under way, since the start knows it by the first answers only
(`Directory.Consulted`).
-/

namespace Orchestration

/-- Whether a step may stand for another workflow. -/
def StepStructure.MayStartWorkflow (shape : StepStructure) : Prop :=
  ∃ w, shape = .subWorkflow w ∨
    ∃ expression cases name, shape = .switch expression cases ∧ (name, .subWorkflow w) ∈ cases

namespace Engine

/-! ## The catalog -/

/-- What the catalog of functions knows. Whatever else it is asked for is not found. -/
structure Directory where
  find : Uid → Option FunctionInfo
  uid_eq : ∀ f info, find f = some info → info.uid = f

namespace Directory

variable (D : Directory)

/-- Whether an answer about a function is the one that the catalog has. -/
def Answers (f : Uid) (a : Except EngineError FunctionInfo) : Prop :=
  match D.find f with
  | some info => a = .ok info
  | none => ∃ e, a = .error e ∧ e.kind = .notFound

def Deployed (f : Uid) : Prop := ∃ info ∈ D.find f, info.isDeployed = true

def Undeployed (f : Uid) : Prop := ∃ info ∈ D.find f, info.isDeployed = false

/-- A function is not there, or is not deployed and nobody may deploy it. -/
def Unavailable (f : Uid) : Prop :=
  D.find f = none ∨ ∃ info ∈ D.find f, info.isDeployed = false ∧ info.lazyDeployment = false

/-- A function is not deployed, and nobody has asked for it yet. -/
def Idle (f : Uid) : Prop :=
  ∃ info ∈ D.find f, info.isDeployed = false ∧ info.deploymentState ≠ .deploying

instance : DecidablePred D.Deployed := fun f ↦ inferInstanceAs (Decidable (∃ _ ∈ D.find f, _))

instance : DecidablePred D.Unavailable := fun f ↦
  inferInstanceAs (Decidable (D.find f = none ∨ ∃ _ ∈ D.find f, _))

theorem Deployed.not_unavailable {f : Uid} (h : D.Deployed f) : ¬D.Unavailable f := by
  obtain ⟨info, hinfo, hdeployed⟩ := h
  rintro (hnone | ⟨info', hinfo', hno, -⟩)
  · cases hnone.symm.trans hinfo
  · obtain rfl := Option.some.inj (hinfo.symm.trans hinfo')
    cases hno.symm.trans hdeployed

/-- The functions among some references that are not deployed. -/
def undeployed (refs : List (Uid × String)) : List (FunctionInfo × String) :=
  refs.filterMap fun ref ↦
    (D.find ref.1).bind fun info ↦ if info.isDeployed then none else some (info, ref.2)

end Directory

/-- What is answered about a function when it is looked up. -/
def Moment.answerAbout? (f : Uid) : Moment → Option (Except EngineError FunctionInfo)
  | ⟨_, .getFunction g, a⟩ => if g = f then some a else none
  | _ => none

/-- The first answer about each of some functions is the one that the catalog has. What is answered
later may differ from it. -/
def Directory.Consulted (D : Directory) (fs : List Uid) (l : List Moment) : Prop :=
  ∀ f ∈ fs, ∀ a, (l.filterMap (·.answerAbout? f)).head? = some a → D.Answers f a

variable {α : Type} {R : Rule} {setup : Setup} {startChild : StartChild} {D : Directory}
  {s s' : Scene} {l : List Moment} {u : Uid}

theorem answerAbout?_of_ne {c : Call} {a : c.Answer} {f : Uid}
    (h : c ≠ .getFunction f) (t : Scene) : Moment.answerAbout? f ⟨t, c, a⟩ = none := by
  cases c with
  | getFunction g => exact if_neg (by rintro rfl; exact h rfl)
  | _ => rfl

theorem Directory.Consulted.rest {fs : List Uid} {l₁ l₂ : List Moment}
    (h : D.Consulted fs (l₁ ++ l₂)) (hl₁ : ∀ m ∈ l₁, ∀ f ∈ fs, m.call ≠ .getFunction f) :
    D.Consulted fs l₂ := by
  intro f hf a ha
  refine h f hf a ?_
  have hnone : l₁.filterMap (·.answerAbout? f) = [] :=
    List.filterMap_eq_nil_iff.2 fun m hm ↦ answerAbout?_of_ne (hl₁ m hm f hf) m.scene
  rwa [List.filterMap_append, hnone, List.nil_append]

theorem Directory.Consulted.first {fs : List Uid} {l₁ l₂ : List Moment}
    (h : D.Consulted fs (l₁ ++ l₂)) : D.Consulted fs l₁ := by
  intro f hf a ha
  refine h f hf a ?_
  rw [List.filterMap_append, List.head?_append, ha]
  rfl

theorem Directory.consulted_of_answers (hR : ∀ f a, R (.getFunction f) a → D.Answers f a)
    (h : ∀ m ∈ l, R m.call m.answer) (fs : List Uid) : D.Consulted fs l := by
  intro f _ a ha
  obtain ⟨⟨t, c, b⟩, hm, hb⟩ := List.mem_filterMap.1 (List.mem_of_head? ha)
  cases c with
  | getFunction g =>
    obtain ⟨rfl, hba⟩ := Option.ite_none_right_eq_some.1 hb
    obtain rfl := Option.some.inj hba
    exact hR g _ (h _ hm)
  | _ => cases hb

/-! ## Looking functions up -/

/-- **The functions are looked up one after the other.** One that is missing ends that, and else all
are found that are not deployed. -/
theorem logs_lookUpFunctions_of_consulted {refs : List (Uid × String)}
    {r : Except EngineError (Except Failure (List (FunctionInfo × String)))}
    (hnodup : (refs.map (·.1)).Nodup) (hD : D.Consulted (refs.map (·.1)) l)
    (h : Logs R (Setup.lookUpFunctions refs) s l r s') :
    (∃ ref ∈ refs, D.find ref.1 = none ∧ ∃ reason, r = .ok (.error ⟨ref.2, reason⟩)) ∨
      (∀ ref ∈ refs, D.find ref.1 ≠ none) ∧ r = .ok (.ok (D.undeployed refs)) := by
  induction refs generalizing s l r with
  | nil => exact .inr ⟨nofun, (logs_pure.1 h).2.1⟩
  | cons ref rest ih =>
    obtain ⟨f, step⟩ := ref
    rw [List.map_cons, List.nodup_cons] at hnodup
    rcases logs_bind.1 h with ⟨e, h₁, -⟩ | ⟨l₁, l₂, found, s₁, rfl, h₁, hrest⟩
    · obtain ⟨_, -, he⟩ := logs_attempt.1 h₁
      cases he
    obtain ⟨found', h₁, hfound⟩ := logs_attempt.1 h₁
    obtain rfl := Except.ok.inj hfound
    obtain ⟨rfl, -, rfl⟩ := logs_getFunction.1 h₁
    have hanswers : D.Answers f found := hD f (List.mem_map_of_mem List.mem_cons_self) found (by
      simp [Moment.answerAbout?])
    have hD' : D.Consulted (rest.map (·.1)) l₂ := by
      refine Directory.Consulted.rest (fun g hg ↦ hD g (List.mem_cons_of_mem _ hg))
        fun m hm g hg ↦ ?_
      rw [List.mem_singleton.1 hm]
      rintro ⟨⟩
      exact hnodup.1 hg
    unfold Directory.Answers at hanswers
    cases hfind : D.find f with
    | none =>
      rw [hfind] at hanswers
      obtain ⟨e, rfl, hkind⟩ := hanswers
      dsimp only at hrest
      rw [if_pos hkind] at hrest
      exact .inl ⟨_, List.mem_cons_self, hfind, _, (logs_pure.1 hrest).2.1⟩
    | some info =>
      rw [hfind] at hanswers
      obtain rfl := hanswers
      dsimp only at hrest
      have hcons : D.undeployed ((f, step) :: rest) =
          if info.isDeployed then D.undeployed rest else (info, step) :: D.undeployed rest := by
        cases hdeployed : info.isDeployed <;> simp [Directory.undeployed, hfind, hdeployed]
      rcases logs_bind.1 hrest with ⟨e, h₂, -⟩ | ⟨l₃, l₄, others, s₂, rfl, h₂, h₃⟩
      · rcases ih hnodup.2 hD' h₂ with ⟨_, -, -, _, he⟩ | ⟨-, he⟩ <;> cases he
      obtain ⟨rfl, rfl, rfl⟩ := logs_pure.1 h₃
      rw [List.append_nil] at hD'
      rcases ih hnodup.2 hD' h₂ with ⟨ref, href, hnone, reason, hothers⟩ | ⟨hall, hothers⟩
      · obtain rfl := Except.ok.inj hothers
        exact .inl ⟨ref, List.mem_cons_of_mem _ href, hnone, reason, rfl⟩
      · obtain rfl := Except.ok.inj hothers
        refine .inr ⟨List.forall_mem_cons.2 ⟨by simp [hfind], hall⟩, ?_⟩
        rw [hcons]
        rfl

/-! ## Asking for deployments -/

/-- Whether a call does something about a step or a function: it asks for a deployment, launches a
step, hands work over, or starts to wait. -/
def Call.commits : Call → Bool
  | .deployFunction _ | .store (.launchStep ..) | .publish .work _ | .post .. | .spawn
      (.watch ..) => true
  | _ => false

/-- The calls of a log that do something about a step or a function. -/
def commitments (l : List Moment) : List Call := (l.filter (·.call.commits)).map (·.call)

@[simp] theorem commitments_append (l₁ l₂ : List Moment) :
    commitments (l₁ ++ l₂) = commitments l₁ ++ commitments l₂ := by simp [commitments]

theorem commitments_eq_nil (h : ∀ m ∈ l, m.call.commits = false) : commitments l = [] := by
  simpa [commitments] using h

/-- The error with which a deployment has been refused. -/
def Moment.deployError? : Moment → Option EngineError
  | ⟨_, .deployFunction _, .error e⟩ => some e
  | _ => none

/-- The functions that have to be asked for. -/
def toAskFor (functions : List FunctionInfo) : List Uid :=
  (functions.filter fun f ↦ f.deploymentState ≠ .deploying).map (·.uid)

/-- **Each function that is not being deployed is asked for once**, unless one of them is refused.
Then those behind it are not asked for. -/
theorem logs_requestDeployments {functions : List FunctionInfo} {r : Except EngineError Unit}
    (h : Logs R (Setup.requestDeployments functions) s l r s') :
    s' = s ∧ ((r = .ok () ∧ commitments l = (toAskFor functions).map .deployFunction) ∨
      ∃ e asked, r = .error e ∧ (∃ m ∈ l, m.deployError? = some e) ∧ asked <+: toAskFor functions ∧
        commitments l = asked.map .deployFunction) := by
  induction functions generalizing s l r with
  | nil =>
    obtain ⟨rfl, rfl, rfl⟩ := logs_pure.1 h
    exact ⟨rfl, .inl ⟨rfl, rfl⟩⟩
  | cons f rest ih =>
    have h : Logs R (if f.deploymentState = .deploying then Setup.requestDeployments rest
        else Action.deployFunction f.uid >>= fun _ ↦ Setup.requestDeployments rest) s l r s' := h
    split at h
    · next hstate =>
      rw [show toAskFor (f :: rest) = toAskFor rest by simp [toAskFor, hstate]]
      exact ih h
    · next hstate =>
      have hcons : toAskFor (f :: rest) = f.uid :: toAskFor rest := by simp [toAskFor, hstate]
      rcases logs_bind.1 h with ⟨e, h₁, rfl⟩ | ⟨l₁, l₂, _, s₁, rfl, h₁, h₂⟩
      · obtain ⟨rfl, -, rfl⟩ := logs_deployFunction.1 h₁
        refine ⟨rfl, .inr ⟨e, [f.uid], rfl, ⟨_, List.mem_cons_self, rfl⟩, ?_, rfl⟩⟩
        rw [hcons]
        exact ⟨toAskFor rest, rfl⟩
      obtain ⟨rfl, -, rfl⟩ := logs_deployFunction.1 h₁
      obtain ⟨rfl, ⟨rfl, hall⟩ | ⟨e, asked, rfl, ⟨m, hm, he⟩, hinitial, hasked⟩⟩ := ih h₂
      · refine ⟨rfl, .inl ⟨rfl, ?_⟩⟩
        rw [hcons, commitments_append, hall]
        rfl
      · refine ⟨rfl, .inr ⟨e, f.uid :: asked, rfl, ⟨m, List.mem_append_right _ hm, he⟩, ?_, ?_⟩⟩
        · rw [hcons]
          exact (List.prefix_cons_inj f.uid).2 hinitial
        · rw [commitments_append, hasked]
          rfl

/-! ## What commits nobody -/

/-- An action does nothing about steps and functions. -/
abbrev Uncommitted (a : Action α) : Prop := Asks (fun c ↦ c.commits = false) a

theorem uncommitted_updateRunStatus (run : Uid) (status : RunStatus) :
    Uncommitted (updateRunStatus run status) := by
  refine .bind (.store rfl) fun _ ↦ .ite (.bind ?_ fun _ ↦ .pure _) (.pure _)
  exact .bind (.attempt ⟨rfl, fun _ ↦ trivial⟩) fun _ ↦ .pure _

theorem uncommitted_reportToParent (run : WorkflowInstance) (status : RunStatus)
    (reason : Option String) (output : Json.Object) :
    Uncommitted (reportToParent run status reason output) := by
  unfold reportToParent
  split
  · exact .bind (asks_readStep rfl) fun _ ↦ .ite ⟨rfl, fun _ ↦ trivial⟩ (.pure _)
  · exact .pure _

theorem uncommitted_terminate (setup : Setup) (run : Uid) (status : RunStatus)
    (failure : Option Failure) (output : Option Json.Object) :
    Uncommitted (setup.terminate run status failure output) := by
  rw [terminate_eq]
  refine .bind (uncommitted_updateRunStatus run status) fun _ ↦ .ite ?_ (.pure _)
  refine .bind ⟨rfl, fun _ ↦ trivial⟩ fun time ↦ .bind (.bind (.store rfl) fun _ ↦ ?_) fun r ↦
    .bind (uncommitted_reportToParent _ _ _ _) fun _ ↦ ⟨rfl, fun _ ↦ trivial⟩
  refine .bind ?_ fun _ ↦ .bind ?_ fun _ ↦ asks_readRun rfl
  · cases failure with
    | none => exact .pure _
    | some f => exact .store rfl
  · cases finalOutput? status output with
    | none => exact .pure _
    | some o => exact .store rfl

theorem uncommitted_lookUpFunctions (refs : List (Uid × String)) :
    Uncommitted (Setup.lookUpFunctions refs) := by
  induction refs with
  | nil => exact .pure _
  | cons ref rest ih =>
    refine .bind (.attempt ⟨rfl, fun _ ↦ trivial⟩) fun found ↦ ?_
    split
    · exact .bind ih fun _ ↦ .pure _
    · exact .ite (.pure _) (.throw _)

/-! ## What asks for no deployment -/

/-- An action asks for no deployment. -/
abbrev Undemanding (a : Action α) : Prop := Asks (fun c ↦ ∀ f, c ≠ .deployFunction f) a

theorem Uncommitted.undemanding {a : Action α} (h : Uncommitted a) : Undemanding a := by
  refine h.mono fun c hc f ↦ ?_
  rintro rfl
  cases hc

theorem undemanding_dispatchFunction (setup : Setup) (step : StepInstance) (input : Json.Object)
    (f : Uid) : Undemanding (setup.dispatchFunction step input f) := by
  have hannounce : ∀ channel document, Undemanding (Action.publish channel document) :=
    fun _ _ ↦ ⟨nofun, fun _ ↦ trivial⟩
  refine .bind ⟨nofun, fun _ ↦ trivial⟩ fun info ↦ .bind ?_ fun running ↦
    .bind (.attempt ?_) fun sent ↦ ?_
  · exact .bind ⟨nofun, fun _ ↦ trivial⟩ fun _ ↦ .bind (.store nofun) fun _ ↦
      .bind (.bind (.attempt (hannounce _ _)) fun _ ↦ .pure _) fun _ ↦ asks_readStep nofun
  · unfold Setup.handOver
    split
    · exact hannounce _ _
    · unfold Setup.push
      split
      · exact .throw _
      · exact .bind ⟨nofun, fun _ ↦ trivial⟩ fun _ ↦ .ite (.pure _) (.throw _)
  · split
    · exact .pure _
    · exact hannounce _ _

theorem undemanding_launch (setup : Setup) (startChild : StartChild) {step : StepInstance}
    (h : ¬step.shape.MayStartWorkflow) : Undemanding (setup.launch startChild step) := by
  have htry : Undemanding (setup.tryLaunch startChild step) := by
    refine .bind (asks_normalize (fun _ ↦ nofun) _) fun input ↦ ?_
    cases hshape : step.shape with
    | simple f => exact undemanding_dispatchFunction setup step input f
    | doWhile f stop => exact undemanding_dispatchFunction setup step input f
    | subWorkflow w => exact absurd ⟨w, .inl hshape⟩ h
    | switch expression cases =>
      refine .bind (asks_evaluateSwitch (fun _ ↦ nofun) _) fun value ↦ ?_
      cases hcase : chooseCase cases value with
      | error e => exact .throw e
      | ok found =>
        obtain ⟨name, target⟩ := found
        refine Asks.bind (a := Action.store (.setSelectedCase step.uid name))
          (.store nofun) fun _ ↦ ?_
        cases target with
        | function f => exact undemanding_dispatchFunction setup step input f
        | subWorkflow w =>
          exact absurd ⟨w, .inr ⟨expression, cases, name, hshape, mem_of_chooseCase hcase⟩⟩ h
  refine .bind (.attempt htry) fun o ↦ ?_
  split
  · exact .pure _
  · exact .ite (uncommitted_terminate setup _ _ _ none).undemanding (.throw _)

/-! ## What a start may come to -/

/-- Some step may call a function. -/
def MayNeed (steps : List StepDefinition) (f : Uid) : Prop := ∃ d ∈ steps, f ∈ d.shape.functionRefs

/-- A start is turned down because of a function that the run cannot have: nothing is done about any
step or function, and the run ends with an entry for a step that may call the function. -/
structure TurnedDown (D : Directory) (steps : List StepDefinition) (u : Uid) (l : List Moment)
    (s' : Scene) : Prop where
  uncommitted : commitments l = []
  ended : ∃ q, s'.tables.run? u = some q ∧ q.runStatus = .failedWithTerminalError ∧
    ∃ d ∈ steps, ∃ f ∈ d.shape.functionRefs, D.Unavailable f ∧
      ∃ reason, Dict.get? q.errorMessages d.name = some reason

/-- A run begins at once: it is moved on and its first step is launched. Nothing is done about any
step or function before that launch and after it, and the launch asks for no deployment, unless it
starts another workflow. -/
structure BeginsAtOnce (setup : Setup) (startChild : StartChild) (first : StepInstance) (u : Uid)
    (l : List Moment) (s' : Scene) : Prop where
  launched : ∃ before launch after r s₁, l = before ++ launch ++ after ∧
    commitments before = [] ∧ commitments after = [] ∧
    (∃ q, s₁.tables.run? u = some q ∧ q.runStatus = .running) ∧
    Logs anyAnswer (setup.launch startChild first) s₁ launch r s'
  unasked : ¬first.shape.MayStartWorkflow → ∀ f, .deployFunction f ∉ commitments l

/-- A run waits for its functions: each one that is not deployed and is not being deployed is asked
for once, and then a watch waits for all that are not deployed. Nothing else is done. -/
structure AwaitsFunctions (D : Directory) (steps : List StepDefinition) (u : Uid) (l : List Moment)
    (s' : Scene) : Prop where
  waiting : ∃ q, s'.tables.run? u = some q ∧ q.runStatus = .deployingFunctions
  asked : ∃ asked awaited : List Uid, asked.Nodup ∧ awaited.Nodup ∧
    (∀ f, f ∈ asked ↔ MayNeed steps f ∧ D.Idle f) ∧
    (∀ f, f ∈ awaited ↔ MayNeed steps f ∧ D.Undeployed f) ∧
    commitments l = asked.map .deployFunction ++ [.spawn (.watch u awaited)]

/-- A deployment has been refused: the start fails with its error, and the run stays as it was
made. -/
structure AskedInVain (D : Directory) (steps : List StepDefinition) (u : Uid) (l : List Moment)
    (r : Except EngineError α) (s' : Scene) : Prop where
  untouched : IsNew s' u
  asked : ∃ asked : List Uid, asked.Nodup ∧ (∀ f ∈ asked, MayNeed steps f ∧ D.Idle f) ∧
    commitments l = asked.map .deployFunction
  failed : ∃ e, r = .error e ∧ ∃ m ∈ l, m.deployError? = some e

/-- The decision of a start: it is turned down if some function cannot be had, the run begins at
once if all functions are deployed, and else it waits for those that are not, unless a deployment is
refused. -/
structure StartDecision (D : Directory) (steps : List StepDefinition) (setup : Setup)
    (startChild : StartChild) (first : StepInstance) (u : Uid) (l : List Moment)
    (r : Except EngineError α) (s' : Scene) : Prop where
  turnedDown : (∃ f, MayNeed steps f ∧ D.Unavailable f) → TurnedDown D steps u l s'
  begins : (∀ f, MayNeed steps f → D.Deployed f) → BeginsAtOnce setup startChild first u l s'
  awaits : (∀ f, MayNeed steps f → ¬D.Unavailable f) → (∃ f, MayNeed steps f ∧ ¬D.Deployed f) →
    AwaitsFunctions D steps u l s' ∨ AskedInVain D steps u l r s'

/-- If a function cannot be had, all that is to be decided is that the start is turned down. -/
theorem StartDecision.of_unavailable {steps : List StepDefinition} {first : StepInstance}
    {r : Except EngineError α} {f : Uid} (hf : MayNeed steps f) (hD : D.Unavailable f)
    (h : TurnedDown D steps u l s') : StartDecision D steps setup startChild first u l r s' :=
  ⟨fun _ ↦ h, fun hall ↦ absurd hD (hall f hf).not_unavailable, fun hno _ ↦ absurd hD (hno f hf)⟩

/-- What stands around a decision in a log does not change it, if nothing is done there. -/
theorem StartDecision.around {β : Type} {steps : List StepDefinition} {first : StepInstance}
    {r : Except EngineError α} {r' : Except EngineError β}
    (h : StartDecision D steps setup startChild first u l r s') (before after : List Moment)
    (hbefore : commitments before = [])
    (hafter : commitments after = []) (hr : ∀ e, r = .error e → r' = .error e) :
    StartDecision D steps setup startChild first u (before ++ l ++ after) r' s' := by
  have hsame : commitments (before ++ l ++ after) = commitments l := by
    rw [commitments_append, commitments_append, hbefore, hafter, List.append_nil, List.nil_append]
  refine ⟨fun hf ↦ ?_, fun hf ↦ ?_, fun hf hne ↦ ?_⟩
  · obtain ⟨hnone, hended⟩ := h.turnedDown hf
    exact ⟨hsame.trans hnone, hended⟩
  · obtain ⟨⟨before', launch, after', r₁, s₁, rfl, hbefore', hafter', hrun, hlogs⟩, hunasked⟩ :=
      h.begins hf
    refine ⟨⟨before ++ before', launch, after' ++ after, r₁, s₁, ?_, ?_, ?_, hrun, hlogs⟩,
      hsame ▸ hunasked⟩
    · simp only [List.append_assoc]
    · rw [commitments_append, hbefore, hbefore', List.nil_append]
    · rw [commitments_append, hafter, hafter', List.nil_append]
  · rcases h.awaits hf hne with ⟨hwaiting, asked, awaited, ha, hw, hasked, hawaited, hcalls⟩ |
      ⟨hnew, ⟨asked, ha, hasked, hcalls⟩, e, he, m, hm, hrefused⟩
    · exact .inl ⟨hwaiting, asked, awaited, ha, hw, hasked, hawaited, hsame.trans hcalls⟩
    · refine .inr ⟨hnew, ⟨asked, ha, hasked, hsame.trans hcalls⟩, e, hr e he, m, ?_, hrefused⟩
      exact List.mem_append_left _ (List.mem_append_right _ hm)

/-! ## Preparing a run -/

/-- A run that is ended is recorded as ended, whatever comes of the report to the run above it. -/
theorem run?_of_terminate {q : WorkflowInstance} {status : RunStatus} {failure : Option Failure}
    {output : Option Json.Object} {r : Except EngineError Unit} (hk : s.tables.Keyed)
    (hq : s.tables.run? u = some q) (hgoes : q.runStatus.isTerminal = false)
    (h : Runs R (setup.terminate u status failure output) s r s') :
    ∃ time, s'.tables.run? u = some (endedRun q status failure output time) := by
  obtain ⟨time, hreport⟩ := runs_terminate hk hq hgoes h
  have hkeeps : Keeps R (fun t ↦ t.tables = s.tables.putRun (endedRun q status failure output time))
      (reportToParent (endedRun q status failure output time) status (failure.map Failure.text)
        ((finalOutput? status output).getD [])) :=
    keeps_reportToParent_of (fun result t r t' ht hrun ↦ by
      obtain ⟨-, rfl⟩ := runs_publish.1 hrun
      exact (tables_publish t _ _ _).trans ht) _ _ _ _
  refine ⟨time, ?_⟩
  rw [hkeeps rfl hreport]
  exact hk.run?_putRun hq (Store.Tables.mem_of_run? hq).2

theorem IsNew.goesOn {q : WorkflowInstance} (h : q.runStatus = .new) :
    q.runStatus.isTerminal = false := by
  rw [h]
  rfl

theorem turnedDown_of_terminate {steps : List StepDefinition} {d : StepDefinition} {f : Uid}
    {reason : String} {r : Except EngineError Unit} (hk : s.tables.Keyed) (hnew : IsNew s u)
    (hd : d ∈ steps) (hf : f ∈ d.shape.functionRefs) (hD : D.Unavailable f)
    (h : Logs R (setup.terminate u .failedWithTerminalError (some ⟨d.name, reason⟩) none)
      s l r s') :
    TurnedDown D steps u l s' := by
  obtain ⟨q, hq, hstatus⟩ := hnew
  obtain ⟨time, hend⟩ := run?_of_terminate hk hq (IsNew.goesOn hstatus) h.runs
  exact ⟨commitments_eq_nil ((uncommitted_terminate setup u _ _ none).makes h), _,
    hend, rfl, d, hd, f, hf, hD, reason, (Dict.get?_insert ..).trans (if_pos rfl)⟩

theorem logs_updateRunStatus_of_isNew {status : RunStatus} {r : Except EngineError Bool}
    (hnew : IsNew s u) (hk : s.tables.Keyed) (h : Logs R (updateRunStatus u status) s l r s') :
    r = .ok true ∧ ∃ q, s'.tables.run? u = some q ∧ q.runStatus = status := by
  have hr : r = .ok true := (logs_writeRunStatus h).2.1.trans (answer_of_isNew hnew status)
  subst hr
  obtain ⟨q, _, hq, -, -, rfl, -⟩ := logs_moved h
  exact ⟨rfl, _, hk.run?_putRun hq (Store.Tables.mem_of_run? hq).2, rfl⟩

namespace Directory

theorem mem_undeployed {refs : List (Uid × String)} {e : FunctionInfo × String} :
    e ∈ D.undeployed refs ↔
      ∃ ref ∈ refs, D.find ref.1 = some e.1 ∧ e.1.isDeployed = false ∧ ref.2 = e.2 := by
  obtain ⟨info, name⟩ := e
  simp only [undeployed, List.mem_filterMap, Option.bind_eq_some_iff]
  refine exists_congr fun ref ↦ and_congr_right fun _ ↦ ?_
  constructor
  · rintro ⟨found, hfound, h⟩
    cases hdeployed : found.isDeployed with
    | true => simp [hdeployed] at h
    | false =>
      simp only [hdeployed, Bool.false_eq_true, if_false, Option.some.injEq, Prod.mk.injEq] at h
      obtain ⟨rfl, rfl⟩ := h
      exact ⟨hfound, hdeployed, rfl⟩
  · rintro ⟨hfound, hdeployed, rfl⟩
    exact ⟨info, hfound, by simp [hdeployed]⟩

theorem exists_mem_undeployed {refs : List (Uid × String)} {f : Uid} (hf : f ∈ refs.map (·.1))
    (h : D.Undeployed f) : ∃ e ∈ D.undeployed refs, D.find f = some e.1 := by
  obtain ⟨ref, href, rfl⟩ := List.mem_map.1 hf
  obtain ⟨info, hinfo, hdeployed⟩ := h
  exact ⟨(info, ref.2), mem_undeployed.2 ⟨ref, href, hinfo, hdeployed, rfl⟩, hinfo⟩

theorem sublist_uids_undeployed (refs : List (Uid × String)) :
    (((D.undeployed refs).map (·.1)).map (·.uid)).Sublist (refs.map (·.1)) := by
  induction refs with
  | nil => exact .slnil
  | cons ref rest ih =>
    cases hfind : D.find ref.1 with
    | none =>
      have : D.undeployed (ref :: rest) = D.undeployed rest := by simp [undeployed, hfind]
      rw [this]
      exact ih.cons _
    | some info =>
      cases hdeployed : info.isDeployed with
      | true =>
        have : D.undeployed (ref :: rest) =
            D.undeployed rest := by simp [undeployed, hfind, hdeployed]
        rw [this]
        exact ih.cons _
      | false =>
        have : D.undeployed (ref :: rest) = (info, ref.2) :: D.undeployed rest := by
          simp [undeployed, hfind, hdeployed]
        rw [this, List.map_cons, List.map_cons, List.map_cons, D.uid_eq ref.1 info hfind]
        exact ih.cons_cons _

/-- What is found among the functions that are not deployed is what the catalog says of functions
that may be needed. -/
theorem exists_undeployed_iff (steps : List StepDefinition) (f : Uid) (p : FunctionInfo → Prop) :
    (∃ info ∈ (D.undeployed (Setup.referencedFunctions steps)).map (·.1), p info ∧ info.uid = f) ↔
      MayNeed steps f ∧ ∃ info, D.find f = some info ∧ info.isDeployed = false ∧ p info := by
  constructor
  · rintro ⟨info, hmem, hp, rfl⟩
    obtain ⟨e, he, rfl⟩ := List.mem_map.1 hmem
    obtain ⟨ref, href, hfind, hdeployed, -⟩ := mem_undeployed.1 he
    have hu : e.1.uid = ref.1 := D.uid_eq _ _ hfind
    rw [hu]
    exact ⟨mem_keys_referencedFunctions.1 (List.mem_map_of_mem href), e.1, hfind, hdeployed, hp⟩
  · rintro ⟨hneed, info, hfind, hdeployed, hp⟩
    obtain ⟨ref, href, rfl⟩ := List.mem_map.1 (mem_keys_referencedFunctions.2 hneed)
    exact ⟨info, List.mem_map.2 ⟨(info, ref.2), mem_undeployed.2
      ⟨ref, href, hfind, hdeployed, rfl⟩, rfl⟩, hp, D.uid_eq _ _ hfind⟩

theorem mem_uids_undeployed {steps : List StepDefinition} {f : Uid} :
    f ∈ ((D.undeployed (Setup.referencedFunctions steps)).map (·.1)).map (·.uid) ↔
      MayNeed steps f ∧ D.Undeployed f := by
  have h := D.exists_undeployed_iff steps f fun _ ↦ True
  simpa [Undeployed] using h

theorem mem_toAskFor_undeployed {steps : List StepDefinition} {f : Uid} :
    f ∈ toAskFor ((D.undeployed (Setup.referencedFunctions steps)).map (·.1)) ↔
      MayNeed steps f ∧ D.Idle f := by
  have hmem : f ∈ toAskFor ((D.undeployed (Setup.referencedFunctions steps)).map (·.1)) ↔
      ∃ info ∈ (D.undeployed (Setup.referencedFunctions steps)).map (·.1),
        info.deploymentState ≠ .deploying ∧ info.uid = f := by
    simp only [toAskFor, List.mem_map, List.mem_filter, decide_eq_true_eq, and_assoc]
  exact hmem.trans (D.exists_undeployed_iff steps f _)

end Directory

/-- If functions have to be waited for, those that are not being deployed are asked for, and then
all of them are waited for. -/
theorem awaits_of_requestDeployments {steps : List StepDefinition} {r : Except EngineError Unit}
    (hk : s.tables.Keyed) (hnew : IsNew s u)
    (h : Logs R
      (Setup.requestDeployments ((D.undeployed (Setup.referencedFunctions steps)).map (·.1)) >>=
        fun _ ↦ updateRunStatus u .deployingFunctions >>= fun _ ↦
          Action.spawn (.watch u
            (((D.undeployed (Setup.referencedFunctions steps)).map (·.1)).map (·.uid))))
      s l r s') :
    AwaitsFunctions D steps u l s' ∨ AskedInVain D steps u l r s' := by
  have hnodup := (D.sublist_uids_undeployed (Setup.referencedFunctions steps)).nodup
    (nodup_keys_referencedFunctions steps)
  have hnodup' : (toAskFor ((D.undeployed (Setup.referencedFunctions steps)).map (·.1))).Nodup :=
    ((List.filter_sublist).map _).nodup hnodup
  rcases logs_bind.1 h with ⟨e, h₁, rfl⟩ | ⟨l₁, l', _, s₁, rfl, h₁, h'⟩
  · obtain ⟨rfl, ⟨he, -⟩ | ⟨e', asked, he, hrefused, hinitial, hcalls⟩⟩ :=
      logs_requestDeployments h₁
    · cases he
    refine .inr ⟨hnew, ⟨asked, hinitial.sublist.nodup hnodup', fun f hf ↦ ?_, hcalls⟩,
      e', he, hrefused⟩
    exact Directory.mem_toAskFor_undeployed.1 (hinitial.subset hf)
  obtain ⟨rfl, ⟨-, hcalls⟩ | ⟨_, _, he, -⟩⟩ := logs_requestDeployments h₁
  · rcases logs_bind.1 h' with ⟨e, h₂, -⟩ | ⟨l₂, l₃, _, s₂, rfl, h₂, h₃⟩
    · cases (logs_updateRunStatus_of_isNew hnew hk h₂).1
    obtain ⟨-, hwaiting⟩ := logs_updateRunStatus_of_isNew hnew hk h₂
    have hquiet := commitments_eq_nil ((uncommitted_updateRunStatus u _).makes h₂)
    obtain ⟨rfl, -, -, rfl⟩ := logs_spawn.1 h₃
    refine .inl ⟨hwaiting, _, _, hnodup', hnodup, fun f ↦
      Directory.mem_toAskFor_undeployed, fun f ↦ Directory.mem_uids_undeployed, ?_⟩
    rw [commitments_append, commitments_append, hcalls, hquiet]
    rfl
  · cases he

/-- A new run begins at once when its status is written and its first step is launched. -/
theorem beginsAtOnce_of_launch {first : StepInstance} {r : Except EngineError Unit}
    (hk : s.tables.Keyed) (hnew : IsNew s u)
    (h : Logs R (updateRunStatus u .running >>= fun _ ↦ setup.launch startChild first) s l r s') :
    BeginsAtOnce setup startChild first u l s' := by
  rcases logs_bind.1 h with ⟨e, h₁, -⟩ | ⟨l₁, l₂, _, s₁, rfl, h₁, h₂⟩
  · cases (logs_updateRunStatus_of_isNew hnew hk h₁).1
  obtain ⟨-, hrunning⟩ := logs_updateRunStatus_of_isNew hnew hk h₁
  have hquiet := commitments_eq_nil ((uncommitted_updateRunStatus u _).makes h₁)
  refine ⟨⟨l₁, l₂, [], r, s₁, (List.append_nil _).symm, hquiet, rfl, hrunning,
    h₂.weaken fun _ _ _ ↦ trivial⟩, fun hfirst f hf ↦ ?_⟩
  rw [commitments_append, hquiet, List.nil_append] at hf
  obtain ⟨m, hm, hcall⟩ := List.mem_map.1 hf
  exact (undemanding_launch setup startChild hfirst).makes h₂ m (List.mem_of_mem_filter hm) f hcall

/-- **What is decided when a new run is prepared.** -/
theorem decision_of_prepareFunctions {steps : List StepDefinition} {first : StepInstance}
    {r : Except EngineError Unit} (hk : s.tables.Keyed) (hnew : IsNew s u)
    (hD : D.Consulted ((Setup.referencedFunctions steps).map (·.1)) l)
    (h : Logs R (setup.prepareFunctions startChild u steps first) s l r s') :
    StartDecision D steps setup startChild first u l r s' := by
  rcases logs_bind.1 h with ⟨e, h₁, -⟩ | ⟨l₁, l₂, found, s₁, rfl, h₁, hrest⟩
  · rcases logs_lookUpFunctions_of_consulted (nodup_keys_referencedFunctions steps) hD h₁ with
      ⟨_, -, -, _, he⟩ | ⟨-, he⟩ <;> cases he
  suffices hdecision : StartDecision D steps setup startChild first u l₂ r s' by
    have hquiet := commitments_eq_nil ((uncommitted_lookUpFunctions _).makes h₁)
    exact List.append_nil (l₁ ++ l₂) ▸ hdecision.around l₁ [] hquiet rfl fun _ he ↦ he
  have hscene := (Makes.scene_of_idles (idles_lookUpFunctions _) h₁).2
  subst hscene
  rcases logs_lookUpFunctions_of_consulted (nodup_keys_referencedFunctions steps) hD.first h₁ with
    ⟨ref, href, hnone, reason, hfound⟩ | ⟨hall, hfound⟩ <;> obtain rfl := Except.ok.inj hfound
  · -- A function is missing.
    obtain ⟨d, hd, hname, hf⟩ := exists_of_mem_referencedFunctions href
    dsimp only at hrest
    rw [← hname] at hrest
    exact .of_unavailable ⟨d, hd, hf⟩ (.inl hnone)
      (turnedDown_of_terminate hk hnew hd hf (.inl hnone) hrest)
  have hknown : ∀ {f}, MayNeed steps f → D.find f ≠ none := by
    intro f hf
    obtain ⟨ref, href, rfl⟩ := List.mem_map.1 (mem_keys_referencedFunctions.2 hf)
    exact hall ref href
  dsimp only at hrest
  split at hrest
  · next info step hfind =>
    -- A function is not deployed, and nobody may deploy it.
    obtain ⟨ref, href, hinfo, hdeployed, rfl⟩ :=
      Directory.mem_undeployed.1 (List.mem_of_find?_eq_some hfind)
    have hlazy : info.lazyDeployment = false := by simpa using List.find?_some hfind
    have hunavailable : D.Unavailable ref.1 := .inr ⟨info, hinfo, hdeployed, hlazy⟩
    obtain ⟨d, hd, hname, hf⟩ := exists_of_mem_referencedFunctions href
    rw [← hname] at hrest
    exact .of_unavailable ⟨d, hd, hf⟩ hunavailable
      (turnedDown_of_terminate hk hnew hd hf hunavailable hrest)
  next hlazy =>
  -- All functions are there, and those that are not deployed may be.
  have havailable : ∀ {f}, MayNeed steps f → ¬D.Unavailable f := by
    rintro f hf (hnone | ⟨info, hinfo, hdeployed, hno⟩)
    · exact hknown hf hnone
    obtain ⟨e, he, hinfo'⟩ := Directory.exists_mem_undeployed (mem_keys_referencedFunctions.2 hf)
      ⟨info, hinfo, hdeployed⟩
    obtain rfl := Option.some.inj (hinfo.symm.trans hinfo')
    simpa [hno] using List.find?_eq_none.1 hlazy e he
  refine ⟨fun ⟨f, hf, hunavailable⟩ ↦ absurd hunavailable (havailable hf), fun hdeployed ↦ ?_,
    fun _ ⟨f, hf, hno⟩ ↦ ?_⟩
  · have hempty : D.undeployed (Setup.referencedFunctions steps) = [] := by
      refine List.eq_nil_iff_forall_not_mem.2 fun e he ↦ ?_
      obtain ⟨ref, href, hinfo, hno, -⟩ := Directory.mem_undeployed.1 he
      obtain ⟨info', hinfo', hyes⟩ := hdeployed ref.1
        (mem_keys_referencedFunctions.1 (List.mem_map_of_mem href))
      obtain rfl := Option.some.inj (hinfo.symm.trans hinfo')
      cases hno.symm.trans hyes
    rw [hempty] at hrest
    exact beginsAtOnce_of_launch hk hnew hrest
  · obtain ⟨info, hinfo⟩ := Option.ne_none_iff_exists'.1 (hknown hf)
    obtain ⟨e, he, -⟩ :=
      Directory.exists_mem_undeployed (D := D) (mem_keys_referencedFunctions.2 hf)
      ⟨info, hinfo, Bool.eq_false_iff.2 fun hyes ↦ hno ⟨info, hinfo, hyes⟩⟩
    have hsome : ¬(D.undeployed (Setup.referencedFunctions steps)).isEmpty = true := by
      rw [List.isEmpty_iff]
      exact List.ne_nil_of_mem he
    rw [if_neg hsome] at hrest
    exact awaits_of_requestDeployments hk hnew hrest

/-! ## Starting a run -/

/-- Whether a call neither does anything about a step or a function nor looks a function up. -/
def Call.isPreparatory (c : Call) : Prop := c.commits = false ∧ ∀ f, c ≠ .getFunction f

theorem Call.isPreparatory_of_store {c : Store.Call} (hc : (Call.store c).commits = false) :
    (Call.store c).isPreparatory := by
  refine ⟨hc, fun f h ↦ ?_⟩
  cases h

theorem StartDecision.after {steps : List StepDefinition} {first : StepInstance}
    {r : Except EngineError α} (l₁ : List Moment) {l₂ : List Moment}
    (hl₁ : ∀ m ∈ l₁, m.call.isPreparatory)
    (hD : D.Consulted ((Setup.referencedFunctions steps).map (·.1)) (l₁ ++ l₂))
    (h : D.Consulted ((Setup.referencedFunctions steps).map (·.1)) l₂ →
      StartDecision D steps setup startChild first u l₂ r s') :
    StartDecision D steps setup startChild first u (l₁ ++ l₂) r s' := by
  have hdecision := h (hD.rest fun m hm f _ ↦ (hl₁ m hm).2 f)
  exact List.append_nil (l₁ ++ l₂) ▸
    hdecision.around l₁ [] (commitments_eq_nil fun m hm ↦ (hl₁ m hm).1) rfl fun _ he ↦ he

theorem StartDecision.afterCall {steps : List StepDefinition} {first : StepInstance}
    {r : Except EngineError α} {m : Moment} {l₂ : List Moment} (hm : m.call.isPreparatory)
    (hD : D.Consulted ((Setup.referencedFunctions steps).map (·.1)) (m :: l₂))
    (h : D.Consulted ((Setup.referencedFunctions steps).map (·.1)) l₂ →
      StartDecision D steps setup startChild first u l₂ r s') :
    StartDecision D steps setup startChild first u (m :: l₂) r s' := by
  refine .after [m] (fun m' hm' ↦ ?_) hD h
  rwa [List.mem_singleton.1 hm']

/-- **What is decided when a new run starts** that does not begin with another run. -/
theorem decision_of_startRun {definition : WorkflowDefinition} {steps : List StepDefinition}
    {first : StepInstance} {rest : List StepInstance} {r : Except EngineError RunSnapshot}
    (hk : s.tables.Keyed) (hnew : IsNew s u) (hchain : s.tables.chainOf u = first :: rest)
    (hheaded : Chain.Headed (first :: rest)) (hshape : first.shape.control ≠ .subWorkflow)
    (hD : D.Consulted ((Setup.referencedFunctions steps).map (·.1)) l)
    (h : Logs R (setup.startRun startChild u definition steps) s l r s') :
    StartDecision D steps setup startChild first u l r s' := by
  unfold Setup.startRun setRunStartTime at h
  rw [bind_assoc] at h
  obtain ⟨time, l₀, rfl, h₀⟩ := Logs.of_now h
  obtain ⟨t, hwrites, hkt, hsteps, hnewt⟩ := writes_setRunStartTime_of_isNew hk hnew time
  obtain ⟨l₁, l₂, rfl, hl₁, h⟩ :=
    hwrites.logs_next (Makes.store (Call.isPreparatory_of_store rfl)) h₀
  have hfinds : Finds t (Action.attempt (firstStep u)) (.ok (.ok first)) := by
    refine finds_attempt.2 ⟨_, finds_firstStep ?_ hheaded, rfl⟩
    rw [Store.Tables.chainOf, hsteps]
    exact hchain
  refine .afterCall (show Call.isPreparatory .now from ⟨rfl, fun f h ↦ by cases h⟩) hD fun hD ↦
    .after l₁ hl₁ hD fun hD ↦ ?_
  rcases logs_bind.1 h with ⟨e, h₁, -⟩ | ⟨l₂, l₃, found, s₁, rfl, h₁, h⟩
  · cases (hfinds.of_runs h₁.runs).1
  obtain ⟨hfound, rfl⟩ := hfinds.of_runs h₁.runs
  obtain rfl := Except.ok.inj hfound
  have hl₂ := (Asks.makes (asks_firstStep (Call.isPreparatory_of_store rfl)).attempt) h₁
  refine .after l₂ hl₂ hD fun hD ↦ ?_
  dsimp only at h
  rw [if_neg hshape] at h
  rcases logs_bind.1 h with ⟨e, h₂, rfl⟩ | ⟨l₄, l₅, _, s₂, rfl, h₂, h₃⟩
  · simpa using (decision_of_prepareFunctions hkt hnewt hD h₂).around [] [] rfl rfl
      fun e' he ↦ congrArg Except.error (Except.error.inj he)
  · -- What is shown of the run in the end changes nothing.
    obtain rfl := still_state u h₃.runs
    have hquiet :=
      commitments_eq_nil ((Asks.makes (asks_state (φ := fun c ↦ c.commits = false) rfl rfl)) h₃)
    simpa using (decision_of_prepareFunctions hkt hnewt hD.first h₂).around [] l₅ rfl hquiet
      fun _ h ↦ by cases h

/-! ## Starting a workflow -/

theorem asks_generate {φ : Call → Prop} (hnew : φ .newUid) (hnow : φ .now)
    (hinsert : ∀ run steps, φ (.store (.insertRun run steps))) (definition : WorkflowDefinition)
    (steps : List StepDefinition) (input : Json.Object) (parent parentStep : Option Uid) :
    Asks φ (generate definition steps input parent parentStep) := by
  unfold generate
  refine .ite trivial (.bind ⟨hnew, fun _ ↦ trivial⟩ fun run ↦
    .bind (asks_newUids hnew _) fun uids ↦ ?_)
  dsimp only
  exact .bind ⟨hnow, fun _ ↦ trivial⟩ fun _ ↦ .bind (.store (hinsert _ _)) fun _ ↦ .pure _

/-- **A run is generated from definitions**, whatever they are, if there are any. -/
theorem built_of_generate {definition : WorkflowDefinition} {steps : List StepDefinition}
    {input : Json.Object} {parent parentStep : Option Uid}
    {r : Except EngineError (WorkflowInstance × List StepInstance)} (hs : Grounded s)
    (hne : steps ≠ [])
    (h : Runs R (generate definition steps input parent parentStep) s r s') :
    ∃ e uids, r = .ok e ∧ Generated s steps e s' ∧ uids.length = steps.length ∧
      e.2 = buildStepInstances e.1.uid steps input uids := by
  rcases runs_generate_cases h with ⟨hnil, -⟩ | ⟨run, uids, time, instances, new, -,
    hlen, -, hrun, -, hinst, hnew, -, hs', hr⟩
  · exact absurd hnil hne
  rcases generated_of_generate hs h with ⟨-, hsame⟩ | ⟨e, rfl, hgen⟩
  · -- Whoever generates a run uses up an identifier.
    refine absurd ?_ hrun
    have hissued : run ∈ s'.issued := by
      rw [hs']
      show run ∈ (s.issue run).issued ++ uids
      exact List.mem_append_left _ (List.mem_append_right _ (List.mem_singleton_self _))
    rwa [hsame] at hissued
  · have he : e = (new, instances) := by
      cases hans : (s.tables.answer (.insertRun new instances)).1 with
      | error => rw [hans] at hr; cases hr
      | ok => rw [hans] at hr; exact Except.ok.inj hr
    subst he
    refine ⟨_, uids, rfl, hgen, hlen, ?_⟩
    rw [hnew]
    exact hinst

/-- The first step of a run is the one of the definition that is first in the order of execution. -/
theorem buildStepInstances_eq_cons (run : Uid) (input : Json.Object)
    {steps rest : List StepDefinition} {d : StepDefinition} {uids : List Uid}
    (hlen : uids.length = steps.length)
    (hsorted : sortDefinitions steps = d :: rest) :
    ∃ first others, buildStepInstances run steps input uids = first :: others ∧
      first.stepDefinitionUid = d.uid ∧ first.shape = d.shape := by
  have hlength := Chain.length_buildStepInstances run input hlen
  have hd : 0 < (sortDefinitions steps).length := by simp [hsorted]
  have hu : 0 < uids.length := by rwa [hlen, ← Chain.length_sortDefinitions]
  have hi : 0 < (buildStepInstances run steps input uids).length := hlength ▸ hu
  have hfirst := Chain.getElem_buildStepInstances run input hlen hi hu hd
  cases hbuilt : buildStepInstances run steps input uids with
  | nil => simp [hbuilt] at hi
  | cons first others =>
    simp only [hbuilt, hsorted, List.getElem_cons_zero] at hfirst
    exact ⟨first, others, rfl, by rw [hfirst]; rfl, by rw [hfirst]; rfl⟩

/-- **The start of a workflow decides by its functions.** If the catalog of workflows answers with a
definition and its steps, and the first step in the order of execution does not stand for a
workflow, a run is made with a step for each definition, and what is decided of it is right for
whatever the catalog of functions answers first. -/
theorem start_decision {depth : Nat} {workflow : Uid} {definition : WorkflowDefinition}
    {listed steps rest : List StepDefinition} {d : StepDefinition} {input : Json.Object}
    {parent parentStep : Option Uid} {r : Except EngineError RunSnapshot} (hs : Grounded s)
    (hdefinition : ∀ a, R (.getWorkflow workflow) a → a = .ok definition)
    (hlisted : ∀ a, R (.getStepList workflow) a → a = .ok listed)
    (hsteps : steps = if definition.steps.isEmpty then listed else definition.steps)
    (hsorted : sortDefinitions steps = d :: rest) (hshape : d.shape.control ≠ .subWorkflow)
    (hD : D.Consulted ((Setup.referencedFunctions steps).map (·.1)) l)
    (h : Logs R (setup.startNested (depth + 1) workflow input parent parentStep) s l r s') :
    ∃ e others first, s'.made = s.made ++ e :: others ∧
      (∃ uids, e.2 = buildStepInstances e.1.uid steps input uids) ∧ e.2.head? = some first ∧
      StartDecision D steps setup
        (fun workflow input parent parentStep ↦ do
          let _ ← setup.startNested depth workflow input (some parent) (some parentStep))
        first e.1.uid l r s' := by
  have hne : steps ≠ [] := by
    rintro rfl
    cases hsorted
  -- The catalog of workflows answers with the definition and its steps.
  rcases logs_bind.1 h with ⟨error, h₁, -⟩ | ⟨l₁, l', definition', s₁, rfl, h₁, h'⟩
  · cases hdefinition _ (logs_getWorkflow.1 h₁).2.1
  obtain ⟨rfl, hR, rfl⟩ := logs_getWorkflow.1 h₁
  obtain rfl := Except.ok.inj (hdefinition _ hR)
  have hstepsOf : Asks Call.isPreparatory (Setup.stepsOf definition' workflow) :=
    .ite ⟨⟨rfl, nofun⟩, fun _ ↦ trivial⟩ (.pure _)
  have hlist : ∀ {l₂ found s₂}, Logs R (Setup.stepsOf definition' workflow) s₁ l₂ found s₂ →
      found = .ok steps ∧ s₂ = s₁ := by
    intro l₂ found s₂ h₂
    unfold Setup.stepsOf at h₂
    by_cases hempty : definition'.steps.isEmpty
    · rw [if_pos hempty] at h₂ hsteps
      obtain ⟨-, hR, rfl⟩ := logs_getStepList.1 h₂
      exact ⟨hsteps ▸ hlisted _ hR, rfl⟩
    · rw [if_neg hempty] at h₂ hsteps
      obtain ⟨-, rfl, rfl⟩ := logs_pure.1 h₂
      exact ⟨by rw [hsteps], rfl⟩
  rcases logs_bind.1 h' with ⟨error, h₂, -⟩ | ⟨l₂, l'', steps', s₂, rfl, h₂, h''⟩
  · cases (hlist h₂).1
  obtain ⟨hfound, rfl⟩ := hlist h₂
  obtain rfl := Except.ok.inj hfound
  -- The run is made.
  rcases logs_bind.1 h'' with ⟨error, h₃, -⟩ | ⟨l₃, l₄, e, s₃, rfl, h₃, h₄⟩
  · obtain ⟨_, _, he, -⟩ := built_of_generate hs hne h₃.runs
    cases he
  obtain ⟨e', uids, he, hgen, hlen, hbuilt⟩ := built_of_generate hs hne h₃.runs
  obtain rfl := Except.ok.inj he
  obtain ⟨others, hmade⟩ := h₄.runs.made_prefix
  obtain ⟨first, following, hcons, -, hfirst⟩ :=
    buildStepInstances_eq_cons e.1.uid input hlen hsorted
  have hheaded := Chain.headed_buildStepInstances e.1.uid input hlen hne
  rw [hcons] at hheaded
  refine ⟨e, others, first, ?_, ⟨uids, hbuilt⟩, by rw [hbuilt, hcons]; rfl, ?_⟩
  · rw [← hmade, hgen.made, List.append_assoc]
    rfl
  have hgenerate := (asks_generate (φ := Call.isPreparatory) ⟨rfl, nofun⟩ ⟨rfl, nofun⟩
    (fun _ _ ↦ ⟨rfl, nofun⟩) _ _ _ _ _).makes h₃
  refine .afterCall ⟨rfl, nofun⟩ hD fun hD ↦ .after l₂ (hstepsOf.makes h₂) hD fun hD ↦
    .after l₃ hgenerate hD fun hD ↦ ?_
  exact decision_of_startRun hgen.keyed hgen.isNew (hgen.chain.trans (hbuilt.trans hcons)) hheaded
    (hfirst ▸ hshape) hD h₄

/-- The catalog that knows some functions. -/
def Directory.ofList (functions : List FunctionInfo) : Directory where
  find f := functions.find? (·.uid = f)
  uid_eq _ _ h := by simpa using List.find?_some h

theorem Directory.answers_ofList {functions : List FunctionInfo} {f : Uid}
    {a : Except EngineError FunctionInfo}
    (h : a = (functions.find? (·.uid = f)).elim (.error (.functionNotFound f)) .ok) :
    (ofList functions).Answers f a := by
  have hfind : (ofList functions).find f = functions.find? (·.uid = f) := rfl
  unfold Answers
  rw [hfind, h]
  cases functions.find? (·.uid = f) with
  | none => exact ⟨_, rfl, rfl⟩
  | some info => rfl

/-- A workflow with steps that share functions. -/
def sharing : WorkflowDefinition :=
  { uid := .ofNat 1
    name := "sharing"
    steps :=
      [{ uid := .ofNat 2, name := "call", executionOrder := 1, shape := .simple (.ofNat 9) },
        { uid := .ofNat 3
          name := "decide"
          executionOrder := 2
          shape := .switch "[call.output.kind]"
            [("default", .function (.ofNat 9)), ("other", .function (.ofNat 10))] },
        { uid := .ofNat 4
          name := "loop"
          executionOrder := 3
          shape := .doWhile (.ofNat 11) "runCount > 1" }] }

/-- One function that may be deployed, one that is being deployed, and one that is. -/
def sharedFunctions : List FunctionInfo :=
  [lazyFunction,
    { uid := .ofNat 10, name := "coming", deploymentState := .deploying, lazyDeployment := true },
    { uid := .ofNat 11, name := "there", deploymentState := .deployed }]

/-- A run of `sharing` is started. -/
def sharedStart : Except EngineError RunSnapshot × List Moment × Scene :=
  ((Collaborators.knowing sharedFunctions sharing []).record 0
    (queueSetup.startNested 2 (.ofNat 1) [] none none).run {}).get (by decide +kernel)

/-- A start whose functions can all be had, although one is missing, is asked for once by two
steps. -/
theorem start_decision_of_sharing :
    Logs (Collaborators.knowing sharedFunctions sharing []).rule
      (queueSetup.startNested 2 (.ofNat 1) [] none none) {} sharedStart.2.1 sharedStart.1
        sharedStart.2.2 ∧
    commitments sharedStart.2.1 =
      [.deployFunction (.ofNat 9), .spawn (.watch (World.nthUid 0) [.ofNat 9, .ofNat 10])] ∧
    ∃ e others first, sharedStart.2.2.made = e :: others ∧ e.2.head? = some first ∧
      StartDecision (.ofList sharedFunctions) sharing.steps queueSetup
        (fun workflow input parent parentStep ↦ do
          let _ ← queueSetup.startNested 1 workflow input (some parent) (some parentStep))
        first e.1.uid sharedStart.2.1 sharedStart.1 sharedStart.2.2 := by
  have hlogs : Logs (Collaborators.knowing sharedFunctions sharing []).rule
      (queueSetup.startNested 2 (.ofNat 1) [] none none) {} sharedStart.2.1 sharedStart.1
      sharedStart.2.2 := Collaborators.logged_get _ _
  refine ⟨hlogs, by decide +kernel, ?_⟩
  have hdefinition : ∀ a, (Collaborators.knowing sharedFunctions sharing []).rule
      (.getWorkflow (.ofNat 1)) a → a = .ok sharing := fun _ h ↦ h
  have hlisted : ∀ a, (Collaborators.knowing sharedFunctions sharing []).rule
      (.getStepList (.ofNat 1)) a → a = .ok [] := fun _ h ↦ h
  have hsorted : sortDefinitions sharing.steps = sharing.steps.head (by decide) ::
      sharing.steps.tail := by
    decide +kernel
  obtain ⟨e, others, first, hmade, -, hfirst, hdecision⟩ :=
    start_decision (D := .ofList sharedFunctions) (standing_empty queueSetup fun _ ↦ False).grounded
      hdefinition hlisted rfl hsorted (by decide)
      (Directory.consulted_of_answers (fun _ _ ↦ Directory.answers_ofList) hlogs.obeys _) hlogs
  exact ⟨e, others, first, hmade, hfirst, hdecision⟩

/-- Catalogs that know the shared functions, and do not deploy any. -/
def refusing : Collaborators :=
  { Collaborators.knowing sharedFunctions sharing [] with deploy := fun _ ↦ .error outOfReach }

/-- A run of `sharing` is started, and the deployment that it needs is refused. -/
def startInVain : Except EngineError RunSnapshot × List Moment × Scene :=
  (refusing.record 0 (queueSetup.startNested 2 (.ofNat 1) [] none none).run {}).get
    (by decide +kernel)

/-- A workflow whose first step is a decision that starts another workflow. -/
def decideToDelegate : WorkflowDefinition :=
  { uid := .ofNat 1
    name := "decide to delegate"
    steps :=
      [{ uid := .ofNat 2
         name := "decide"
         executionOrder := 1
         shape := .switch "'x'" [("default", .subWorkflow (.ofNat 5))] }] }

/-- Catalogs that know `decideToDelegate`, the workflow that it starts, and the function of that
one. -/
def deciding : Collaborators := .knowing [lazyFunction] decideToDelegate [delegated]

def decidedStart : Except EngineError RunSnapshot × List Moment × Scene :=
  (deciding.record 0 (queueSetup.startNested 2 (.ofNat 1) [] none none).run {}).get
    (by decide +kernel)

/-- All functions of a run can be had, and one of them is not deployed, but the run does not wait
for it: its deployment is refused, the start fails, and the run stays new. And all functions of a
run are deployed, it has none, but a deployment is asked for: its first step is a decision that
starts another run, which has a function to wait for. -/
theorem start_decision_exceptions :
    (Logs refusing.rule (queueSetup.startNested 2 (.ofNat 1) [] none none) {} startInVain.2.1
        startInVain.1 startInVain.2.2 ∧
      (sortDefinitions sharing.steps).map (·.shape.control) = [.simple, .switch, .doWhile] ∧
      (∀ f a, refusing.rule (.getFunction f) a → (Directory.ofList sharedFunctions).Answers f a) ∧
      (∀ f, MayNeed sharing.steps f → ¬(Directory.ofList sharedFunctions).Unavailable f) ∧
      (∃ f, MayNeed sharing.steps f ∧ ¬(Directory.ofList sharedFunctions).Deployed f) ∧
      startInVain.2.2.made.map (·.1.uid) = [World.nthUid 0] ∧
      startInVain.1 = .error outOfReach ∧
      (startInVain.2.2.tables.run? (World.nthUid 0)).map (·.runStatus) = some .new ∧
      ¬AwaitsFunctions (.ofList sharedFunctions) sharing.steps (World.nthUid 0) startInVain.2.1
        startInVain.2.2) ∧
    Logs deciding.rule (queueSetup.startNested 2 (.ofNat 1) [] none none) {} decidedStart.2.1
      decidedStart.1 decidedStart.2.2 ∧
    (sortDefinitions decideToDelegate.steps).map (·.shape.control) = [.switch] ∧
    (∀ f a, deciding.rule (.getFunction f) a → (Directory.ofList [lazyFunction]).Answers f a) ∧
    (∀ f, MayNeed decideToDelegate.steps f → (Directory.ofList [lazyFunction]).Deployed f) ∧
    (decidedStart.2.2.tables.run? (World.nthUid 0)).map (·.runStatus) = some .running ∧
    .deployFunction (.ofNat 9) ∈ commitments decidedStart.2.1 := by
  constructor
  · have hnew : (startInVain.2.2.tables.run? (World.nthUid 0)).map (·.runStatus) = some .new := by
      decide +kernel
    have hall : ∀ f ∈ (Setup.referencedFunctions sharing.steps).map (·.1),
        ¬(Directory.ofList sharedFunctions).Unavailable f := by decide +kernel
    have hnot : ¬(Directory.ofList sharedFunctions).Deployed (.ofNat 9) := by decide +kernel
    refine ⟨Collaborators.logged_get _ _, by decide +kernel, fun _ _ ↦ Directory.answers_ofList,
      fun f hf ↦ hall f (mem_keys_referencedFunctions.2 hf),
      ⟨.ofNat 9, ⟨_, List.mem_cons_self, by decide⟩, hnot⟩, by decide +kernel, by decide +kernel,
      hnew, ?_⟩
    rintro ⟨⟨q, hq, hwaiting⟩, -⟩
    rw [hq, Option.map_some, hwaiting] at hnew
    cases hnew
  · refine ⟨Collaborators.logged_get _ _, by decide +kernel, fun _ _ ↦ Directory.answers_ofList, ?_,
      by decide +kernel, by decide +kernel⟩
    rintro f ⟨d, hd, hf⟩
    obtain rfl := List.mem_singleton.1 hd
    exact absurd hf List.not_mem_nil

end Engine

end Orchestration
