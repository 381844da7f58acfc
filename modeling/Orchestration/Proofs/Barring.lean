import Orchestration.Proofs.OperationConduct

/-!
# Runs that are barred

A run that does not begin with another run looks all its functions up before anything else happens
to it. If one of them is not deployed and nobody may deploy it, the run is barred: it ends at once,
and no work is handed over. So it does if a function is not known. Only where a lookup fails in
another way the run is left as it is.
-/

namespace Orchestration

namespace Engine

open Chain

variable {α : Type} {R : Rule} {setup : Setup} {startChild : StartChild} {s s' : Scene}
  {l : List Moment} {u f : Uid}

/-! ## Handing nothing over -/

def Call.handsOver : Call → Bool
  | .publish .work _ | .post .. => true
  | _ => false

theorem Call.handsOver_of_isPlain {c : Call} (h : c.isPlain) : c.handsOver = false := by
  cases c with
  | publish channel =>
    cases channel with
    | work => exact absurd rfl h
    | results | deployments | notifications => rfl
  | post => exact h.elim
  | _ => rfl

theorem Call.handsOver_of_consults {c : Call} (h : c.consults) : c.handsOver = false := by
  cases c with
  | getFunction | deployFunction | getWorkflow | getStepList | now => rfl
  | _ => exact h.elim

/-- An action hands no work over. -/
abbrev Withholds (a : Action α) : Prop := Asks (fun c ↦ c.handsOver = false) a

theorem Plain.withholds {a : Action α} (h : Plain a) : Withholds a :=
  h.mono fun _ ↦ Call.handsOver_of_isPlain

theorem withholds_of_consults {a : Action α} (h : Asks Call.consults a) : Withholds a :=
  h.mono fun _ ↦ Call.handsOver_of_consults

theorem withholds_newUids (n : Nat) : Withholds (Action.newUids n) := by
  induction n with
  | zero => exact .pure _
  | succ n ih => exact .bind ⟨rfl, fun _ ↦ trivial⟩ fun _ ↦ .bind ih fun _ ↦ .pure _

theorem withholds_generate (definition : WorkflowDefinition) (steps : List StepDefinition)
    (input : Json.Object) (parent parentStep : Option Uid) :
    Withholds (generate definition steps input parent parentStep) := by
  unfold generate
  refine .ite trivial (.bind ⟨rfl, fun _ ↦ trivial⟩ fun run ↦
    .bind (withholds_newUids _) fun uids ↦ ?_)
  dsimp only
  exact .bind ⟨rfl, fun _ ↦ trivial⟩ fun _ ↦ .bind (.store rfl) fun _ ↦ .pure _

/-! ## Being barred -/

/-- Nothing has been handed over, and a run has failed for good. -/
structure Barred (u : Uid) (l : List Moment) (s : Scene) : Prop where
  withheld : ∀ m ∈ l, m.call.handsOver = false
  ended : ∃ q, s.tables.run? u = some q ∧ q.runStatus = .failedWithTerminalError

theorem Barred.after {l₁ : List Moment} (h : Barred u l s)
    (hl₁ : ∀ m ∈ l₁, m.call.handsOver = false) : Barred u (l₁ ++ l) s :=
  ⟨fun m hm ↦ (List.mem_append.1 hm).elim (hl₁ m) (h.withheld m), h.ended⟩

theorem barred_of_terminate {failure : Option Failure} {output : Option Json.Object}
    {r : Except EngineError Unit} (hk : s.tables.Keyed) (hnew : IsNew s u)
    (h : Logs R (setup.terminate u .failedWithTerminalError failure output) s l r s') :
    Barred u l s' := by
  obtain ⟨q, hq, hstatus⟩ := hnew
  have hgoes : q.runStatus.isTerminal = false := by
    rw [hstatus]
    rfl
  refine ⟨(plain_terminate setup u _ failure output).withholds.makes h, ?_⟩
  obtain ⟨time, hreport⟩ := runs_terminate hk hq hgoes h.runs
  have hkeeps : Keeps R (fun t ↦ t.tables =
      s.tables.putRun (endedRun q .failedWithTerminalError failure output time))
      (reportToParent (endedRun q .failedWithTerminalError failure output time)
        .failedWithTerminalError (failure.map Failure.text)
        ((finalOutput? .failedWithTerminalError output).getD [])) :=
    keeps_reportToParent_of (fun result t r t' ht hrun ↦ by
      obtain ⟨-, rfl⟩ := runs_publish.1 hrun
      exact (tables_publish t _ _ _).trans ht) _ _ _ _
  have hend := hkeeps rfl hreport
  refine ⟨endedRun q .failedWithTerminalError failure output time, ?_, rfl⟩
  rw [hend]
  exact hk.run?_putRun hq (Store.Tables.mem_of_run? hq).2

/-- The error that a lookup of a function has failed with. -/
def Moment.lookUpError? : Moment → Option EngineError
  | ⟨_, .getFunction _, .error e⟩ => some e
  | _ => none

/-- Lookups in a row fail only if one of them fails, and not because a function is not known. -/
theorem logs_lookUpFunctions_error {refs : List (Uid × String)} {e : EngineError}
    (h : Logs R (Setup.lookUpFunctions refs) s l (.error e) s') :
    ∃ m ∈ l, m.lookUpError? = some e ∧ e.kind ≠ .notFound := by
  induction refs generalizing s l with
  | nil => cases (logs_pure.1 h).2.1
  | cons ref rest ih =>
    rcases logs_bind.1 h with ⟨e, h₁, -⟩ | ⟨l₁, l₂, found, s₁, rfl, h₁, hrest⟩
    · obtain ⟨_, -, he⟩ := logs_attempt.1 h₁
      cases he
    obtain ⟨found', h₁, hfound⟩ := logs_attempt.1 h₁
    obtain rfl := Except.ok.inj hfound
    obtain ⟨rfl, -, rfl⟩ := logs_getFunction.1 h₁
    cases found with
    | error e' =>
      dsimp only at hrest
      split at hrest
      · cases (logs_pure.1 hrest).2.1
      · next hkind =>
        obtain ⟨rfl, he, -⟩ := logs_throw.1 hrest
        obtain rfl := Except.error.inj he
        exact ⟨_, List.mem_cons_self, rfl, hkind⟩
    | ok info =>
      dsimp only at hrest
      rcases logs_bind.1 hrest with ⟨e', h₃, he⟩ | ⟨l₃, l₄, others, s₃, rfl, -, h₄⟩
      · obtain rfl := Except.error.inj he
        obtain ⟨m, hm, herror⟩ := ih h₃
        exact ⟨m, List.mem_cons_of_mem _ hm, herror⟩
      · cases (logs_pure.1 h₄).2.1

/-- What the lookups in a log answer about a function that nobody may deploy. -/
structure Undeployable (l : List Moment) (f : Uid) : Prop where
  undeployed : ∀ m ∈ l, ∀ info, m.finds? f = some info →
    info.isDeployed = false ∧ info.lazyDeployment = false
  answered : ∀ m ∈ l, ∀ e, m.lookUpError? = some e → e.kind = .notFound

theorem Undeployable.subset {l' : List Moment} (h : Undeployable l f) (hl : l' ⊆ l) :
    Undeployable l' f :=
  ⟨fun m hm ↦ h.undeployed m (hl hm), fun m hm ↦ h.answered m (hl hm)⟩

/-- **A new run is barred by a function that nobody may deploy.** -/
theorem barred_of_prepareFunctions {steps : List StepDefinition} {first : StepInstance}
    {r : Except EngineError Unit} (hk : s.tables.Keyed) (hnew : IsNew s u)
    (hf : f ∈ (Setup.referencedFunctions steps).map (·.1)) (hl : Undeployable l f)
    (h : Logs R (setup.prepareFunctions startChild u steps first) s l r s') : Barred u l s' := by
  rcases logs_bind.1 h with ⟨e, h₁, -⟩ | ⟨l₁, l₂, found, s₁, rfl, h₁, hrest⟩
  · obtain ⟨m, hm, herror, hkind⟩ := logs_lookUpFunctions_error h₁
    exact absurd (hl.answered m hm e herror) hkind
  have hwithheld := (withholds_of_consults (asks_lookUpFunctions _)).makes h₁
  obtain ⟨-, rfl⟩ := Makes.scene_of_idles
    ((asks_lookUpFunctions _).makes.mono fun _ ↦ Call.isIdle_of_consults) h₁
  cases found with
  | error failure => exact (barred_of_terminate hk hnew hrest).after hwithheld
  | ok undeployed =>
    dsimp only at hrest
    split at hrest
    · exact (barred_of_terminate hk hnew hrest).after hwithheld
    · next hnone =>
      -- The function is one of those that have been found not to be deployed.
      obtain ⟨m, hm, info, hinfo, hseen⟩ := (logs_lookUpFunctions h₁).2 undeployed rfl f hf
      obtain ⟨hundeployed, hlazy⟩ := hl.undeployed m (List.mem_append_left _ hm) info hinfo
      rw [hundeployed] at hseen
      obtain ⟨entry, hentry, rfl⟩ := List.mem_map.1 (hseen.resolve_left Bool.false_ne_true)
      have hmay := List.find?_eq_none.1 hnone entry hentry
      rw [hlazy] at hmay
      exact absurd rfl hmay

/-! ## Starting a run -/

/-- Only that a run has no first step can keep its first step from being found. -/
theorem kind_of_firstStep {e : EngineError} (h : Logs R (firstStep u) s l (.error e) s') :
    e.kind = .notFound := by
  rcases logs_bind.1 h with ⟨e', h₁, -⟩ | ⟨l₁, l₂, steps, s₁, -, -, h₂⟩
  · cases (logs_store.1 h₁).2.1
  · split at h₂
    · cases (logs_pure.1 h₂).2.1
    · obtain rfl := Except.error.inj (logs_throw.1 h₂).2.1
      rfl

theorem writes_setRunStartTime_of_isNew (hk : s.tables.Keyed) (hnew : IsNew s u) (time : Instant) :
    ∃ t, Writes s.tables (Action.store (.setRunStartTime u time)) () t ∧ t.Keyed ∧
      t.steps = s.tables.steps ∧ IsNew { s with tables := t } u := by
  obtain ⟨q, hq, hstatus⟩ := hnew
  have hans : s.tables.answer (.setRunStartTime u time) =
      (.ok (), s.tables.putRun { q with startTime := some time }) :=
    Store.Tables.onRun_of_some hq _
  have hwrites := Writes.store (c := .setRunStartTime u time) (congrArg Prod.fst hans) rfl
  rw [hans] at hwrites
  exact ⟨_, hwrites, hk.putRun _, rfl, _, hk.run?_putRun hq
    (Store.Tables.mem_of_run? hq).2, hstatus⟩

/-- **A new run that does not begin with another one is barred by a function that nobody may
deploy**, as soon as it starts. -/
theorem barred_of_startRun {definition : WorkflowDefinition} {steps : List StepDefinition}
    {r : Except EngineError RunSnapshot} (hk : s.tables.Keyed) (hnew : IsNew s u)
    (hfirst : ∀ x ∈ s.tables.chainOf u, x.runOrderLabel = .first → x.shape.control ≠ .subWorkflow)
    (hf : f ∈ (Setup.referencedFunctions steps).map (·.1)) (hl : Undeployable l f)
    (h : Logs R (setup.startRun startChild u definition steps) s l r s') : Barred u l s' := by
  unfold Setup.startRun setRunStartTime at h
  rw [bind_assoc] at h
  obtain ⟨time, l₀, rfl, h₀⟩ := Logs.of_now h
  obtain ⟨t, hwrites, hkt, hsteps, hnewt⟩ := writes_setRunStartTime_of_isNew hk hnew time
  obtain ⟨l₁, l₂, rfl, hl₁, h⟩ :=
    hwrites.logs_next (Makes.store (φ := fun c ↦ c.handsOver = false) rfl) h₀
  replace hl : Undeployable l₂ f :=
    hl.subset (List.subset_cons_of_subset _ (List.subset_append_right l₁ l₂))
  suffices hbarred : Barred u l₂ s' by
    refine ((hbarred.after hl₁).after fun m hm ↦ ?_ : Barred u ([_] ++ (l₁ ++ l₂)) s')
    rw [List.mem_singleton.1 hm]
    rfl
  rcases logs_bind.1 h with ⟨e, h₁, -⟩ | ⟨l₂, l₃, found, s₁, rfl, h₁, hrest⟩
  · obtain ⟨_, -, he⟩ := logs_attempt.1 h₁
    cases he
  obtain ⟨found', h₁, hfound⟩ := logs_attempt.1 h₁
  obtain rfl := Except.ok.inj hfound
  obtain rfl := still_firstStep u h₁.runs
  have hl₂ := (Asks.makes (asks_firstStep (φ := fun c ↦ c.handsOver = false) rfl)) h₁
  refine Barred.after ?_ hl₂
  -- What is shown of the run in the end changes nothing.
  have hstate : ∀ {a : Action Unit} {l : List Moment} {r : Except EngineError RunSnapshot},
      (∀ {l r s'}, Logs R a { s with tables := t } l r s' → l ⊆ l₃ → Barred u l s') → l ⊆ l₃ →
      Logs R (a >>= fun _ ↦ state u) { s with tables := t } l r s' → Barred u l s' := by
    intro a l r ha hsub h
    rcases logs_bind.1 h with ⟨e, h₂, -⟩ | ⟨l₄, l₅, _, s₂, rfl, h₂, h₃⟩
    · exact ha h₂ hsub
    · obtain rfl := still_state u h₃.runs
      have hbarred := ha h₂ fun m hm ↦ hsub (List.mem_append_left _ hm)
      exact ⟨fun m hm ↦ (List.mem_append.1 hm).elim (hbarred.withheld m)
        ((harmless_state u).plain.withholds.makes h₃ m), hbarred.ended⟩
  cases found with
  | error e =>
    dsimp only at hrest
    rw [if_pos (kind_of_firstStep h₁)] at hrest
    exact hstate (fun h _ ↦ barred_of_terminate hkt hnewt h) (List.Subset.refl _) hrest
  | ok first =>
    have hmem := runs_firstStep h₁.runs
    have hchain : t.chainOf u = s.tables.chainOf u := by
      rw [Store.Tables.chainOf, hsteps]
      rfl
    dsimp only at hrest
    rw [if_neg (hfirst first (hchain ▸ hmem.1) hmem.2)] at hrest
    exact hstate (fun h hsub ↦ barred_of_prepareFunctions hkt hnewt hf (hl.subset fun m hm ↦
      List.mem_append_right _ (hsub hm)) h) (List.Subset.refl _) hrest

/-! ## Starting a workflow -/

/-- A run begins with another run. -/
def BeginsBelow (e : WorkflowInstance × List StepInstance) : Prop :=
  ∃ x ∈ e.2, x.runOrderLabel = .first ∧ x.shape.control = .subWorkflow

theorem Scene.made_prefix_after (s : Scene) (c : Call) (a : c.Answer) :
    s.made <+: (s.after c a).made := by
  cases c with
  | store c => exact List.prefix_append _ _
  | publish channel payload =>
    show s.made <+: (s.publish channel payload _).made
    unfold Scene.publish
    split
    · exact List.prefix_rfl
    · exact List.prefix_rfl
  | _ => exact List.prefix_rfl

theorem Leads.made_prefix {p : Program Call.Answer α} {a : α} (h : Leads R p s a s') :
    s.made <+: s'.made := by
  induction p generalizing s with
  | done b =>
    obtain ⟨-, rfl⟩ := h
    exact List.prefix_rfl
  | call c next ih =>
    obtain ⟨answer, -, -, h⟩ := h
    exact (s.made_prefix_after c answer).trans (ih answer h)

/-- A run is generated from definitions. It is new then, and has the steps that it is made with. -/
structure Generated (s : Scene) (steps : List StepDefinition)
    (e : WorkflowInstance × List StepInstance) (s' : Scene) : Prop where
  keyed : s'.tables.Keyed
  isNew : IsNew s' e.1.uid
  chain : s'.tables.chainOf e.1.uid = e.2
  madeFrom : MadeFrom steps e
  made : s'.made = s.made ++ [e]

/-- **Whoever generates a run makes it, or makes nothing.** -/
theorem generated_of_generate {definition : WorkflowDefinition} {steps : List StepDefinition}
    {input : Json.Object} {parent parentStep : Option Uid}
    {r : Except EngineError (WorkflowInstance × List StepInstance)} (hs : Grounded s)
    (h : Runs R (generate definition steps input parent parentStep) s r s') :
    (∃ error, r = .error error) ∧ s' = s ∨ ∃ e, r = .ok e ∧ Generated s steps e s' := by
  rcases runs_generate_cases h with ⟨-, rfl, rfl⟩ | ⟨run, uids, time, instances, new,
    -, hlen, hnd, hrun, hfresh, hinst, hnew, -, rfl, rfl⟩
  · exact .inl ⟨⟨_, rfl⟩, rfl⟩
  have huid : new.uid = run := hnew ▸ rfl
  have hmap : instances.map (·.uid) = uids := hinst ▸ map_uid_buildStepInstances run input hlen
  have hof := fun x hx ↦ of_mem_buildStepInstances run input hlen (hinst ▸ hx : x ∈ _)
  have hown : ∀ x ∈ instances, x.workflowInstanceUid = new.uid :=
    fun x hx ↦ (hof x hx).2.1.trans huid.symm
  have hruns : ∀ q ∈ s.tables.runs, q.uid ≠ new.uid :=
    fun q hq hu ↦ hrun (huid ▸ hu ▸ hs.runsIssued q hq)
  have hsteps : ∀ x ∈ instances, ∀ y ∈ s.tables.steps, y.uid ≠ x.uid := fun x hx y hy hu ↦
    hfresh x.uid (hmap ▸ List.mem_map_of_mem hx) (List.mem_append_left _ (hu ▸ hs.stepsIssued y hy))
  have hans : s.tables.answer (.insertRun new instances) =
      (.ok (), withRun s.tables new instances) :=
    answer_insertRun hruns (hmap ▸ hnd) hsteps
  have hkeyed : (withRun s.tables new instances).Keyed := by
    have huids : ∀ x ∈ instances, x.uid ∈ uids := fun x hx ↦ hmap ▸ List.mem_map_of_mem hx
    exact (hs.withRun (List.subset_append_left s.issued (new.uid :: uids))
      ⟨List.mem_append_right _ List.mem_cons_self, huid ▸ hrun⟩
      (fun x hx ↦ ⟨List.mem_append_right _ (List.mem_cons_of_mem _ (huids x hx)),
        fun hold ↦ hfresh x.uid (huids x hx) (List.mem_append_left _ hold)⟩) (hmap ▸ hnd) hown
      (hinst ▸ linked_buildStepInstances run input hlen hnd) (hnew ▸ rfl) fun hG ↦ hG.elim).keyed
  refine .inr ⟨(new, instances), congrArg (Except.map _) (congrArg Prod.fst hans), ?_⟩
  have htables : ({ s.issue run with issued := (s.issue run).issued ++ uids }.afterStore
      (.insertRun new instances)).tables = withRun s.tables new instances := congrArg Prod.snd hans
  refine ⟨htables ▸ hkeyed, ⟨new, ?_, hnew ▸ rfl⟩, ?_, fun x hx ↦ (hof x hx).2.2, rfl⟩
  · rw [htables]
    exact hkeyed.run?_iff.2 ⟨List.mem_append_right _ (List.mem_singleton_self _), rfl⟩
  · rw [htables]
    exact chainOf_withRun_self hs.keyed hruns hown

/-- **A start makes a run and starts it**, or makes none. -/
theorem logs_startWith {workflow : Uid} {input : Json.Object} {parent parentStep : Option Uid}
    {r : Except EngineError RunSnapshot} (hs : Grounded s)
    (h : Logs R (setup.startWith startChild workflow input parent parentStep) s l r s') :
    s' = s ∨ ∃ definition steps e l₁ l₂ s₁, l = l₁ ++ l₂ ∧ (∀ m ∈ l₁, m.call.handsOver = false) ∧
      Generated s steps e s₁ ∧
        Logs R (setup.startRun startChild e.1.uid definition steps) s₁ l₂ r s' := by
  rcases logs_bind.1 h with ⟨error, h₁, -⟩ | ⟨l₁, l', definition, s₁, rfl, h₁, h'⟩
  · exact .inl (logs_getWorkflow.1 h₁).2.2
  obtain ⟨rfl, -, rfl⟩ := logs_getWorkflow.1 h₁
  have hsteps : Asks Call.consults (Setup.stepsOf definition workflow) :=
    .ite ⟨trivial, fun _ ↦ trivial⟩ (.pure _)
  have hidles : Idles (Setup.stepsOf definition workflow) :=
    hsteps.makes.mono fun _ ↦ Call.isIdle_of_consults
  rcases logs_bind.1 h' with ⟨error, h₂, -⟩ | ⟨l₂, l'', steps, s₂, rfl, h₂, h''⟩
  · exact .inl (Makes.scene_of_idles hidles h₂).2
  obtain ⟨-, rfl⟩ := Makes.scene_of_idles hidles h₂
  have hl₂ := (withholds_of_consults hsteps).makes h₂
  rcases logs_bind.1 h'' with ⟨error, h₃, -⟩ | ⟨l₃, l₄, m, s₃, rfl, h₃, h₄⟩
  · obtain ⟨-, rfl⟩ | ⟨m, hm, -⟩ := generated_of_generate hs h₃.runs
    · exact .inl rfl
    · cases hm
  obtain ⟨⟨error, herror⟩, -⟩ | ⟨m', hm, hgen⟩ := generated_of_generate hs h₃.runs
  · cases herror
  obtain rfl := Except.ok.inj hm
  have hl₃ := (withholds_generate _ _ _ _ _).makes h₃
  refine .inr ⟨definition, steps, m, [⟨s₂, .getWorkflow workflow, .ok definition⟩] ++
    (l₂ ++ l₃), l₄, s₃, by rw [List.append_assoc, List.append_assoc], fun m hm ↦ ?_, hgen, h₄⟩
  rcases List.mem_append.1 hm with hm | hm
  · rw [List.mem_singleton.1 hm]
    rfl
  · exact (List.mem_append.1 hm).elim (hl₂ m) (hl₃ m)

/-- **A start is barred by a function that nobody may deploy**, unless the run begins with another
run. -/
theorem barred_of_startNested {depth : Nat} {workflow : Uid} {input : Json.Object}
    {parent parentStep : Option Uid} {r : Except EngineError RunSnapshot} (hs : Grounded s)
    (h : Logs R (setup.startNested depth workflow input parent parentStep) s l r s')
    {e : WorkflowInstance × List StepInstance}
    {others : List (WorkflowInstance × List StepInstance)}
    (hmade : s'.made = s.made ++ e :: others) (hbegins : ¬BeginsBelow e) {x : StepInstance}
    (hx : x ∈ e.2) (hf : f ∈ x.shape.functionRefs) (hl : Undeployable l f) :
    Barred e.1.uid l s' := by
  have hstart : s' = s ∨ ∃ startChild definition steps e l₁ l₂ s₁, l = l₁ ++ l₂ ∧
      (∀ m ∈ l₁, m.call.handsOver = false) ∧ Generated s steps e s₁ ∧
      Logs R (setup.startRun startChild e.1.uid definition steps) s₁ l₂ r s' := by
    cases depth with
    | zero => exact .inl (logs_throw.1 h).2.2
    | succ depth => exact (logs_startWith hs h).imp_right fun hstart ↦ ⟨_, hstart⟩
  rcases hstart with rfl | ⟨startChild, definition, steps, e', l₁, l₂, s₁, rfl, hl₁, hgen, hrun⟩
  · simp at hmade
  -- The run that is made first is the one that is started.
  obtain rfl : e' = e := by
    obtain ⟨rest, hrest⟩ := hrun.runs.made_prefix
    rw [hgen.made, hmade, List.append_assoc] at hrest
    exact (List.cons.inj (List.append_cancel_left hrest)).1
  obtain ⟨d, hd, hshape⟩ := hgen.madeFrom x hx
  refine Barred.after (barred_of_startRun hgen.keyed hgen.isNew (fun y hy hfirst hcontrol ↦ ?_)
    (mem_keys_referencedFunctions.2 ⟨d, hd, hshape ▸ hf⟩)
    (hl.subset (List.subset_append_right _ _)) hrun) hl₁
  exact hbegins ⟨y, hgen.chain ▸ hy, hfirst, hcontrol⟩

end Engine

end Orchestration
