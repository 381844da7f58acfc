import Orchestration.Proofs.LaunchDeeds

/-!
# The deeds of a start

A run is made where somebody asks for it: whoever starts it, or the launch of a step that has just
been made. It is new, and stays new until it is known whether all its functions are deployed. Then
it begins and is launched at its first step, or waits, or fails.

The first step may start another run, and so on, so starts and launches are followed by induction on
how many more may follow.
-/

namespace Orchestration

namespace Engine

open Chain

variable {R : Rule} {setup : Setup} {G : Uid → Prop} {o : Operation} {s₀ s s' : Scene}
variable {log l : List Moment} {startChild : StartChild} {step : StepInstance}

/-! ## Making a run -/

theorem makes_newUids (n : Nat) : Makes (· = .newUid) (Action.newUids n) := by
  induction n with
  | zero => exact .pure _
  | succ n ih =>
    refine .bind (fun R s l r s' h m hm ↦ ?_) fun _ ↦ .bind ih fun _ ↦ .pure _
    obtain ⟨_, rfl, -⟩ := logs_newUid.1 h
    rw [List.mem_singleton.1 hm]

theorem Origin.lasts {parent parentStep : Option Uid} (h : Origin o log parent parentStep)
    (hl : ∀ m ∈ l, m.Idle) : Origin o (log ++ l) parent parentStep := by
  cases h with
  | outside workflow input h => exact .outside workflow input h
  | launch x before after m hlog hm hafter hparent hstep =>
    subst hlog
    refine .launch x before (after ++ l) m ?_ hm (fun m hm ↦ ?_) hparent hstep
    · rw [List.append_assoc, List.cons_append]
    · exact (List.mem_append.1 hm).elim (hafter m) (hl m)

/-- New identifiers are given out, the clock is read, and the run is put in. -/
theorem logs_generate {definition : WorkflowDefinition} {steps : List StepDefinition}
    {input : Json.Object} {parent parentStep : Option Uid}
    {r : Except EngineError (WorkflowInstance × List StepInstance)}
    (h : Logs R (generate definition steps input parent parentStep) s l r s') :
    (l = [] ∧ (∃ e, r = .error e) ∧ s' = s) ∨
    ∃ run uids time instances new s₁ lu a, steps ≠ [] ∧ uids.length = steps.length ∧ uids.Nodup ∧
      run ∉ s.issued ∧ (∀ u ∈ uids, u ∉ (s.issue run).issued) ∧
      instances = buildStepInstances run steps input uids ∧
      new = newRun run definition instances input parent parentStep time ∧
      s₁ = { s.issue run with issued := (s.issue run).issued ++ uids } ∧
      (∀ m ∈ lu, m.call = .newUid) ∧
      l = lu ++ [⟨s₁, .now, time⟩, ⟨s₁, .store (.insertRun new instances), a⟩] ∧
      a = (s₁.tables.answer (.insertRun new instances)).1 ∧
        R (.store (.insertRun new instances)) a ∧
      s' = s₁.afterStore (.insertRun new instances) ∧ ∀ m, r = .ok m → m.1 = new := by
  unfold generate at h
  by_cases hempty : steps.isEmpty
  · rw [if_pos hempty] at h
    rcases logs_bind.1 h with ⟨e, h₁, rfl⟩ | ⟨_, _, _, _, -, h₁, -⟩
    · obtain ⟨rfl, -, rfl⟩ := logs_throw.1 h₁
      exact .inl ⟨rfl, ⟨e, rfl⟩, rfl⟩
    · cases (logs_throw.1 h₁).2.1
  rw [if_neg hempty] at h
  rcases logs_bind.1 h with ⟨e, h₁, -⟩ | ⟨l₁, l₂, run, s₁, rfl, h₁, h₂⟩
  · obtain ⟨_, -, -, -, he, -⟩ := logs_newUid.1 h₁
    cases he
  obtain ⟨run', rfl, hrun, -, hu, rfl⟩ := logs_newUid.1 h₁
  obtain rfl := Except.ok.inj hu
  rcases logs_bind.1 h₂ with ⟨e, h₃, -⟩ | ⟨l₃, l₄, uids, s₂, rfl, h₃, h₄⟩
  · obtain ⟨_, he, -⟩ := runs_newUids h₃.runs
    cases he
  have hl₃ := makes_newUids _ h₃
  obtain ⟨uids', hus, hlen, hnd, hfresh, hs₂⟩ := runs_newUids h₃.runs
  obtain rfl := Except.ok.inj hus
  obtain ⟨time, l₅, rfl, h₅⟩ := h₄.of_now
  have hlu : ∀ m ∈ ⟨s, .newUid, run⟩ :: l₃, m.call = .newUid := by
    intro m hm
    rcases List.mem_cons.1 hm with rfl | hm
    · rfl
    · exact hl₃ m hm
  generalize hinst : buildStepInstances run steps input uids = instances at h₅
  generalize hnew : newRun run definition instances input parent parentStep time = new at h₅
  have hput : ∃ a, l₅ = [⟨s₂, .store (.insertRun new instances), a⟩] ∧
      a = (s₂.tables.answer (.insertRun new instances)).1 ∧
        R (.store (.insertRun new instances)) a ∧
      s' = s₂.afterStore (.insertRun new instances) ∧ ∀ m, r = .ok m → m.1 = new := by
    rcases logs_bind.1 h₅ with ⟨e, h₆, rfl⟩ | ⟨l₆, l₇, _, s₃, rfl, h₆, h₇⟩
    · obtain ⟨rfl, ha, hRins, rfl⟩ := logs_store.1 h₆
      exact ⟨_, rfl, ha, hRins, rfl, fun m hm ↦ nomatch hm⟩
    · obtain ⟨rfl, ha, hRins, rfl⟩ := logs_store.1 h₆
      obtain ⟨rfl, rfl, rfl⟩ := logs_pure.1 h₇
      exact ⟨_, rfl, ha, hRins, rfl, fun m hm ↦ by rw [← Except.ok.inj hm]⟩
  obtain ⟨a, rfl, ha, hRins, rfl, hresult⟩ := hput
  exact .inr ⟨run, uids, time, instances, new, s₂, ⟨s, .newUid, run⟩ :: l₃,
    a, by simpa using hempty, hlen, hnd, hrun, hfresh, hinst.symm, hnew.symm, hs₂, hlu, rfl, ha,
    hRins, rfl, hresult⟩

/-- A run is in the store and is new. -/
def IsNew (s : Scene) (run : Uid) : Prop :=
  ∃ q, s.tables.run? run = some q ∧ q.runStatus = .new

/-- **To make a run is one deed.** The run that has been made is new. -/
theorem does_generate (hR : Guiding R G) {definition : WorkflowDefinition}
    {steps : List StepDefinition} {input : Json.Object} {parent parentStep : Option Uid} :
    Does R setup G o s₀ (fun log _ ↦ Origin o log parent parentStep)
      (generate definition steps input parent parentStep) fun m _ s ↦ IsNew s m.1.uid := by
  intro log s l r s' hd horigin h
  rcases logs_generate h with ⟨rfl, ⟨e, rfl⟩, rfl⟩ | ⟨run, uids, time, instances,
    new, s₁, lu, a, hne, hlen, hnd, hrun, hfresh, hinst, hnew, hs₁, hlu, rfl, ha,
    hRins, rfl, hresult⟩
  · rw [List.append_nil]
    exact ⟨hd, fun _ hx ↦ nomatch hx⟩
  -- The identifiers are new, so the run can be put in.
  obtain ⟨hans, -, hins⟩ :=
    hd.sound.standing.insertNew definition parent parentStep time hne hlen hnd hrun
    hfresh hinst hnew hs₁
  rw [hans] at ha
  subst ha
  have hafter : s₁.afterStore (.insertRun new instances) =
      { s₁ with
        tables := withRun s.tables new instances, made := s.made ++ [(new, instances)] } := by
    have hmade : s₁.made = s.made := by rw [hs₁]; rfl
    simp only [Scene.afterStore, hans, Scene.madeBy, hmade]
  have huid : new.uid = run := by rw [hnew]; rfl
  have hsound : Sound setup G (s₁.afterStore (.insertRun new instances)) := by
    refine ⟨hins (huid ▸ hR _ _ _ hRins), ?_⟩
    rw [hafter]
    constructor
    · intro p hp hgoes
      rcases List.mem_append.1 hp with hp | hp
      · exact hd.sound.clean.unended p hp hgoes
      · rw [List.mem_singleton.1 hp, hnew]
        exact ⟨rfl, rfl⟩
    · intro p hp hgoes
      rcases List.mem_append.1 hp with hp | hp
      · exact hd.sound.clean.unheld p hp hgoes
      · rw [List.mem_singleton.1 hp, hnew]
        rfl
  refine ⟨?_, fun m hm ↦ ⟨new, ?_, by rw [hnew]; rfl⟩⟩
  · have hmake := Deeds.more hd (.make definition steps input parent parentStep run uids time
      instances new lu s₁ hne hlen hnd hrun hfresh hinst hnew hlu horigin hs₁) (hafter ▸ hsound)
    rw [hafter]
    exact hmake
  · rw [hresult m hm]
    refine hsound.keyed.run?_iff.2 ⟨?_, rfl⟩
    rw [hafter]
    exact List.mem_append_right _ (List.mem_singleton_self _)

/-! ## Starting a run -/

variable {run : Uid} {expected : Option RunStatus}

theorem sound_of_moved {q : WorkflowInstance} {status : RunStatus} (hs : Sound setup G s)
    (hq : s.tables.run? run = some q) (hgoes : GoesOn q)
    (hstand : Standing setup G
      { s with tables := s.tables.putRun { q with runStatus := status } }) :
    Sound setup G { s with tables := s.tables.putRun { q with runStatus := status } } :=
  have hqm := (Store.Tables.mem_of_run? hq).1
  ⟨hstand, hs.clean.putRun_of_same hqm hgoes.1 ⟨rfl, rfl⟩ fun _ ↦ hs.clean.unheld q hqm hgoes⟩

theorem goesOn_of_unbegun {q : WorkflowInstance}
    (h : q.runStatus = .new ∨ q.runStatus = .deployingFunctions) : GoesOn q := by
  rcases h with h | h
  · exact ⟨by rw [h]; rfl, by rw [h]; decide⟩
  · exact ⟨by rw [h]; rfl, by rw [h]; decide⟩

theorem IsNew.holdsNothing (h : IsNew s run) (hs : Sound setup G s) : HoldsNothing run s := by
  obtain ⟨q, hq, hnew⟩ := h
  exact hs.holdsNothing hq (goesOn_of_unbegun (.inl hnew))

theorem Deeds.begin (hd : Deeds setup G o s₀ log s)
    (hbefore : ∀ q, s.tables.run? run = some q →
      q.runStatus = .new ∨ q.runStatus = .deployingFunctions)
    (h : Logs R (writeRunStatus run .running expected) s l (.ok true) s') :
    Deeds setup G o s₀ (log ++ l) s' ∧
      ∀ x ∈ s'.tables.chainOf run, x.runOrderLabel = .first → Called G (log ++ l) s' x.uid := by
  obtain ⟨q, rest, hq, hgoes, hexp, rfl, rfl, hrest⟩ := logs_moved h
  obtain ⟨hqm, rfl⟩ := Store.Tables.mem_of_run? hq
  have hkeyed := hd.sound.keyed
  have hwaits : ∀ r ∈ s.tables.runs, r.uid = q.uid →
      (r.runStatus = .new ∨ r.runStatus = .deployingFunctions) ∧
        ∀ e ∈ expected, r.runStatus = e := by
    intro r hr hu
    obtain rfl := hkeyed.eq_of_run hr hqm hu
    exact ⟨hbefore r hq, hexp⟩
  have hforward : Forward q.runStatus .running := by
    rcases hbefore q hq with hb | hb
    · rw [hb]
      exact .begin
    · rw [hb]
      exact .ready
  have hstand : Standing setup G
      { s with tables := s.tables.putRun { q with runStatus := .running } } := by
    refine (runs_writeRunStatus h.runs).1 ▸ hd.sound.standing.updateRunStatus
      fun r hr _ _ _ hst ↦ ?_
    obtain rfl := Option.some.inj (hq.symm.trans hr)
    exact hst.of_unheld (hst.unheld ((hbefore q hq).imp_right .inl)) (.inl rfl)
  have hmoved := Deeds.more hd (.move q .running expected hq hforward)
    (sound_of_moved hd.sound hq (goesOn_of_unbegun (hbefore q hq)) hstand)
  have hall := hmoved.idle fun m hm ↦ ⟨(hrest m hm).1, Moment.idle_of_isIdle (hrest m hm).2⟩
  rw [List.append_assoc] at hall
  refine ⟨hall, fun x hx hfirst ↦ ⟨⟨x, { q with runStatus := .running }, ?_, ?_, ⟨rfl, by simp⟩, ?_,
    .first hfirst⟩, ?_⟩⟩
  · exact hall.sound.keyed.step?_iff.2 ⟨(Store.Tables.mem_chainOf.1 hx).1, rfl⟩
  · rw [(Store.Tables.mem_chainOf.1 hx).2]
    exact hkeyed.run?_putRun hq rfl
  · -- Nothing has happened to the steps of a run before it begins.
    obtain ⟨ds, hst, -⟩ := hd.sound.standing
    refine .arrival fun hG ↦ ?_
    rw [(Store.Tables.mem_chainOf.1 hx).2] at hG
    exact ((hst.run q hqm hG).fresh (hbefore q hq) x hx).1
  · rw [(runs_writeRunStatus h.runs).1]
    exact (hd.sound.standing.begin expected hwaits hx hfirst).2

theorem answer_of_isNew (h : IsNew s run) (status : RunStatus) :
    (s.tables.answer (.updateRunStatus run status none)).1 = .ok true := by
  obtain ⟨q, hq, hnew⟩ := h
  have hgoes : q.runStatus.isTerminal = false := by
    rw [hnew]
    rfl
  rw [answer_updateRunStatus hq hgoes status]

theorem does_begin {x : StepInstance} :
    Does R setup G o s₀
      (fun _ s ↦ IsNew s run ∧ x ∈ s.tables.chainOf run ∧ x.runOrderLabel = .first)
      (updateRunStatus run .running) fun _ log s ↦
        Called G log s x.uid ∧ s.tables.step? x.uid = some x := by
  intro log s l r s' hd ⟨hnew, hx, hfirst⟩ h
  have hr : r = .ok true := (logs_writeRunStatus h).2.1.trans (answer_of_isNew hnew _)
  subst hr
  obtain ⟨q, hq, hstatus⟩ := hnew
  obtain ⟨hd', hcalled⟩ :=
    hd.begin (fun p hp ↦ .inl (by rwa [← Option.some.inj (hq.symm.trans hp)])) h
  have hx' : x ∈ s'.tables.chainOf run := by
    obtain ⟨_, _, -, -, -, rfl, -⟩ := logs_moved h
    exact hx
  refine ⟨hd', fun _ _ ↦ ⟨hcalled x hx' hfirst, ?_⟩⟩
  exact hd'.sound.keyed.step?_iff.2 ⟨(Store.Tables.mem_chainOf.1 hx').1, rfl⟩

theorem does_wait :
    Does R setup G o s₀ (fun _ s ↦ IsNew s run) (updateRunStatus run .deployingFunctions)
      fun _ _ _ ↦ True := by
  intro log s l r s' hd hnew h
  refine ⟨?_, fun _ _ ↦ trivial⟩
  have hr : r = .ok true := (logs_writeRunStatus h).2.1.trans (answer_of_isNew hnew _)
  subst hr
  obtain ⟨q, hq, hstatus⟩ := hnew
  obtain ⟨p, rest, hp, hgoes, hexp, rfl, rfl, hrest⟩ := logs_moved h
  obtain rfl := Option.some.inj (hq.symm.trans hp)
  obtain ⟨hqm, rfl⟩ := Store.Tables.mem_of_run? hq
  have hstand : Standing setup G
      { s with tables := s.tables.putRun { q with runStatus := .deployingFunctions } } := by
    refine (runs_writeRunStatus h.runs).1 ▸ hd.sound.standing.updateRunStatus
      fun r hr _ _ _ hst ↦ ?_
    obtain rfl := Option.some.inj (hq.symm.trans hr)
    exact hst.of_waiting (hst.unheld (.inl hstatus)) (hst.fresh (.inl hstatus)) rfl
  have hmoved := Deeds.more hd (.move q .deployingFunctions none hq (hstatus ▸ .wait))
    (sound_of_moved hd.sound hq (goesOn_of_unbegun (.inl hstatus)) hstand)
  have hall := hmoved.idle fun m hm ↦ ⟨(hrest m hm).1, Moment.idle_of_isIdle (hrest m hm).2⟩
  rwa [List.append_assoc] at hall

theorem does_setRunStartTime :
    Does R setup G o s₀ (fun _ s ↦ IsNew s run) (setRunStartTime run) fun _ _ s ↦ IsNew s run := by
  intro log s l r s' hd ⟨q, hq, hnew⟩ h
  obtain ⟨hqm, rfl⟩ := Store.Tables.mem_of_run? hq
  obtain ⟨time, rest, rfl, h₁⟩ := h.of_now
  have hans : s.tables.answer (.setRunStartTime q.uid time) =
      (.ok (), s.tables.putRun { q with startTime := some time }) :=
    Store.Tables.onRun_of_some hq _
  have hafter : s.afterStore (.setRunStartTime q.uid time) =
      { s with tables := s.tables.putRun { q with startTime := some time } } := by
    simp only [Scene.afterStore, hans, Scene.madeBy, List.append_nil]
  have hstand := keeps_setRunStartTime hd.sound.standing h.runs
  obtain ⟨rfl, hr, -, rfl⟩ := logs_store.1 h₁
  rw [hans] at hr
  subst hr
  rw [hafter] at hstand ⊢
  have hd₁ := hd.idle (l := [⟨s, .now, time⟩]) fun m hm ↦ by
    rw [List.mem_singleton.1 hm]
    exact ⟨rfl, rfl⟩
  have hgoes := goesOn_of_unbegun (.inl hnew)
  have hset := Deeds.more hd₁ (.startTime q time hq hnew ⟨log, rfl⟩)
    ⟨hstand, hd.sound.clean.putRun_of_same hqm hgoes.1 ⟨rfl, rfl⟩ fun _ ↦
      hd.sound.clean.unheld q hqm hgoes⟩
  rw [List.append_assoc] at hset
  exact ⟨hset, fun _ _ ↦ ⟨_, hd.sound.keyed.run?_putRun hq rfl, hnew⟩⟩

theorem does_prepareFunctions (hc : ChildDoes R setup G o s₀ startChild)
    {steps : List StepDefinition} {x : StepInstance} :
    Does R setup G o s₀
      (fun _ s ↦ IsNew s run ∧ x ∈ s.tables.chainOf run ∧ x.runOrderLabel = .first)
      (setup.prepareFunctions startChild run steps x) fun _ _ _ ↦ True := by
  refine .bind (.past (idles_lookUpFunctions _) (lasts_of_scene _)) fun found ↦ ?_
  have hnothing : ∀ ⦃log s⦄, Deeds setup G o s₀ log s →
      (IsNew s run ∧ x ∈ s.tables.chainOf run ∧ x.runOrderLabel = .first) → HoldsNothing run s :=
    fun _ _ hd h ↦ h.1.holdsNothing hd.sound
  cases found with
  | error failure => exact does_terminate_failed failure (.inr (.inr (.inr rfl))) hnothing
  | ok undeployed =>
    dsimp only
    split
    · exact does_fail (.inr (.inr (.inr rfl))) _ _ hnothing
    · refine .ite (fun _ ↦ .bind does_begin fun _ ↦ does_launch hc) fun _ ↦ ?_
      refine .bind (.past (idles_requestDeployments _) (lasts_of_scene _)) fun _ ↦ ?_
      exact .andThen (does_wait.mono (fun _ _ _ h ↦ h.1) fun _ _ _ h ↦ h) fun _ ↦
        .idles (.spawn rfl)

theorem does_startRun (hc : ChildDoes R setup G o s₀ startChild)
    {definition : WorkflowDefinition} {steps : List StepDefinition} :
    Does R setup G o s₀ (fun _ s ↦ IsNew s run) (setup.startRun startChild run definition steps)
      fun _ _ _ ↦ True := by
  have hstate : ∀ P : List Moment → Scene → Prop,
      Does R setup G o s₀ P (state run) fun _ _ _ ↦ True := fun _ ↦ .idles (idles_state run)
  refine .bind does_setRunStartTime fun _ ↦ ?_
  refine .look (.attempt (reads_firstStep run).idles) (lasts_of_scene _) fun first ↦ ?_
  cases first with
  | error e =>
    dsimp only
    refine .ite (fun _ ↦ ?_) fun _ ↦ .andThen (.throw _) fun _ ↦ hstate _
    exact .andThen (does_fail (.inr (.inr (.inr rfl))) _ _ fun _ _ hd h ↦ h.1.holdsNothing hd.sound)
      fun _ ↦ hstate _
  | ok x =>
    have hfirst : ∀ {s}, Runs R (Action.attempt (firstStep run)) s (.ok (.ok x)) s →
        x ∈ s.tables.chainOf run ∧ x.runOrderLabel = .first := by
      intro s h
      obtain ⟨x', h₁, hx⟩ := runs_attempt.1 h
      rw [← Except.ok.inj hx] at h₁
      exact runs_firstStep h₁
    dsimp only
    refine .ite (fun _ ↦ ?_) fun _ ↦ ?_
    · exact .bind (does_begin.mono (fun _ _ _ h ↦ ⟨h.1, hfirst h.2⟩) fun _ _ _ h ↦ h) fun _ ↦
        .andThen (does_launch hc) fun _ ↦ hstate _
    · exact .andThen ((does_prepareFunctions hc).mono (fun _ _ _ h ↦ ⟨h.1, hfirst h.2⟩)
        fun _ _ _ h ↦ h) fun _ ↦ hstate _

theorem does_startWith (hR : Guiding R G) (hc : ChildDoes R setup G o s₀ startChild)
    {workflow : Uid} {input : Json.Object} {parent parentStep : Option Uid} :
    Does R setup G o s₀ (fun log _ ↦ Origin o log parent parentStep)
      (setup.startWith startChild workflow input parent parentStep) fun _ _ _ ↦ True := by
  have hlasts : Lasts fun log _ ↦ Origin o log parent parentStep := fun _ _ _ hl h ↦ h.lasts hl
  refine .bind (.past (Idles.getWorkflow _) hlasts) fun definition ↦ ?_
  refine .bind (.past (idles_stepsOf _ _) hlasts) fun steps ↦ ?_
  exact .bind (does_generate hR) fun m ↦ does_startRun hc

/-- **To start a run consists of deeds**, however many runs start one another. -/
theorem does_startNested (hR : Guiding R G) (depth : Nat) (workflow : Uid) (input : Json.Object)
    (parent parentStep : Option Uid) :
    Does R setup G o s₀ (fun log _ ↦ Origin o log parent parentStep)
      (setup.startNested depth workflow input parent parentStep) fun _ _ _ ↦ True := by
  induction depth generalizing workflow input parent parentStep with
  | zero => exact .throw _
  | succ depth ih =>
    exact does_startWith hR ⟨fun w i p ps ↦ .andThen (ih w i (some p) (some ps)) fun _ ↦ .pure _,
      fun _ _ _ _ ↦ .bind (habit_movesOn.startNested setup _ _ _ _ _) fun _ ↦ .pure _⟩

theorem does_startWorkflow (hR : Guiding R G) (workflow : Uid) (input : Json.Object)
    (parent parentStep : Option Uid) :
    Does R setup G o s₀ (fun log _ ↦ Origin o log parent parentStep)
      (setup.startWorkflow workflow input parent parentStep) fun _ _ _ ↦ True :=
  does_startNested hR _ workflow input parent parentStep

theorem does_launchStep (hR : Guiding R G) :
    Does R setup G o s₀ (fun log s ↦ Called G log s step.uid ∧ s.tables.step? step.uid = some step)
      (setup.launchStep step) fun _ _ _ ↦ True :=
  does_launch ⟨fun w i p ps ↦ .andThen (does_startWorkflow hR w i (some p) (some ps)) fun _ ↦
    .pure _, fun _ _ _ _ ↦ .bind (habit_movesOn.startNested setup _ _ _ _ _) fun _ ↦ .pure _⟩

end Engine

end Orchestration
