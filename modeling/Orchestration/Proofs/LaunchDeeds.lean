import Orchestration.Proofs.DeedTriples
import Orchestration.Proofs.Replaying

/-!
# The deeds of a launch

A launch is timed, puts the step into a new attempt, and hands the attempt over or starts the run
that it stands for. What has to be known before a launch is gathered in `Called`: whose step it is,
why it is launched, and that its run stands there. What is known after it is gathered in `Launched`:
the step is in an attempt that has not been dispatched, and the launch is the last thing that was
done.

The second is what a new run below the step appeals to. So whatever starts the run of a sub-workflow
consists of deeds if it does so directly after a launch (`ChildDoes`).
-/

namespace Orchestration

namespace Engine

open Chain

variable {R : Rule} {setup : Setup} {G : Uid → Prop} {o : Operation} {s₀ s s' : Scene}
variable {log l : List Moment} {u : Uid}

/-! ## Before a launch -/

theorem Occasion.lasts {x : StepInstance} (h : Occasion G log x) (hl : ∀ m ∈ l, m.Idle) :
    Occasion G (log ++ l) x := by
  cases h with
  | arrival h => exact .arrival h
  | loop f text hshape hstatus => exact .loop f text hshape hstatus
  | retry hstatus hgranted hfirst =>
    obtain ⟨m, hm, hg⟩ := hgranted
    refine .retry hstatus ⟨m, List.mem_append_left _ hm, hg⟩ fun m hm ↦ ?_
    rcases List.mem_append.1 hm with hm | hm
    · exact hfirst m hm
    · exact Moment.Idle.launches (hl m hm)

/-- A step that has been reached may change in what does not count for that. -/
theorem Reached.putStep {t : Store.Tables} {x y : StepInstance} (h : Reached t x) (ht : t.Keyed)
    (hx : t.step? x.uid = some x) (hsame : SameStep x y) (hstatus : y.runStatus = x.runStatus) :
    Reached (t.putStep y) y := by
  cases h with
  | first h => exact .first (hsame.label.trans h)
  | again h => exact .again (hstatus ▸ h)
  | next p hp hrun hnext hsucc =>
    rw [← hsame.run] at hrun
    rw [← hsame.uid] at hnext
    by_cases hu : p.uid = x.uid
    · rw [hu, hx] at hp
      obtain rfl := Option.some.inj hp
      have hy := ht.step?_putStep hx hsame.uid hsame.run
      exact .next y (hsame.uid ▸ hy) rfl (hsame.next.trans hnext) (hstatus ▸ hsucc)
    · refine .next p ?_ hrun hnext hsucc
      rwa [Store.Tables.step?_putStep_of_ne fun h ↦ hu (h.symm.trans hsame.uid)]

/-- A step is to be launched next: its run goes on and stands there, there is an occasion, and the
run has come to the step. -/
structure Called (G : Uid → Prop) (log : List Moment) (s : Scene) (u : Uid) : Prop where
  known : ∃ x q, s.tables.step? u = some x ∧ s.tables.run? x.workflowInstanceUid = some q ∧
    GoesOn q ∧ Occasion G log x ∧ Reached s.tables x
  launchable : Launchable G s.tables u

theorem lasts_called (G : Uid → Prop) (u : Uid) : Lasts fun log s ↦ Called G log s u := by
  intro log s l hl h
  obtain ⟨x, q, hx, hq, hgoes, hwhy, hreached⟩ := h.known
  exact ⟨⟨x, q, hx, hq, hgoes, hwhy.lasts hl, hreached⟩, h.launchable⟩

theorem Called.holdsNothing {x : StepInstance} (h : Called G log s x.uid) (hs : Sound setup G s)
    (hx : s.tables.step? x.uid = some x) : HoldsNothing x.workflowInstanceUid s := by
  obtain ⟨y, q, hy, hq, hgoes, -⟩ := h.known
  obtain rfl := Option.some.inj (hx.symm.trans hy)
  exact hs.holdsNothing hq hgoes

/-- A step is to be launched next, and with this input. -/
structure Primed (G : Uid → Prop) (input : Json.Object) (log : List Moment) (s : Scene) (u : Uid) :
    Prop where
  called : Called G log s u
  input : ∀ x, s.tables.step? u = some x → Evaluates s.tables x input

theorem lasts_primed (G : Uid → Prop) (input : Json.Object) (u : Uid) :
    Lasts fun log s ↦ Primed G input log s u :=
  fun _ _ _ hl h ↦ ⟨lasts_called G u hl h.called, h.input⟩

/-! ## After a launch -/

/-- A step has just been launched: its run goes on, the attempt has not been dispatched, and nothing
has been done since. -/
structure Launched (setup : Setup) (G : Uid → Prop) (log : List Moment) (s : Scene)
    (x : StepInstance) : Prop where
  underway : ∃ ds, UnderWay setup G ds s x
  run : ∃ q, s.tables.run? x.workflowInstanceUid = some q ∧ GoesOn q
  latest : JustLaunched log x

theorem lasts_launched (setup : Setup) (G : Uid → Prop) (x : StepInstance) :
    Lasts fun log s ↦ Launched setup G log s x := by
  intro log s l hl h
  obtain ⟨before, after, t, x₀, time, rfl, hafter, hx₀, hx⟩ := h.latest
  refine ⟨h.underway, h.run, before, after ++ l, t, x₀, time, ?_, fun m hm ↦ ?_, hx₀, hx⟩
  · rw [List.append_assoc, List.cons_append]
  · exact (List.mem_append.1 hm).elim (hafter m) (hl m)

/-- A step that is launched is put into a new attempt, at the time of the last look at the clock. -/
theorem does_storeLaunch {input : Json.Object} {time : Instant} :
    Does R setup G o s₀ (fun log s ↦ Primed G input log s u ∧ JustRead log s time)
      (Action.store (.launchStep u input time)) fun _ log s ↦
        ∀ x, s.tables.step? u = some x → Launched setup G log s x ∧ x.inputData = input := by
  intro log s l r s' hd ⟨⟨hcalled, hinput⟩, htime⟩ h
  obtain ⟨x, q, hx, hq, hgoes, hwhy, hreached⟩ := hcalled.known
  obtain ⟨hmem, rfl⟩ := Store.Tables.mem_of_step? hx
  have hans : s.tables.answer (.launchStep x.uid input time) =
      (.ok (), s.tables.putStep (Store.Tables.launched input time x)) :=
    Store.Tables.onStep_of_some hx _
  obtain ⟨rfl, hr, -, rfl⟩ := logs_store.1 h
  rw [hans] at hr
  subst hr
  have hafter : s.afterStore (.launchStep x.uid input time) =
      { s with tables := s.tables.putStep (Store.Tables.launched input time x) } := by
    simp only [Scene.afterStore, hans, Scene.madeBy, List.append_nil]
  rw [hafter]
  obtain ⟨ds, hst, hds⟩ := hd.sound.standing
  have hst' : Stands G (s.tables.putStep (Store.Tables.launched input time x)) s.issued ds :=
    hst.putStep hmem ⟨rfl, rfl, rfl, rfl, rfl⟩ fun hG ↦ hcalled.launchable.moves hmem rfl hG
  refine ⟨.more hd (.launch q x input time hx hq hgoes hcalled.launchable hwhy htime hreached
    (hinput x hx)) ⟨⟨ds, hst', hds⟩, hd.sound.clean.putStep _⟩, fun _ _ y hy ↦ ?_⟩
  have hy' : (s.tables.putStep (Store.Tables.launched input time x)).step? x.uid =
      some (Store.Tables.launched input time x) := hd.sound.keyed.step?_putStep hx rfl rfl
  obtain rfl := Option.some.inj (hy'.symm.trans hy)
  refine ⟨⟨⟨ds, hst', hds, (Store.Tables.mem_of_step? hy').1, rfl, fun hG d hd hu ↦ ?_⟩,
    ⟨q, hq, hgoes⟩, log, [], s, x, time, rfl, fun m hm ↦ absurd hm List.not_mem_nil, hx, rfl⟩, rfl⟩
  exact hst.attempt_le hcalled.launchable hmem hG hd hu

theorem does_launchAttempt {step : StepInstance} {input : Json.Object} :
    Does R setup G o s₀ (fun log s ↦ Primed G input log s step.uid) (launchAttempt step input)
      fun x log s ↦ Launched setup G log s x ∧ x.inputData = input := by
  intro log s l r s' hd hprimed h
  obtain ⟨time, rest, rfl, hrest⟩ := h.of_now
  have hd₁ := hd.idle (l := [⟨s, .now, time⟩]) fun m hm ↦ by
    rw [List.mem_singleton.1 hm]
    exact ⟨rfl, rfl⟩
  have hprimed₁ := lasts_primed G input step.uid (l := [⟨s, .now, time⟩]) (fun m hm ↦ by
    rw [List.mem_singleton.1 hm]
    exact rfl) hprimed
  have hread : Does R setup G o s₀
      (fun log s ↦ ∀ x, s.tables.step? step.uid = some x →
        Launched setup G log s x ∧ x.inputData = input)
      (announceStep step .running >>= fun _ ↦ readStep step.uid)
      fun x log s ↦ Launched setup G log s x ∧ x.inputData = input := by
    have hlasts : Lasts fun log s ↦ ∀ x, s.tables.step? step.uid = some x →
        Launched setup G log s x ∧ x.inputData = input :=
      fun _ _ _ hl h x hx ↦ ⟨lasts_launched setup G x hl (h x hx).1, (h x hx).2⟩
    refine .look (idles_announceStep _ _) hlasts fun _ ↦ ?_
    refine ((Does.of_idles (reads_readStep _).idles hlasts).mono (fun _ _ _ h ↦ h.1)
      fun x _ s h ↦ h.1 x (runs_readStep h.2))
  have hall := (Does.bind does_storeLaunch fun _ ↦ hread) hd₁ ⟨hprimed₁, log, rfl⟩ hrest
  rw [List.append_assoc] at hall
  exact hall

/-! ## Handing over -/

/-- Work is handed over by one call, if the function can be called at all. -/
theorem logs_handOver {x : StepInstance} {input : Json.Object} {f : FunctionInfo}
    {r : Except EngineError Unit} (h : Logs R (setup.handOver x input f) s l r s') :
    (l = [] ∧ s' = s) ∨ ∃ m accepted, l = [m] ∧ m.scene = s ∧
      (m.call = .publish .work (workRequest x input f).toJson.text ∨
        ∃ address body, m.call = .post address body) ∧
      s' = s.send (setup.parcelOf ⟨x, input, f⟩) accepted ∧
      (setup.parcelOf ⟨x, input, f⟩).handsOver = true ∧
      ∀ address body, m.call = .post address body →
        body = (setup.pushRequest x input).toJson.text := by
  unfold Setup.handOver at h
  cases hmode : setup.mode with
  | queue =>
    rw [hmode] at h
    obtain ⟨rfl, -, rfl⟩ := logs_publish.1 h
    refine .inr ⟨_, Except.isOk r, rfl, rfl, .inl rfl, ?_, ?_, fun _ _ hc ↦ nomatch hc⟩
    · rw [Setup.parcelOf, hmode]
      rfl
    · rw [Setup.parcelOf, hmode]
      rfl
  | push =>
    rw [hmode] at h
    unfold Setup.push at h
    cases hurl : f.serviceUrl with
    | none =>
      rw [hurl] at h
      obtain ⟨rfl, -, rfl⟩ := logs_throw.1 h
      exact .inl ⟨rfl, rfl⟩
    | some url =>
      rw [hurl] at h
      have hp : Parcel.request url (setup.pushRequest x input).toJson.text =
          setup.parcelOf ⟨x, input, f⟩ := by
        rw [Setup.parcelOf, hmode, hurl]
        rfl
      have hbody : ∀ address body, Call.post url (setup.pushRequest x input).toJson.text =
          .post address body → body = (setup.pushRequest x input).toJson.text :=
        fun _ _ hc ↦ (Call.post.inj hc).2.symm
      refine .inr ?_
      rcases logs_bind.1 h with ⟨e, h₁, -⟩ | ⟨l₁, l₂, response, s₁, rfl, h₁, h₂⟩
      · obtain ⟨rfl, -, rfl⟩ := logs_post.1 h₁
        exact ⟨_, _, rfl, rfl, .inr ⟨url, _, rfl⟩, by rw [hp], hp ▸ rfl, hbody⟩
      · obtain ⟨rfl, -, rfl⟩ := logs_post.1 h₁
        -- Whether the answer is a success makes no difference for what has been done.
        split at h₂
        · obtain ⟨rfl, -, rfl⟩ := logs_pure.1 h₂
          exact ⟨_, _, rfl, rfl, .inr ⟨url, _, rfl⟩, by rw [hp], hp ▸ rfl, hbody⟩
        · obtain ⟨rfl, -, rfl⟩ := logs_throw.1 h₂
          exact ⟨_, _, rfl, rfl, .inr ⟨url, _, rfl⟩, by rw [hp], hp ▸ rfl, hbody⟩

theorem does_send {x : StepInstance} {input : Json.Object} {f : FunctionInfo} :
    Does R setup G o s₀ (fun log s ↦ Launched setup G log s x ∧ x.inputData = input)
      (setup.send x input f) fun _ _ _ ↦ True := by
  intro log s l r s' hd ⟨hlaunched, hinput⟩ h
  refine ⟨?_, fun _ _ ↦ trivial⟩
  obtain ⟨ds, hx⟩ := hlaunched.underway
  obtain ⟨q, hq, hgoes⟩ := hlaunched.run
  have hstep := hd.sound.keyed.step?_iff.2 ⟨hx.mem, rfl⟩
  unfold Setup.send at h
  rcases logs_bind.1 h with ⟨e, h₁, -⟩ | ⟨l₁, l₂, result, s₁, rfl, h₁, h₂⟩
  · obtain ⟨_, -, hr⟩ := logs_attempt.1 h₁
    cases hr
  obtain ⟨result', h₁, hr⟩ := logs_attempt.1 h₁
  obtain rfl := Except.ok.inj hr
  have hhanded : Deeds setup G o s₀ (log ++ l₁) s₁ ∧ s₁.tables = s.tables := by
    rcases logs_handOver h₁ with ⟨rfl, rfl⟩ | ⟨m, accepted, rfl, hm, hc, rfl, hover, hbody⟩
    · rw [List.append_nil]
      exact ⟨hd, rfl⟩
    · exact ⟨.more hd (.dispatch q ⟨x, input, f⟩ m hm hc hstep hx.running hq hgoes accepted hinput
        hbody hlaunched.latest) ⟨hx.sent input f rfl hover accepted, hd.sound.clean⟩, rfl⟩
  obtain ⟨hd₁, htables⟩ := hhanded
  rw [← List.append_assoc]
  cases result with
  | ok _ =>
    obtain ⟨rfl, -, rfl⟩ := logs_pure.1 h₂
    rwa [List.append_nil]
  | error e =>
    obtain ⟨rfl, -, hs'⟩ := logs_publish.1 h₂
    have hsound : Sound setup G s' := by
      refine ⟨keeps_publishResult _ hd₁.sound.standing h₂.runs, ?_⟩
      rw [hs']
      exact hd₁.sound.clean
    subst hs'
    exact .more hd₁ (.cancel x _ r (htables ▸ hstep) hx.running) hsound

/-! ## Launching -/

/-- Whatever starts the run of a sub-workflow consists of deeds, if somebody asks for the run, and
has no run hold anything. -/
structure ChildDoes (R : Rule) (setup : Setup) (G : Uid → Prop) (o : Operation) (s₀ : Scene)
    (startChild : StartChild) : Prop where
  does : ∀ workflow input parent parentStep,
    Does R setup G o s₀ (fun log _ ↦ Origin o log (some parent) (some parentStep))
      (startChild workflow input parent parentStep) fun _ _ _ ↦ True
  movesOn : KeptByChild (fun _ a ↦ MovesOn a) startChild

theorem Launched.origin {x : StepInstance} (h : Launched setup G log s x) :
    Origin o log (some x.workflowInstanceUid) (some x.uid) := by
  obtain ⟨before, after, t, x₀, time, rfl, hafter, -⟩ := h.latest
  exact .launch x before after _ rfl (beq_self_eq_true x.uid) hafter rfl rfl

variable {startChild : StartChild} {step : StepInstance}

theorem does_dispatchFunction {input : Json.Object} {function : Uid} :
    Does R setup G o s₀ (fun log s ↦ Primed G input log s step.uid)
      (setup.dispatchFunction step input function) fun _ _ _ ↦ True :=
  .look (Idles.getFunction _) (lasts_primed G input step.uid) fun _ ↦
    .bind (does_launchAttempt.mono (fun _ _ _ h ↦ h.1) fun _ _ _ h ↦ h) fun _ ↦ does_send

theorem does_startSubWorkflow (hc : ChildDoes R setup G o s₀ startChild) {input : Json.Object}
    {workflow : Uid} :
    Does R setup G o s₀ (fun log s ↦ Primed G input log s step.uid)
      (Setup.startSubWorkflow startChild step input workflow) fun _ _ _ ↦ True :=
  .bind does_launchAttempt fun x ↦
    (hc.does workflow input x.workflowInstanceUid x.uid).mono
      (fun _ _ _ h ↦ h.1.origin) fun _ _ _ h ↦ h

/-- The case of a step is noted, and the step may be launched as before. -/
theorem does_setSelectedCase {input : Json.Object} {name : String} :
    Does R setup G o s₀ (fun log s ↦ Primed G input log s u)
      (Action.store (.setSelectedCase u name)) fun _ log s ↦ Primed G input log s u := by
  intro log s l r s' hd ⟨hcalled, hinput⟩ h
  obtain ⟨x, q, hx, hq, hgoes, hwhy, hreached⟩ := hcalled.known
  obtain ⟨hmem, rfl⟩ := Store.Tables.mem_of_step? hx
  have hans : s.tables.answer (.setSelectedCase x.uid name) =
      (.ok (), s.tables.putStep { x with selectedCaseName := some name }) :=
    Store.Tables.onStep_of_some hx _
  have hnoted := hcalled.launchable.prepared hd.sound.standing (c := .setSelectedCase x.uid name)
    (fun x ↦ ((), { x with selectedCaseName := some name })) rfl
    (fun _ ↦ ⟨rfl, rfl, rfl, rfl, rfl⟩) (fun _ ↦ rfl) fun _ ↦ rfl
  obtain ⟨rfl, hr, -, rfl⟩ := logs_store.1 h
  rw [hans] at hr
  subst hr
  have hafter : s.afterStore (.setSelectedCase x.uid name) =
      { s with tables := s.tables.putStep { x with selectedCaseName := some name } } := by
    simp only [Scene.afterStore, hans, Scene.madeBy, List.append_nil]
  rw [hafter] at hnoted ⊢
  have hx' : (s.tables.putStep { x with selectedCaseName := some name }).step? x.uid =
      some { x with selectedCaseName := some name } := hd.sound.keyed.step?_putStep hx rfl rfl
  refine ⟨.more hd (.select q x name hx hq hgoes) ⟨hnoted.1, hd.sound.clean.putStep _⟩,
    fun _ _ ↦ ⟨⟨⟨{ x with selectedCaseName := some name }, q, hx', hq, hgoes, ?_, ?_⟩, hnoted.2⟩,
      fun y hy ↦ ?_⟩⟩
  · cases hwhy with
    | arrival h => exact .arrival h
    | loop f text hshape hstatus => exact .loop f text hshape hstatus
    | retry hstatus hgranted hfirst =>
      obtain ⟨m, hm, hg⟩ := hgranted
      refine .retry hstatus ⟨m, List.mem_append_left _ hm, hg⟩ fun m hm ↦ ?_
      rcases List.mem_append.1 hm with hm | hm
      · exact hfirst m hm
      · rw [List.mem_singleton.1 hm]
        rfl
  · exact hreached.putStep hd.sound.keyed hx ⟨rfl, rfl, rfl, rfl, rfl⟩ rfl
  · -- No formula reads the case of a step.
    obtain rfl := Option.some.inj (hx'.symm.trans hy)
    have hsame := (caseNoted_putStep hd.sound.keyed hmem name).normalize (hinput x hx)
    rwa [Option.map_some, withCase, if_pos rfl] at hsame

theorem does_tryLaunch (hc : ChildDoes R setup G o s₀ startChild) :
    Does R setup G o s₀ (fun log s ↦ Called G log s step.uid ∧ s.tables.step? step.uid = some step)
      (setup.tryLaunch startChild step) fun _ _ _ ↦ True := by
  have hdispatch : ∀ input function, Does R setup G o s₀ (fun log s ↦ Primed G input log s step.uid)
      (setup.dispatchFunction step input function) fun _ _ _ ↦ True :=
    fun _ _ ↦ does_dispatchFunction
  have hstart : ∀ input workflow, Does R setup G o s₀ (fun log s ↦ Primed G input log s step.uid)
      (Setup.startSubWorkflow startChild step input workflow) fun _ _ _ ↦ True :=
    fun _ _ ↦ does_startSubWorkflow hc
  unfold Setup.tryLaunch
  have hinput : Does R setup G o s₀
      (fun log s ↦ Called G log s step.uid ∧ s.tables.step? step.uid = some step)
      (normalize step.inputData step.workflowInstanceUid (some step))
      fun input log s ↦ Primed G input log s step.uid :=
    (Does.of_idles (reads_normalize _ _ _).idles
      ((lasts_called G step.uid).and (lasts_of_scene _))).mono (fun _ _ _ h ↦ h) fun input log s h ↦
      ⟨h.1.1, fun x hx ↦ by
        obtain rfl := Option.some.inj (h.1.2.symm.trans hx)
        exact ((reads_normalize _ _ _).of_runs h.2).1⟩
  refine .bind hinput fun input ↦ ?_
  have hlasts := lasts_primed G input step.uid
  cases hshape : step.shape with
  | simple f => exact hdispatch input f
  | doWhile f text => exact hdispatch input f
  | subWorkflow w => exact hstart input w
  | switch expression cases =>
    refine .bind (.past (reads_evaluateSwitch _ _).idles hlasts) fun value ↦ ?_
    refine .bind (.past (.ofExcept _) hlasts) fun choice ↦ ?_
    obtain ⟨name, target⟩ := choice
    refine .bind does_setSelectedCase fun _ ↦ ?_
    cases target with
    | function f => exact hdispatch input f
    | subWorkflow w => exact hstart input w

/-- **A launch consists of deeds**, whatever comes of it. -/
theorem does_launch (hc : ChildDoes R setup G o s₀ startChild) :
    Does R setup G o s₀ (fun log s ↦ Called G log s step.uid ∧ s.tables.step? step.uid = some step)
      (setup.launch startChild step) fun _ _ _ ↦ True := by
  -- Whatever the launch does, the run of the step does not come to hold anything.
  have htried : Does R setup G o s₀
      (fun log s ↦ Called G log s step.uid ∧ s.tables.step? step.uid = some step)
      (Action.attempt (setup.tryLaunch startChild step))
      fun _ _ s ↦ HoldsNothing step.workflowInstanceUid s :=
    .attempt_of_kept (does_tryLaunch hc)
      (fun _ _ _ hrun ↦ (habit_movesOn.tryLaunch setup hc.movesOn step).holdsNothing hrun)
      fun _ _ hd h ↦ h.1.holdsNothing hd.sound h.2
  refine .bind htried fun result ↦ ?_
  cases result with
  | ok _ => exact .pure _
  | error e =>
    exact .ite (fun _ ↦ does_fail (.inl rfl) _ _ fun _ _ _ h ↦ h) fun _ ↦ .throw _

end Engine

end Orchestration
