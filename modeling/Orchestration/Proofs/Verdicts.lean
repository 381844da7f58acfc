import Orchestration.Proofs.Recording

/-!
# Verdicts

When a run ends that a step has started, the step is told how, if it waits for the run: a result is
published that answers the attempt of the step. Whoever lets a run end of itself sees to it in the
same operation. Only a watch that gives up on a run that waits for its functions does not: it ends
the run and says nothing, so the step that has started the run waits for ever
(`verdict_published_iff`).

Every run that has come to its end during an operation was ended by a call of it
(`Deeds.ending_of_terminal`), so nothing escapes a statement about these calls.
-/

namespace Orchestration

namespace Engine

variable {R : Rule} {setup : Setup} {G : Uid → Prop} {o : Operation} {s₀ s s' : Scene}
variable {log l : List Moment} {u : Uid}

/-! ## Ends and messages -/

namespace Moment

/-- The run that a call ends, with the status that it gets. -/
def ending? : Moment → Option (Uid × RunStatus)
  | ⟨_, .store (.updateRunStatus run status _), .ok true⟩ =>
    if status.isTerminal then some (run, status) else none
  | _ => none

theorem ending?_of_call {m : Moment}
    (h : ∀ run status expected, m.call ≠ .store (.updateRunStatus run status expected)) :
    m.ending? = none := by
  obtain ⟨t, c, a⟩ := m
  cases c with
  | store c =>
    cases c with
    | updateRunStatus run status expected => exact absurd rfl (h run status expected)
    | _ => rfl
  | _ => rfl

theorem Idle.ending? {m : Moment} (h : m.Idle) : m.ending? = none := by
  obtain ⟨t, c, a⟩ := m
  cases c with
  | store c =>
    cases c with
    | updateRunStatus run status expected =>
      rcases a with _ | _ | _
      · rfl
      · rfl
      · exact absurd rfl h
    | _ => rfl
  | _ => rfl

end Moment

theorem ending?_of_isEnding {m : Moment} {run : Uid} (h : m.call.isEnding run = true) :
    m.ending? = none := by
  refine Moment.ending?_of_call fun v status expected hcall ↦ ?_
  rw [hcall] at h
  cases h

/-! ## Every end is written -/

/-- What a deed leaves of a run that has come to its end was there before, or is written now. -/
theorem Deed.ending_of_terminal (h : Deed setup G o s₀ log s l s') {q : WorkflowInstance}
    (hq : s'.tables.run? u = some q) (hend : q.runStatus.isTerminal = true) :
    s.tables.run? u = some q ∨ ∃ m ∈ l, m.ending? = some (u, q.runStatus) := by
  have hput : ∀ {p : WorkflowInstance}, (s.tables.putRun p).run? u = some q →
      q = p ∧ p.uid = u ∨ s.tables.run? u = some q := by
    intro p hp
    by_cases hu : p.uid = u
    · rcases Store.mem_overwrite (Store.Tables.mem_of_run? hp).1 with rfl | ⟨-, hne⟩
      · exact .inl ⟨rfl, hu⟩
      · exact absurd ((Store.Tables.mem_of_run? hp).2.trans hu.symm) hne
    · exact .inr (Store.Tables.run?_putRun_of_ne hu ▸ hp)
  -- A deed that leaves a run short of its end does not end it.
  have hshort : ∀ {p : WorkflowInstance}, (s.tables.putRun p).run? u = some q →
      p.runStatus.isTerminal = false → s.tables.run? u = some q := by
    intro p hp hno
    rcases hput hp with ⟨rfl, -⟩ | hsame
    · rw [hend] at hno
      cases hno
    · exact hsame
  have hwritten : ∀ {p : WorkflowInstance} {status : RunStatus} {expected : Option RunStatus}
      {l : List Moment}, (s.tables.putRun p).run? u = some q → p.runStatus = status →
      status.isTerminal = true → s.tables.run? u = some q ∨ ∃ m ∈
        (⟨s, .store (.updateRunStatus p.uid status expected), .ok true⟩ :: l : List Moment),
        m.ending? = some (u, q.runStatus) := by
    intro p status expected l hp hstatus hterminal
    rcases hput hp with ⟨rfl, rfl⟩ | hsame
    · exact .inr ⟨_, List.mem_cons_self, by rw [hstatus]; exact if_pos hterminal⟩
    · exact .inl hsame
  cases h with
  | make _ _ _ _ _ run _ time instances new l s₁ _ _ _ _ _ _ hnew =>
    rcases Option.or_eq_some_iff.1 ((List.find?_append ..).symm.trans hq) with hold | ⟨-, hq⟩
    · exact .inl hold
    · rw [List.mem_singleton.1 (List.mem_of_find?_eq_some hq), hnew] at hend
      cases hend
  | startTime p time _ hnew =>
    refine .inl (hshort hq ?_)
    rw [show ({ p with startTime := some time } : WorkflowInstance).runStatus = .new from hnew]
    rfl
  | move p status expected _ hmove =>
    refine .inl (hshort hq ?_)
    show status.isTerminal = false
    generalize p.runStatus = before at hmove
    cases hmove <;> rfl
  | resume p rest _ _ _ => exact .inl (hshort hq rfl)
  | hold p x _ hpaused =>
    refine .inl (hshort hq ?_)
    show p.runStatus.isTerminal = false
    rw [hpaused]
    rfl
  | finish p status failure output time rest told s' _ _ hends _ htold =>
    rw [htold.tables.1] at hq
    exact hwritten (p := endedRun p status failure output time) hq rfl hends.isTerminal
  | quit p status failure time expected rest hquits =>
    exact hwritten (p := endedRun p status failure none time) hq rfl (by cases hquits <;> rfl)
  | again p told s' _ _ _ htold =>
    rw [htold.tables.1] at hq
    exact .inl hq
  | remove uids m =>
    rw [run?_remove] at hq
    exact .inl (Option.ite_none_left_eq_some.1 hq).2
  | _ => exact .inl hq

/-- A run that has come to its end during an operation was ended by a call of it. -/
theorem Deeds.ending_of_terminal (h : Deeds setup G o s₀ log s) {q : WorkflowInstance}
    (hq : s.tables.run? u = some q) (hend : q.runStatus.isTerminal = true) :
    s₀.tables.run? u = some q ∨ ∃ m ∈ log, m.ending? = some (u, q.runStatus) := by
  induction h with
  | none _ => exact .inl hq
  | more before deed _ ih =>
    rcases deed.ending_of_terminal hq hend with hsame | ⟨m, hm, hending⟩
    · exact (ih hsame).imp_right fun ⟨m, hm, hending⟩ ↦ ⟨m, List.mem_append_left _ hm, hending⟩
    · exact .inr ⟨m, List.mem_append_right _ hm, hending⟩

/-! ## Whoever waits is told -/

/-- A call ends a run that a step has started and waits for. -/
structure EndsAwaited (m : Moment) (q : WorkflowInstance) (status : RunStatus) (parent : Uid)
    (x : StepInstance) : Prop where
  ends : m.ending? = some (q.uid, status)
  run : m.scene.tables.run? q.uid = some q
  parent : q.parentInstanceUid = some parent
  parentStep : q.parentStepInstanceUid = some x.uid
  step : m.scene.tables.step? x.uid = some x
  waits : awaits x q = true

/-- A result that answers the attempt of a step with the status of a finished run. -/
structure Answers (v : StepResult) (parent : Uid) (x : StepInstance) (status : RunStatus) :
    Prop where
  step : v.stepInstanceId = x.uid
  run : v.workflowInstanceId = parent
  attempt : v.attempt = some (x.runCount + 1)
  status : v.runStatus = status.asParentStepResult

/-- Whenever a run ends in a log, a step that waits for it is sent its verdict later in the log. -/
def Tells (log : List Moment) : Prop :=
  ∀ before m after, log = before ++ m :: after → ∀ q status parent x,
    EndsAwaited m q status parent x → status ≠ .stopped →
      ∃ p ∈ after, ∃ v, p.offered? .results = some v.toJson.text ∧ Answers v parent x status

theorem Tells.of_none (h : ∀ m ∈ log, m.ending? = none) : Tells log := by
  rintro before m after rfl q status parent x hm
  have hnone := h m (List.mem_append_right _ List.mem_cons_self)
  exact nomatch hnone.symm.trans hm.ends

theorem Tells.append {l₁ l₂ : List Moment} (h₁ : Tells l₁) (h₂ : Tells l₂) : Tells (l₁ ++ l₂) := by
  intro before m after hsplit q status parent x hm hstatus
  rcases split_of_append hsplit with ⟨mid, hl₁, rfl⟩ | ⟨mid, -, hl₂⟩
  · obtain ⟨p, hp, v, hv⟩ := h₁ before m mid hl₁ q status parent x hm hstatus
    exact ⟨p, List.mem_append_left _ hp, v, hv⟩
  · exact h₂ mid m after hl₂ q status parent x hm hstatus

/-- Where the first call alone can end a run, it alone has to be followed by a verdict. -/
theorem Tells.cons {m : Moment} (hl : ∀ c ∈ l, c.ending? = none)
    (hm : ∀ q status parent x, EndsAwaited m q status parent x → status ≠ .stopped →
      ∃ p ∈ l, ∃ v, p.offered? .results = some v.toJson.text ∧ Answers v parent x status) :
    Tells (m :: l) := by
  intro before c after hsplit q status parent x hc hstatus
  cases before with
  | nil =>
    obtain ⟨rfl, rfl⟩ := List.cons.inj hsplit
    exact hm q status parent x hc hstatus
  | cons m' before =>
    obtain ⟨-, rfl⟩ := List.cons.inj hsplit
    have hnone := hl c (List.mem_append_right _ List.mem_cons_self)
    exact nomatch hnone.symm.trans hc.ends

theorem Told.ending? {q : WorkflowInstance} (h : Told q s l s') : ∀ m ∈ l, m.ending? = none := by
  cases h with
  | told => exact fun m hm ↦ List.mem_singleton.1 hm ▸ rfl
  | untold => exact fun m hm ↦ nomatch hm

theorem Told.answers {q : WorkflowInstance} {parent : Uid} {x : StepInstance} (h : Told q s l s')
    (hparent : q.parentInstanceUid = some parent) (hstep : q.parentStepInstanceUid = some x.uid)
    (hx : s.tables.step? x.uid = some x) (hwaits : awaits x q = true) :
    ∃ p ∈ l, ∃ v, p.offered? .results = some v.toJson.text ∧ Answers v parent x q.runStatus := by
  cases h with
  | told parent' step y a hparent' hstep' hy _ =>
    obtain rfl : step = x.uid := Option.some.inj (hstep'.symm.trans hstep)
    obtain rfl : y = x := Option.some.inj (hy.symm.trans hx)
    obtain rfl : parent' = parent := Option.some.inj (hparent'.symm.trans hparent)
    exact ⟨_, List.mem_singleton_self _, _, rfl, rfl, rfl, rfl, rfl⟩
  | untold hno => exact nomatch (hno _ _ _ hparent hstep hx).symm.trans hwaits

/-- Whether an operation is one of a watch over the functions of a run. -/
def Operation.isWatch : Operation → Bool
  | .watch .. | .failRun _ => true
  | _ => false

/-- Whoever ends a run sees to it that its parent step is told, watches and operators aside. -/
theorem Deed.tells (h : Deed setup G o s₀ log s l s') (ho : o.isWatch = false) : Tells l := by
  cases h with
  | idle l h => exact .of_none fun m hm ↦ (h m hm).2.ending?
  | make _ _ _ _ _ run _ time instances new l s₁ _ _ _ _ _ _ _ hl =>
    refine .of_none fun m hm ↦ Moment.ending?_of_call fun v status expected hcall ↦ ?_
    rcases call_of_making hl hm with h | h | h
    · cases h.symm.trans hcall
    · cases h.symm.trans hcall
    · cases h.symm.trans hcall
  | move q status expected _ hmove =>
    refine .of_none fun m hm ↦ ?_
    rw [List.mem_singleton.1 hm]
    generalize q.runStatus = before at hmove
    cases hmove <;> rfl
  | resume q rest _ _ _ hrest =>
    refine .of_none fun m hm ↦ ?_
    rcases List.mem_cons.1 hm with rfl | hm
    · rfl
    · rcases hrest m hm with hidle | hcall
      · exact (Moment.idle_of_isIdle hidle).ending?
      · exact Moment.ending?_of_call fun v status expected h ↦ nomatch hcall.symm.trans h
  | dispatch q d m _ hc =>
    refine .of_none fun m' hm ↦ Moment.ending?_of_call fun v status expected hcall ↦ ?_
    rw [List.mem_singleton.1 hm] at hcall
    rcases hc with hc | ⟨_, _, hc⟩
    · cases hc.symm.trans hcall
    · cases hc.symm.trans hcall
  | remove uids m _ hc =>
    refine .of_none fun m' hm ↦ Moment.ending?_of_call fun v status expected hcall ↦ ?_
    rw [List.mem_singleton.1 hm] at hcall
    cases hc.symm.trans hcall
  | again q told s' _ _ _ htold => exact .of_none htold.ending?
  | quit q status failure time expected rest hquits _ _ hrest =>
    -- An operator who stops a run tells nobody, and a watch is none here.
    refine .cons (fun m hm ↦ ending?_of_isEnding (hrest m hm))
      fun p status' parent x hm hstatus ↦ ?_
    cases hquits with
    | stop => exact absurd (congrArg Prod.snd (Option.some.inj hm.ends)).symm hstatus
    | watch => cases ho
    | failRun => cases ho
  | finish q status failure output time rest told s' hq _ hends hrest htold =>
    refine .cons (fun m hm ↦ ?_) fun p status' parent x hm _ ↦ ?_
    · exact (List.mem_append.1 hm).elim (fun hm ↦ ending?_of_isEnding (hrest m hm))
        (htold.ending? m)
    · have hstatus : some (q.uid, status) = some (p.uid, status') :=
        (if_pos hends.isTerminal).symm.trans hm.ends
      obtain ⟨hu, rfl⟩ := Prod.mk.inj (Option.some.inj hstatus)
      obtain rfl : q = p := Option.some.inj (hq.symm.trans (hu ▸ hm.run))
      obtain ⟨c, hc, hv⟩ := htold.answers hm.parent hm.parentStep hm.step hm.waits
      exact ⟨c, List.mem_append_right _ hc, hv⟩
  | _ =>
    refine .of_none fun m hm ↦ ?_
    rw [List.mem_singleton.1 hm]
    rfl

theorem Deeds.tells (h : Deeds setup G o s₀ log s) (ho : o.isWatch = false) : Tells log := by
  induction h with
  | none _ => exact .of_none fun m hm ↦ nomatch hm
  | more _ deed _ ih => exact ih.append (deed.tells ho)

/-! ## Watches tell nobody -/

/-- An action offers nothing on the channel of the results. -/
abbrev TellsNobody {α : Type} (a : Action α) : Prop :=
  Makes (fun c ↦ ∀ payload, c ≠ .publish .results payload) a

theorem Makes.tellsNobody {α : Type} {a : Action α} (h : Idles a) : TellsNobody a :=
  h.mono fun c hc payload hp ↦ by
    rw [hp] at hc
    cases hc

theorem tellsNobody_writeRunStatus (run : Uid) (status : RunStatus) (expected : Option RunStatus) :
    TellsNobody (writeRunStatus run status expected) :=
  .bind (.store fun _ h ↦ nomatch h) fun _ ↦
    .ite (.bind (Makes.tellsNobody (idles_announce _)) fun _ ↦ .pure _) (.pure _)

theorem tellsNobody_deliver (outcome : DeploymentOutcome) : TellsNobody (deliver outcome) := by
  refine .bind (.attempt (.publish fun payload h ↦ nomatch h)) fun sent ↦ ?_
  split
  · exact .pure _
  · refine .bind (Makes.tellsNobody (.attempt (reads_readRun _).idles)) fun found ↦ ?_
    split
    · exact .pure _
    · exact .pure _

theorem tellsNobody_failRun (outcome : DeploymentOutcome) : TellsNobody (failRun outcome) := by
  refine .bind (tellsNobody_writeRunStatus _ _ _) fun moved ↦ .ite ?_ (.pure _)
  refine .bind (Makes.tellsNobody (reads_readRun _).idles) fun q ↦ .bind ?_ fun _ ↦
    .store fun _ h ↦ nomatch h
  exact .bind (Makes.tellsNobody (.now rfl)) fun time ↦ .store fun _ h ↦ nomatch h

theorem tellsNobody_reportOutcome (outcome : DeploymentOutcome) (time attempt pause : Nat) :
    TellsNobody (reportOutcome outcome time attempt pause) :=
  .bind (tellsNobody_deliver outcome) fun _ ↦ .ite (.pure _) <| .ite (.pure _) <|
    .bind (.attempt (tellsNobody_failRun outcome)) fun _ ↦ .pure _

theorem tellsNobody_lookUntil (run : Uid) (functions : List Uid) (time deadline : Nat) :
    TellsNobody (setup.lookUntil run functions time deadline) := by
  refine .bind (Makes.tellsNobody (.attempt (idles_look run functions))) fun found ↦ ?_
  unfold Setup.conclude
  split
  · exact tellsNobody_reportOutcome _ _ _ _
  · exact .pure _
  · exact .ite (tellsNobody_reportOutcome _ _ _ _) (.pure _)
  · exact tellsNobody_reportOutcome _ _ _ _

theorem tellsNobody_watch (run : Uid) (time : Nat) (phase : Phase) :
    TellsNobody (setup.watch run time phase) := by
  cases phase with
  | begin functions => exact tellsNobody_lookUntil _ _ _ _
  | wait functions nextLook deadline =>
    exact .ite (tellsNobody_lookUntil _ _ _ _) (tellsNobody_reportOutcome _ _ _ _)
  | report outcome attempt pause => exact tellsNobody_reportOutcome _ _ _ _

/-- Whatever a watch does, it offers nothing on the channel of the results. -/
theorem tellsNobody_of_isWatch (ho : o.isWatch = true) : TellsNobody (o.action setup) := by
  cases o with
  | watch run time phase => exact .bind (tellsNobody_watch run time phase) fun _ ↦ .pure _
  | failRun message => exact tellsNobody_failRun message
  | _ => cases ho

/-! ## The verdict -/

/-- **A verdict is lost with a watch, and with nothing else.** Suppose that messages on the channel
of the results are taken, and that a run comes to its end otherwise than by being stopped, while a
step that has started it waits for it. The operation then publishes the verdict, for the attempt
that the step is in and with the status that stands for the end of the run, unless it is the
operation of a watch; and a watch does not. -/
theorem verdict_published_iff
    (htaken : ∀ payload a, R (.publish .results payload) a → Except.isOk a = true)
    (h : Reachable setup R s) {r : Except EngineError Unit}
    (hrun : Logs R (o.action setup) s log r s') {before after : List Moment} {m : Moment}
    (hlog : log = before ++ m :: after) {q : WorkflowInstance} {status : RunStatus} {parent : Uid}
    {x : StepInstance} (hm : EndsAwaited m q status parent x) (hstatus : status ≠ .stopped) :
    (∃ p ∈ after, ∃ v, p.published? .results = some v.toJson.text ∧
      Answers v parent x status) ↔ o.isWatch = false := by
  have hobeys : ∀ p ∈ after, R p.call p.answer := fun p hp ↦
    hrun.obeys p (hlog ▸ List.mem_append_right _ (List.mem_cons_of_mem _ hp))
  constructor
  · rintro ⟨p, hp, v, hpub, -⟩
    refine Bool.eq_false_iff.2 fun ho ↦ ?_
    have hnobody := tellsNobody_of_isWatch ho hrun p
      (hlog ▸ List.mem_append_right _ (List.mem_cons_of_mem _ hp))
    exact hnobody _ (Moment.call_of_offered (Moment.offered?_of_published hpub))
  · intro ho
    have htells := (deeds_of_logs (guiding_nobody R) (sound_of_reachable (guiding_nobody R) h)
      hrun).tells ho
    obtain ⟨p, hp, v, hoffered, hv⟩ := htells before m after hlog q status parent x hm hstatus
    exact ⟨p, hp, v, Moment.published?_of_offered htaken (hobeys p hp) hoffered, hv⟩

/-- A run of `delegation` while the run that its step has started waits for a function. -/
def waitingScene : Scene :=
  ((recordAll queueSetup
    [(.delegating lazyFunction, .start (.ofNat 1) [] none none)] [] {}).get (by decide +kernel)).2

def waitingRun : WorkflowInstance :=
  (waitingScene.tables.run? (World.nthUid 2)).get (by decide +kernel)

def delegatingStep : StepInstance :=
  (waitingScene.tables.step? (World.nthUid 1)).get (by decide +kernel)

/-- The outcome of the wait, which nobody takes. -/
def undeliveredOutcome : DeploymentOutcome :=
  { workflowInstanceId := World.nthUid 2, ready := true }

/-- What happens when the watch gives up. -/
def givenUp : Except EngineError Unit × List Moment × Scene :=
  ((Collaborators.delegating lazyFunction).record 0
    ((Operation.failRun undeliveredOutcome).action queueSetup).run waitingScene).get
    (by decide +kernel)

def givingUp : Moment := givenUp.2.1.head (by decide +kernel)

theorem verdict_lost_of_givenUp :
    ((∀ payload a, (Collaborators.delegating lazyFunction).rule (.publish .results payload) a →
        Except.isOk a = true) ∧
      Reachable queueSetup (Collaborators.delegating lazyFunction).rule waitingScene ∧
      Logs (Collaborators.delegating lazyFunction).rule
        ((Operation.failRun undeliveredOutcome).action queueSetup) waitingScene givenUp.2.1
        givenUp.1 givenUp.2.2 ∧
      givenUp.2.1 = [] ++ givingUp :: givenUp.2.1.tail ∧
      EndsAwaited givingUp waitingRun .failedWithTerminalError (World.nthUid 0) delegatingStep) ∧
    ((∃ p ∈ givenUp.2.1.tail, ∃ v, p.published? .results = some v.toJson.text ∧
        Answers v (World.nthUid 0) delegatingStep .failedWithTerminalError) ↔
      (Operation.failRun undeliveredOutcome).isWatch = false) := by
  have htaken : ∀ payload a, (Collaborators.delegating lazyFunction).rule
      (.publish .results payload) a → Except.isOk a = true := by
    rintro payload a rfl
    rfl
  have hreach : Reachable queueSetup (Collaborators.delegating lazyFunction).rule waitingScene :=
    reachable_iff_history.2 ⟨_, history_get
      (fun e he c a h ↦ by rw [List.mem_singleton.1 he] at h; exact h) _⟩
  have hlogs : Logs (Collaborators.delegating lazyFunction).rule
      ((Operation.failRun undeliveredOutcome).action queueSetup) waitingScene givenUp.2.1
      givenUp.1 givenUp.2.2 := Collaborators.logged_get _ _
  have hlog : givenUp.2.1 = [] ++ givingUp :: givenUp.2.1.tail := (List.cons_head_tail _).symm
  have hends : EndsAwaited givingUp waitingRun .failedWithTerminalError (World.nthUid 0)
      delegatingStep :=
    { ends := by decide +kernel
      run := by decide +kernel
      parent := by decide +kernel
      parentStep := by decide +kernel
      step := by decide +kernel
      waits := by decide +kernel }
  exact ⟨⟨htaken, hreach, hlogs, hlog, hends⟩,
    verdict_published_iff htaken hreach hlogs hlog hends (by decide)⟩

end Engine

end Orchestration
