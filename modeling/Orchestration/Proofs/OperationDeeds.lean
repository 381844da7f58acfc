import Orchestration.Proofs.AdvanceDeeds

/-!
# The deeds of an operation

Every operation consists of deeds. Nothing but the rule is assumed of the collaborators, and nothing
of the arguments of the operation. So what is shown of all deeds is shown of everything that the
engine ever does.
-/

namespace Orchestration

namespace Engine

open Chain

variable {R : Rule} {setup : Setup} {G : Uid → Prop} {o : Operation} {s₀ s s' : Scene}
variable {log l : List Moment} {run : Uid}

/-! ## Outcomes of a wait -/

theorem does_ready :
    Does R setup G o s₀ (fun _ _ ↦ True) (moveRunStatus run .deployingFunctions .running)
      fun moved log s ↦ moved = true →
        ∀ x ∈ s.tables.chainOf run, x.runOrderLabel = .first → Called G log s x.uid := by
  intro log s l r s' hd _ h
  by_cases hr : r = .ok true
  · subst hr
    obtain ⟨q, _, hq, -, hexp, -⟩ := logs_moved h
    obtain ⟨hd', hcalled⟩ := hd.begin (fun p hp ↦ .inr (by
      rw [← Option.some.inj (hq.symm.trans hp)]
      exact hexp _ rfl)) h
    exact ⟨hd', fun _ _ _ ↦ hcalled⟩
  · exact ⟨(hd.unmoved hr h).1, fun moved hmoved hyes ↦ absurd (hyes ▸ hmoved) hr⟩

theorem does_processOutcome (hR : Guiding R G) (outcome : DeploymentOutcome) :
    Does R setup G o s₀ (fun _ _ ↦ True) (setup.processOutcome outcome) fun _ _ _ ↦ True := by
  refine .ite (fun _ ↦ ?_) fun _ ↦ ?_
  · refine .bind does_ready fun moved ↦ ?_
    have hlasts : Lasts fun log s ↦ moved = true →
        ∀ x ∈ s.tables.chainOf outcome.workflowInstanceId, x.runOrderLabel = .first →
        Called G log s x.uid :=
      fun _ _ _ hl h hyes x hx hfirst ↦ lasts_called G x.uid hl (h hyes x hx hfirst)
    refine .look (reads_firstStep _).idles hlasts fun x ↦ .ite (fun hmoved ↦ ?_) fun _ ↦ ?_
    · refine (does_launchStep hR).mono (fun log s hd h ↦ ?_) fun _ _ _ h ↦ h
      obtain ⟨hx, hfirst⟩ := runs_firstStep h.2
      exact ⟨h.1 hmoved x hx hfirst,
        hd.sound.keyed.step?_iff.2 ⟨(Store.Tables.mem_chainOf.1 hx).1, rfl⟩⟩
    · refine .look (reads_readRun _).idles (hlasts.and (lasts_of_scene _)) fun q ↦
        .ite (fun hyes ↦ ?_) fun _ ↦ .pure _
      -- The run has begun, but its first step has not been launched.
      refine (does_launchStep hR).mono (fun log s hd h ↦ ?_) fun _ _ _ h ↦ h
      obtain ⟨⟨-, hread⟩, hread'⟩ := h
      obtain ⟨hx, hfirst⟩ := runs_firstStep hread
      have hq := runs_readRun hread'
      obtain ⟨hqm, hqu⟩ := Store.Tables.mem_of_run? hq
      obtain ⟨hxm, hxu⟩ := Store.Tables.mem_chainOf.1 hx
      obtain ⟨ds, hst, -⟩ := hd.sound.standing
      have hknown := hst.keyed.step?_iff.2 ⟨hxm, rfl⟩
      refine ⟨⟨⟨x, q, hknown, hxu ▸ hq, ⟨by rw [hyes.1]; rfl, by simp [hyes.1]⟩,
        .arrival fun _ ↦ hyes.2, .first hfirst⟩,
        hst.launchable_first hx hfirst (fun _ ↦ hyes.2) fun p hp hpu ↦ ?_⟩, hknown⟩
      obtain rfl := hst.keyed.eq_of_run hp hqm (hpu.trans hqu.symm)
      exact ⟨by simp [hyes.1], by simp [hyes.1], by simp [hyes.1]⟩
  · refine .look (reads_readRun _).idles (lasts_of_scene _) fun q ↦
      .ite (fun hwaits ↦ ?_) fun _ ↦ .pure _
    exact does_fail (.inr (.inr (.inr rfl))) _ _ fun log s hd h ↦
      hd.sound.holdsNothing (runs_readRun h.2) (goesOn_of_unbegun (.inr hwaits))

/-! ## Operators -/

/-- A run is ended without a report: its status is written, and then other parts of its end. -/
theorem deeds_quit {status : RunStatus} {expected : Option RunStatus} {failure : Option Failure}
    {q : WorkflowInstance} {time : Instant} {rest : List Moment} (hd : Deeds setup G o s₀ log s)
    (hquits : Quits o q status failure) (hq : s.tables.run? q.uid = some q)
    (hgoes : q.runStatus.isTerminal = false) (hrest : ∀ m ∈ rest, m.call.isEnding q.uid = true)
    (hstand : Standing setup G
      { s with tables := s.tables.putRun (endedRun q status failure none time) }) :
    Deeds setup G o s₀
      (log ++ ⟨s, .store (.updateRunStatus q.uid status expected), .ok true⟩ :: rest)
      { s with tables := s.tables.putRun (endedRun q status failure none time) } := by
  refine .more hd (.quit q status failure time expected rest hquits hq hgoes hrest)
    ⟨hstand, hd.sound.clean.putRun_of_terminal ?_⟩
  show status.isTerminal = true
  cases hquits with
  | stop => rfl
  | watch => rfl
  | failRun => rfl

theorem logs_setRunEndTime {q : WorkflowInstance} {r : Except EngineError Unit}
    {p : WorkflowInstance} {t : Store.Tables} (ht : t.Keyed) (hq : t.run? run = some q)
    (hp : p.uid = run)
    (hs : s.tables = t.putRun p) (h : Logs R (setRunEndTime run) s l r s') :
    ∃ time, r = .ok () ∧ s' = { s with tables := t.putRun { p with endTime := some time } } ∧
      ∀ m ∈ l, m.call.isEnding run = true := by
  obtain ⟨time, rest, rfl, h₁⟩ := h.of_now
  obtain ⟨hr, hs'⟩ := writes_setRunEndTime ht hq hp time hs h₁.runs
  refine ⟨time, hr, hs', fun m hm ↦ ?_⟩
  rcases List.mem_cons.1 hm with rfl | hm
  · rfl
  · exact closes_setRunEndTime run time h₁ m hm

theorem does_stop (ho : o = .stop run) :
    Does R setup G o s₀ (fun _ _ ↦ True) (Engine.stop run) fun _ _ _ ↦ True := by
  intro log s l r s' hd _ h
  refine ⟨?_, fun _ _ ↦ trivial⟩
  rcases logs_bind.1 h with ⟨e, h₁, -⟩ | ⟨l₁, l₂, applied, s₁, rfl, h₁, h₂⟩
  · exact (hd.unmoved (by simp) h₁).1
  cases applied with
  | false =>
    obtain ⟨hd₁, rfl⟩ := hd.unmoved (by simp) h₁
    have hrest : Logs R (readRun run >>= fun q ↦ (throw (.runFinished run q.runStatus) :
        Action RunSnapshot)) s₁ l₂ r s' := h₂
    rw [← List.append_assoc]
    exact hd₁.idles (.bind (reads_readRun run).idles fun q ↦ .throw _) hrest
  | true =>
    obtain ⟨q, rest, hq, hgoes, -, hs₁, rfl, hrest⟩ := logs_moved h₁
    obtain ⟨hqm, rfl⟩ := Store.Tables.mem_of_run? hq
    have hkeyed := hd.sound.keyed
    have hended : ∀ {l : List Moment} {r : Except EngineError Unit} {s₂ : Scene},
        Logs R (setRunEndTime q.uid) s₁ l r s₂ → r = .ok () ∧ Deeds setup G o s₀ (log ++
          (⟨s, .store (.updateRunStatus q.uid .stopped none), .ok true⟩ :: (rest ++ l))) s₂ := by
      intro l r s₂ h₃
      obtain ⟨time, hr, hs₂, hl⟩ :=
        logs_setRunEndTime (p := { q with runStatus := .stopped }) hkeyed hq rfl (by rw [hs₁]) h₃
      refine ⟨hr, ?_⟩
      have hstand : Standing setup G s₂ := keeps_setRunEndTime
        (keeps_writeRunStatus_terminal rfl none hd.sound.standing h₁.runs) h₃.runs
      rw [hs₂, hs₁] at hstand ⊢
      exact deeds_quit hd (ho ▸ .stop q : Quits o q .stopped none) hq hgoes (fun m hm ↦
        (List.mem_append.1 hm).elim (fun hm ↦ Call.isEnding_of_isIdle (hrest m hm).2) (hl m)) hstand
    rcases logs_bind.1 h₂ with ⟨e, h₃, -⟩ | ⟨l₃, l₄, _, s₂, rfl, h₃, h₄⟩
    · cases (hended h₃).1
    · have hstate := (hended h₃).2.idles (idles_state q.uid) h₄
      simpa only [List.append_assoc, List.cons_append] using hstate

/-- A run moves if it has the status that is demanded; else the operator is told, and nothing else
comes of it. -/
theorem logs_requireMove {source target : RunStatus} {r : Except EngineError Unit}
    (h : Logs R (requireMove run source target) s l r s') :
    (Logs R (writeRunStatus run target (some source)) s l (.ok true) s' ∧ r = .ok ()) ∨
      ((∃ e, r = .error e) ∧ ∀ {setup : Setup} {G : Uid → Prop} {o s₀ log},
        Deeds setup G o s₀ log s → Deeds setup G o s₀ (log ++ l) s') := by
  rcases logs_bind.1 h with ⟨e, h₁, rfl⟩ | ⟨l₁, l₂, moved, s₁, rfl, h₁, h₂⟩
  · exact .inr ⟨⟨e, rfl⟩, fun hd ↦ (hd.unmoved (by simp) h₁).1⟩
  cases moved with
  | true =>
    obtain ⟨rfl, rfl, rfl⟩ := logs_pure.1 h₂
    rw [List.append_nil]
    exact .inl ⟨h₁, rfl⟩
  | false =>
    refine .inr ⟨?_, fun hd ↦ ?_⟩
    · rcases logs_bind.1 h₂ with ⟨e, -, rfl⟩ | ⟨_, _, q, _, -, -, h₃⟩
      · exact ⟨e, rfl⟩
      · exact ⟨_, (logs_throw.1 h₃).2.1⟩
    · obtain ⟨hd₁, rfl⟩ := hd.unmoved (by simp) h₁
      rw [← List.append_assoc]
      exact hd₁.idles (.bind (reads_readRun run).idles fun q ↦ .throw _) h₂

theorem does_pause :
    Does R setup G o s₀ (fun _ _ ↦ True) (Engine.pause run) fun _ _ _ ↦ True := by
  refine .andThen (Q := fun _ _ _ ↦ True) ?_ fun _ ↦ .idles (idles_state run)
  intro log s l r s' hd _ h
  refine ⟨?_, fun _ _ ↦ trivial⟩
  rcases logs_requireMove h with ⟨h₁, -⟩ | ⟨-, hsame⟩
  · obtain ⟨q, rest, hq, hgoes, hexp, rfl, rfl, hrest⟩ := logs_moved h₁
    obtain ⟨-, rfl⟩ := Store.Tables.mem_of_run? hq
    have hrunning : q.runStatus = .running := hexp _ rfl
    have hmoved := Deeds.more hd (.move q .paused (some .running) hq (hrunning ▸ .pause))
      (sound_of_moved hd.sound hq ⟨hgoes, by rw [hrunning]; decide⟩
        (keeps_pausing hd.sound.standing h₁.runs))
    have hall := hmoved.idle fun m hm ↦ ⟨(hrest m hm).1, Moment.idle_of_isIdle (hrest m hm).2⟩
    rwa [List.append_assoc] at hall
  · exact hsame hd

/-- A paused run that is resumed lets go of what it holds, and may move on from there. -/
theorem does_resumeHeld (ho : o = .resume run) :
    Does R setup G o s₀ (fun log _ ↦ Quiet log)
      (requireMove run .paused .running >>= fun _ ↦ Action.store (.takeHeldStep run))
      fun held log s ↦ Quiet log ∧ ∀ u, held = some u → ∀ x, s.tables.step? u = some x →
        Leaving G s x := by
  intro log s l r s' hd hquiet h
  rcases logs_bind.1 h with ⟨e, h₁, rfl⟩ | ⟨l₁, l₂, _, s₁, rfl, h₁, h₂⟩
  · rcases logs_requireMove h₁ with ⟨-, he⟩ | ⟨-, hsame⟩
    · cases he
    · exact ⟨hsame hd, fun _ hx ↦ nomatch hx⟩
  rcases logs_requireMove h₁ with ⟨h₁, -⟩ | ⟨⟨e, he⟩, -⟩
  · obtain ⟨q, rest, hq, hgoes, hexp, rfl, rfl, hrest⟩ := logs_moved h₁
    obtain ⟨hqm, rfl⟩ := Store.Tables.mem_of_run? hq
    have hpaused : q.runStatus = .paused := hexp _ rfl
    obtain ⟨ds, hst, hds⟩ := hd.sound.standing
    obtain ⟨hst', hleavable⟩ := hst.resumed hqm hpaused rfl
    have htaken := tables_moved_taken hq hst.keyed rfl
    obtain ⟨hl₂, hr, -, rfl⟩ := logs_store.1 h₂
    rw [htaken] at hr
    have hafter :
        Scene.afterStore { s with tables := s.tables.putRun { q with runStatus := .running } }
          (.takeHeldStep q.uid) =
        { s with
          tables :=
            s.tables.putRun { q with runStatus := .running, heldStepInstanceUid := none } } := by
      simp only [Scene.afterStore, htaken, Scene.madeBy, List.append_nil]
    rw [hafter]
    have htail : ∀ m ∈ rest ++ l₂, (m.call.isIdle = true ∨ m.call = .store (.takeHeldStep q.uid)) ∧
        ∀ u, m.grants u = false ∧ m.launches u = false := by
      intro m hm
      rcases List.mem_append.1 hm with hm | hm
      · have hidle := Moment.idle_of_isIdle (hrest m hm).2
        exact ⟨.inl (hrest m hm).2, fun u ↦ ⟨hidle.grants, hidle.launches⟩⟩
      · rw [hl₂] at hm
        rw [List.mem_singleton.1 hm]
        exact ⟨.inr rfl, fun u ↦ ⟨rfl, rfl⟩⟩
    have hresume := Deeds.more hd (.resume q (rest ++ l₂) ho hq hpaused fun m hm ↦ (htail m hm).1)
      ⟨⟨ds, hst', hds⟩, hd.sound.clean.putRun_of_same hqm hgoes ⟨rfl, rfl⟩ fun _ ↦ rfl⟩
    refine ⟨hresume, fun held hheld ↦ ⟨fun m hm u ↦ ?_, fun u hu x hx ↦ ?_⟩⟩
    · rcases List.mem_append.1 hm with hm | hm
      · exact hquiet m hm u
      · rcases List.mem_cons.1 hm with rfl | hm
        · exact ⟨rfl, rfl⟩
        · exact (htail m hm).2 u
    · have hheld : q.heldStepInstanceUid = some u := (Except.ok.inj (hr.symm.trans hheld)).trans hu
      have hxu := (Store.Tables.mem_of_step? hx).2
      obtain ⟨y, hym, hyu, hyw⟩ := hst.holds q hqm u hheld
      obtain rfl := hst.keyed.eq_of_step hym (Store.Tables.mem_of_step? hx).1 (hyu.trans hxu.symm)
      refine ⟨hxu ▸ hx, ⟨{ q with runStatus := .running, heldStepInstanceUid := none }, ?_, rfl,
        by simp⟩, hleavable u hheld y hx⟩
      rw [hyw]
      exact hst.keyed.run?_putRun hq rfl
  · cases he

theorem does_resume (hR : Guiding R G) (ho : o = .resume run) :
    Does R setup G o s₀ (fun log _ ↦ Quiet log) (setup.resume run) fun _ _ _ ↦ True := by
  unfold Setup.resume
  rw [← bind_assoc]
  refine .bind (does_resumeHeld ho) fun held ↦ ?_
  cases held with
  | none => exact .idles (idles_state run)
  | some u =>
    refine .look (reads_readStep u).idles (lasts_quiet.and (lasts_of_scene _)) fun x ↦ ?_
    refine .andThen ((does_advance hR).mono (fun log s _ h ↦ ?_) fun _ _ _ h ↦ h) fun _ ↦
      .idles (idles_state run)
    exact ⟨h.1.2 u rfl x (runs_readStep h.2), h.1.1⟩

/-! ## Watches and retention -/

theorem does_publishOutcome {document : Json} :
    Does R setup G o s₀ (fun _ _ ↦ True) (Action.publish .deployments document)
      fun _ _ _ ↦ True := by
  intro log s l r s' hd _ h
  refine ⟨?_, fun _ _ ↦ trivial⟩
  have hstand := keeps_publish (by decide) document hd.sound.standing h.runs
  obtain ⟨rfl, -, hs'⟩ := logs_publish.1 h
  subst hs'
  exact .more hd (.outcome document.text r) ⟨hstand, hd.sound.clean⟩

theorem does_deliver (outcome : DeploymentOutcome) :
    Does R setup G o s₀ (fun _ _ ↦ True) (deliver outcome) fun _ _ _ ↦ True := by
  refine .andThen (.attempt does_publishOutcome) fun sent ↦ ?_
  cases sent with
  | ok _ => exact .pure _
  | error e =>
    refine .andThen (.idles (.attempt (reads_readRun _).idles)) fun found ↦ ?_
    cases found with
    | ok q => exact .pure _
    | error e => exact .pure _

/-- Whoever watches over the functions of a run may end it. -/
def GivesUp (o : Operation) (outcome : DeploymentOutcome) : Prop :=
  (∃ run time phase, o = .watch run time phase) ∨ o = .failRun outcome

theorem GivesUp.quits {outcome : DeploymentOutcome} (h : GivesUp o outcome) {q : WorkflowInstance}
    (hq : q.runStatus = .deployingFunctions) (hu : q.uid = outcome.workflowInstanceId)
    (failure : Failure) : Quits o q .failedWithTerminalError (some failure) := by
  rcases h with ⟨run, time, phase, rfl⟩ | rfl
  · exact .watch run time phase q failure hq
  · exact .failRun outcome q failure hq hu.symm

theorem does_failRun {outcome : DeploymentOutcome} (ho : GivesUp o outcome) :
    Does R setup G o s₀ (fun _ _ ↦ True) (failRun outcome) fun _ _ _ ↦ True := by
  intro log s l r s' hd _ h
  refine ⟨?_, fun _ _ ↦ trivial⟩
  have hstand := keeps_failRun outcome hd.sound.standing h.runs
  rcases logs_bind.1 h with ⟨e, h₁, -⟩ | ⟨l₁, l₂, moved, s₁, rfl, h₁, h₂⟩
  · exact (hd.unmoved (by simp) h₁).1
  cases moved with
  | false =>
    obtain ⟨hd₁, rfl⟩ := hd.unmoved (by simp) h₁
    obtain ⟨rfl, -, rfl⟩ := logs_pure.1 h₂
    rwa [List.append_nil]
  | true =>
    obtain ⟨q, rest, hq, hgoes, hexp, rfl, rfl, hrest⟩ := logs_moved h₁
    have hqu := (Store.Tables.mem_of_run? hq).2
    have hkeyed := hd.sound.keyed
    -- The run is read, and then its end is noted with a reason.
    have hread : Finds (s.tables.putRun { q with runStatus := .failedWithTerminalError })
        (readRun outcome.workflowInstanceId)
        (.ok { q with runStatus := .failedWithTerminalError }) :=
      finds_readRun (hkeyed.run?_putRun hq hqu)
    obtain ⟨l₃, l₄, rfl, hl₃, h₄⟩ := Writes.logs_next hread.writes (reads_readRun _).idles h₂
    rcases logs_bind.1 h₄ with ⟨e, h₅, -⟩ | ⟨l₅, l₆, _, s₅, rfl, h₅, h₆⟩
    · obtain ⟨_, hr, -⟩ :=
        logs_setRunEndTime (p := { q with runStatus := .failedWithTerminalError })
        hkeyed hq hqu rfl h₅
      cases hr
    obtain ⟨time, -, rfl, hl₅⟩ := logs_setRunEndTime
      (p := { q with runStatus := .failedWithTerminalError }) hkeyed hq hqu rfl h₅
    have hs' := (writes_recordRunError
      (p := { q with runStatus := .failedWithTerminalError, endTime := some time }) hkeyed hq hqu
      ⟨q.name, undelivered outcome⟩ rfl h₆.runs).2
    have hl₆ := closes_recordRunError _ q.name (undelivered outcome) h₆
    subst hs'
    have hclosing : ∀ m ∈ rest ++ (l₃ ++ (l₅ ++ l₆)), m.call.isEnding q.uid = true := by
      intro m hm
      rw [hqu]
      simp only [List.mem_append] at hm
      rcases hm with hm | hm | hm | hm
      · exact Call.isEnding_of_isIdle (hrest m hm).2
      · exact Call.isEnding_of_isIdle (hl₃ m hm)
      · exact hl₅ m hm
      · exact hl₆ m hm
    rw [← hqu] at hq ⊢
    exact deeds_quit hd (ho.quits (hexp _ rfl) hqu ⟨q.name, undelivered outcome⟩) hq hgoes hclosing
      hstand

theorem does_reportOutcome {outcome : DeploymentOutcome} (ho : GivesUp o outcome)
    (time attempt pause : Nat) :
    Does R setup G o s₀ (fun _ _ ↦ True) (reportOutcome outcome time attempt pause)
      fun _ _ _ ↦ True := by
  refine .andThen (does_deliver outcome) fun delivered ↦ .ite (fun _ ↦ .pure _) fun _ ↦ ?_
  exact .ite (fun _ ↦ .pure _) fun _ ↦ .andThen (.attempt (does_failRun ho)) fun _ ↦ .pure _

theorem does_watch {time : Nat} {phase : Phase} (ho : o = .watch run time phase) :
    Does R setup G o s₀ (fun _ _ ↦ True) (setup.watch run time phase) fun _ _ _ ↦ True := by
  have hgives : ∀ outcome, GivesUp o outcome := fun _ ↦ .inl ⟨run, time, phase, ho⟩
  have hlook : ∀ functions deadline, Does R setup G o s₀ (fun _ _ ↦ True)
      (setup.lookUntil run functions time deadline) fun _ _ _ ↦ True := by
    intro functions deadline
    refine .andThen (.idles (.attempt (idles_look run functions))) fun found ↦ ?_
    rcases found with e | _ | _ | pending
    · exact does_reportOutcome (hgives _) _ _ _
    · exact does_reportOutcome (hgives _) _ _ _
    · exact .pure _
    · exact .ite (fun _ ↦ does_reportOutcome (hgives _) _ _ _) fun _ ↦ .pure _
  cases phase with
  | begin functions => exact hlook _ _
  | wait functions nextLook deadline =>
    exact .ite (fun _ ↦ hlook _ _) fun _ ↦ does_reportOutcome (hgives _) _ _ _
  | report outcome attempt pause => exact does_reportOutcome (hgives _) _ _ _

theorem does_deleteOldRuns {keepDays : Int} {maxCount : Nat} (ho : o = .sweep keepDays maxCount) :
    Does R setup G o s₀ (fun _ _ ↦ True) (deleteOldRuns keepDays maxCount) fun _ _ _ ↦ True := by
  refine .andThen (.idles (.store rfl)) fun runs ↦ .andThen (.idles (.now rfl)) fun now ↦ ?_
  refine .ite (fun _ ↦ .pure _) fun _ ↦ ?_
  intro log s l r s' hd _ h
  refine ⟨?_, fun _ _ ↦ trivial⟩
  obtain ⟨ds, hst, hds⟩ := hd.sound.standing
  obtain ⟨rfl, -, -, hs'⟩ := logs_store.1 h
  simp only [Scene.afterStore, Scene.madeBy, List.append_nil] at hs'
  subst hs'
  refine .more hd (.remove _ _ rfl rfl ⟨keepDays, maxCount, ho⟩) ⟨⟨ds, hst.remove _, hds⟩, ?_⟩
  exact hd.sound.clean.remove _

/-! ## All operations -/

/-- **Every operation consists of deeds.** -/
theorem does_operation (hR : Guiding R G) (o : Operation) (s₀ : Scene) :
    Does R setup G o s₀ (fun log s ↦ s = s₀ ∧ Quiet log) (o.action setup) fun _ _ _ ↦ True := by
  have hall : ∀ {α : Type} {a : Action α}, Does R setup G o s₀ (fun _ _ ↦ True)
      a (fun _ _ _ ↦ True) → Does R setup G o s₀ (fun log s ↦ s = s₀ ∧ Quiet log)
      a fun _ _ _ ↦ True :=
    fun h ↦ h.mono (fun _ _ _ _ ↦ trivial) fun _ _ _ h ↦ h
  cases o with
  | start workflow input parent parentStep =>
    refine .andThen ((does_startWorkflow hR workflow input parent parentStep).mono
      (fun _ _ _ _ ↦ ?_) fun _ _ _ h ↦ h) fun _ ↦ .pure _
    exact .outside workflow input rfl
  | result message => exact does_processResult hR rfl
  | outcome message => exact hall (does_processOutcome hR message)
  | stop run => exact .andThen (hall (does_stop rfl)) fun _ ↦ .pure _
  | pause run => exact .andThen (hall does_pause) fun _ ↦ .pure _
  | resume run =>
    exact .andThen ((does_resume hR rfl).mono (fun _ _ _ h ↦ h.2) fun _ _ _ h ↦ h) fun _ ↦ .pure _
  | watch run time phase => exact .andThen (hall (does_watch rfl)) fun _ ↦ .pure _
  | failRun message => exact hall (does_failRun (.inr rfl))
  | sweep keepDays maxCount => exact .andThen (hall (does_deleteOldRuns rfl)) fun _ ↦ .pure _

theorem deeds_of_logs (hR : Guiding R G) (hs : Sound setup G s) {r : Except EngineError Unit}
    (h : Logs R (o.action setup) s log r s') : Deeds setup G o s log s' :=
  (does_operation hR o s (.none hs) ⟨rfl, fun _ hm ↦ nomatch hm⟩ h).1

end Engine

end Orchestration
