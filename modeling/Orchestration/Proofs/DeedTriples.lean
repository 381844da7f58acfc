import Orchestration.Proofs.DeedInduction
import Orchestration.Proofs.Footprint

/-!
# Triples for actions that consist of deeds

`Does R setup G o s₀ P a Q` says of an action what a triple of a program logic says: from where `P`
holds of the log and of the scene, the action `a` consists of deeds of the operation `o`, and where
it is successful `Q` holds of its result afterwards. Triples are put together like the actions.

A condition that idle moments do not end lasts (`Lasts`). It still holds after an action that only
looks at something, together with what has been seen (`Does.of_idles`).

Below, the parts are shown to consist of deeds that all operations have in common: what ends a run,
and what writes its status.
-/

namespace Orchestration

namespace Engine

open Chain

variable {α β : Type} {R : Rule} {setup : Setup} {G : Uid → Prop} {o : Operation} {s₀ s s' : Scene}
variable {log l : List Moment}

/-! ## Triples -/

/-- From where a condition holds of the log and the scene, an action consists of deeds, and if it is
successful another condition holds of its result afterwards. -/
def Does (R : Rule) (setup : Setup) (G : Uid → Prop) (o : Operation) (s₀ : Scene)
    (P : List Moment → Scene → Prop) (a : Action α) (Q : α → List Moment → Scene → Prop) : Prop :=
  ∀ ⦃log s l r s'⦄, Deeds setup G o s₀ log s → P log s → Logs R a s l r s' →
    Deeds setup G o s₀ (log ++ l) s' ∧ ∀ x, r = .ok x → Q x (log ++ l) s'

/-- A condition is not ended by idle moments. -/
def Lasts (P : List Moment → Scene → Prop) : Prop :=
  ∀ ⦃log s l⦄, (∀ m ∈ l, m.Idle) → P log s → P (log ++ l) s

theorem lasts_of_scene (P : Scene → Prop) : Lasts fun _ s ↦ P s := fun _ _ _ _ h ↦ h

theorem Lasts.and {P Q : List Moment → Scene → Prop} (hP : Lasts P) (hQ : Lasts Q) :
    Lasts fun log s ↦ P log s ∧ Q log s := fun _ _ _ hl h ↦ ⟨hP hl h.1, hQ hl h.2⟩

namespace Does

variable {P P' : List Moment → Scene → Prop} {Q Q₁ : α → List Moment → Scene → Prop}
  {Q' : β → List Moment → Scene → Prop}

theorem mono {a : Action α} (h : Does R setup G o s₀ P a Q)
    (hP : ∀ ⦃log s⦄, Deeds setup G o s₀ log s → P' log s → P log s)
    (hQ : ∀ ⦃x log s⦄, Q x log s → Q₁ x log s) : Does R setup G o s₀ P' a Q₁ := by
  intro log s l r s' hd hP' hrun
  obtain ⟨hd', hpost⟩ := h hd (hP hd hP') hrun
  exact ⟨hd', fun x hx ↦ hQ (hpost x hx)⟩

theorem forget {a : Action α} (h : Does R setup G o s₀ P a Q) :
    Does R setup G o s₀ P a fun _ _ _ ↦ True := h.mono (fun _ _ _ h ↦ h) fun _ _ _ _ ↦ trivial

theorem bind {a : Action α} {f : α → Action β} (ha : Does R setup G o s₀ P a Q)
    (hf : ∀ x, Does R setup G o s₀ (Q x) (f x) Q') : Does R setup G o s₀ P (a >>= f) Q' := by
  intro log s l r s' hd hP h
  rcases logs_bind.1 h with ⟨e, h₁, rfl⟩ | ⟨l₁, l₂, x, s₁, rfl, h₁, h₂⟩
  · exact ⟨(ha hd hP h₁).1, fun x hx ↦ nomatch hx⟩
  · obtain ⟨hd₁, hQ⟩ := ha hd hP h₁
    rw [← List.append_assoc]
    exact hf x hd₁ (hQ x rfl) h₂

theorem attempt {a : Action α} (ha : Does R setup G o s₀ P a Q) :
    Does R setup G o s₀ P (Action.attempt a) fun x log s ↦ ∀ y, x = .ok y → Q y log s := by
  intro log s l r s' hd hP h
  obtain ⟨x, h₁, rfl⟩ := logs_attempt.1 h
  obtain ⟨hd', hQ⟩ := ha hd hP h₁
  refine ⟨hd', fun y hy z hz ↦ hQ z ?_⟩
  rw [Except.ok.inj hy]
  exact hz

/-- What an action keeps holds afterwards, even if the action fails. -/
theorem attempt_of_kept {I : Scene → Prop} {a : Action α} (ha : Does R setup G o s₀ P a Q)
    (hI : ∀ ⦃s r s'⦄, Runs R a s r s' → I s → I s') (hP : ∀ ⦃log s⦄, Deeds setup G o s₀ log s →
      P log s → I s) : Does R setup G o s₀ P (Action.attempt a) fun _ _ s ↦ I s := by
  intro log s l r s' hd hp h
  obtain ⟨x, h₁, rfl⟩ := logs_attempt.1 h
  exact ⟨(ha hd hp h₁).1, fun _ _ ↦ hI h₁.runs (hP hd hp)⟩

theorem ite {p : Prop} [Decidable p] {a b : Action α}
    (ha : p → Does R setup G o s₀ P a Q) (hb : ¬p → Does R setup G o s₀ P b Q) :
    Does R setup G o s₀ P (if p then a else b) Q := by
  split
  · next h => exact ha h
  · next h => exact hb h

/-- After an idle action a condition that lasts still holds, and what was found is there. -/
theorem of_idles {a : Action α} (ha : Idles a) (hP : Lasts P) :
    Does R setup G o s₀ P a fun x log s ↦ P log s ∧ Runs R a s (.ok x) s := by
  intro log s l r s' hd hp h
  obtain ⟨hl, rfl⟩ := ha.scene_of_idles h
  refine ⟨hd.idle fun m hm ↦ ⟨(hl m hm).1, Moment.idle_of_isIdle (hl m hm).2⟩, fun x hx ↦ ⟨?_, ?_⟩⟩
  · exact hP (fun m hm ↦ Moment.idle_of_isIdle (hl m hm).2) hp
  · exact hx ▸ h.runs

theorem past {a : Action α} (ha : Idles a) (hP : Lasts P) :
    Does R setup G o s₀ P a fun _ log s ↦ P log s :=
  (of_idles ha hP).mono (fun _ _ _ h ↦ h) fun _ _ _ h ↦ h.1

theorem idles {a : Action α} (ha : Idles a) : Does R setup G o s₀ P a fun _ _ _ ↦ True := by
  intro log s l r s' hd _ h
  obtain ⟨hl, rfl⟩ := ha.scene_of_idles h
  exact ⟨hd.idle fun m hm ↦ ⟨(hl m hm).1, Moment.idle_of_isIdle (hl m hm).2⟩, fun _ _ ↦ trivial⟩

theorem pure (x : α) : Does R setup G o s₀ P (Pure.pure x : Action α) fun _ _ _ ↦ True :=
  idles (.pure x)

theorem throw (e : EngineError) : Does R setup G o s₀ P (throw e : Action α) fun _ _ _ ↦ True :=
  idles (.throw e)

/-- The first action looks at something, and the second goes on with what it has found. -/
theorem look {a : Action α} {f : α → Action β} (ha : Idles a) (hP : Lasts P)
    (hf : ∀ x, Does R setup G o s₀ (fun log s ↦ P log s ∧ Runs R a s (.ok x) s) (f x) Q') :
    Does R setup G o s₀ P (a >>= f) Q' := bind (of_idles ha hP) hf

theorem andThen {a : Action α} {f : α → Action β} (ha : Does R setup G o s₀ P a Q)
    (hf : ∀ x, Does R setup G o s₀ (fun _ _ ↦ True) (f x) Q') :
    Does R setup G o s₀ P (a >>= f) Q' :=
  bind ha.forget fun x ↦ hf x

end Does

/-! ## Idle actions -/

theorem Deeds.idles {a : Action α} {r : Except EngineError α} (hd : Deeds setup G o s₀ log s)
    (ha : Idles a) (h : Logs R a s l r s') : Deeds setup G o s₀ (log ++ l) s' :=
  (Does.idles (P := fun _ _ ↦ True) ha hd trivial h).1

theorem idles_announce (n : RunNotification) : Idles (announce n) :=
  .bind (.attempt (Idles.notify _)) fun _ ↦ .pure _

theorem idles_announceStep (step : StepInstance) (status : RunStatus) :
    Idles (announceStep step status) := idles_announce _

theorem idles_state (run : Uid) : Idles (state run) :=
  .bind (reads_readRun run).idles fun _ ↦ .bind (.store rfl) fun _ ↦ .pure _

theorem idles_lookUpFunctions (refs : List (Uid × String)) :
    Idles (Setup.lookUpFunctions refs) := by
  induction refs with
  | nil => exact .pure _
  | cons ref rest ih =>
    refine .bind (.attempt (Idles.getFunction _)) fun found ↦ ?_
    split
    · exact .bind ih fun _ ↦ .pure _
    · exact .ite (.pure _) (.throw _)

theorem idles_requestDeployments (functions : List FunctionInfo) :
    Idles (Setup.requestDeployments functions) := by
  induction functions with
  | nil => exact .pure _
  | cons f rest ih => exact .ite ih (.bind (Idles.deployFunction _) fun _ ↦ ih)

theorem idles_stillPending (functions : List Uid) : Idles (stillPending functions) := by
  induction functions with
  | nil => exact .pure _
  | cons f rest ih =>
    refine .bind (Idles.getFunction f) fun found ↦ ?_
    split
    · exact ih
    · exact .throw _
    · exact .bind ih fun _ ↦ .pure _
    · exact .bind ih fun _ ↦ .pure _
    · exact .bind ih fun _ ↦ .pure _

theorem idles_look (run : Uid) (functions : List Uid) : Idles (look run functions) :=
  .bind (reads_readRun run).idles fun _ ↦
    .ite (.pure _) (.bind (idles_stillPending functions) fun _ ↦ .pure _)

theorem idles_stepsOf (definition : WorkflowDefinition) (workflow : Uid) :
    Idles (Setup.stepsOf definition workflow) := .ite (Idles.getStepList _) (.pure _)

/-! ## The status of a run -/

/-- The status of a run is asked to be written first, and announced if it has been. -/
theorem logs_writeRunStatus {run : Uid} {status : RunStatus} {expected : Option RunStatus}
    {r : Except EngineError Bool} (h : Logs R (writeRunStatus run status expected) s l r s') :
    s' = s.afterStore (.updateRunStatus run status expected) ∧
      r = (s.tables.answer (.updateRunStatus run status expected)).1 ∧
      ∃ rest, l = ⟨s, .store (.updateRunStatus run status expected), r⟩ :: rest ∧
        ∀ m ∈ rest, m.scene = s' ∧ m.call.isIdle = true := by
  obtain ⟨hs', hr⟩ := runs_writeRunStatus h.runs
  refine ⟨hs', hr, ?_⟩
  rcases logs_bind.1 h with ⟨e, h₁, rfl⟩ | ⟨l₁, l₂, applied, s₁, rfl, h₁, hrest⟩
  · obtain ⟨rfl, -⟩ := logs_store.1 h₁
    exact ⟨[], rfl, fun m hm ↦ nomatch hm⟩
  obtain ⟨rfl, happlied, -, rfl⟩ := logs_store.1 h₁
  have hidle : Idles (if applied = true then do announceRun run status; pure applied
      else pure applied : Action Bool) :=
    .ite (.bind (idles_announce _) fun _ ↦ .pure _) (.pure _)
  have hsame : Logs R (if applied = true then do announceRun run status; pure applied
      else pure applied : Action Bool) (s.afterStore (.updateRunStatus run status expected)) l₂ r
        s' := by
    cases applied with
    | false => exact hrest
    | true => exact hrest
  obtain ⟨hl₂, -⟩ := hidle.scene_of_idles hsame
  rw [hr.trans happlied.symm]
  exact ⟨l₂, rfl, fun m hm ↦ ⟨(hl₂ m hm).1.trans hs'.symm, (hl₂ m hm).2⟩⟩

theorem afterStore_of_unmoved (hs : s.tables.Keyed) {run : Uid} {status : RunStatus}
    {expected : Option RunStatus}
    (h : (s.tables.answer (.updateRunStatus run status expected)).1 ≠ .ok true) :
    s.afterStore (.updateRunStatus run status expected) = s := by
  show { s with
    tables := (s.tables.answer (.updateRunStatus run status expected)).2, made := s.made ++ [] } = s
  rw [hs.answer_unmoved h, List.append_nil]

theorem Deeds.unmoved {run : Uid} {status : RunStatus} {expected : Option RunStatus}
    {r : Except EngineError Bool} (hd : Deeds setup G o s₀ log s) (hr : r ≠ .ok true)
    (h : Logs R (writeRunStatus run status expected) s l r s') :
    Deeds setup G o s₀ (log ++ l) s' ∧ s' = s := by
  obtain ⟨rfl, hans, rest, rfl, hrest⟩ := logs_writeRunStatus h
  have hs := afterStore_of_unmoved hd.sound.keyed (hans ▸ hr)
  rw [hs] at hrest ⊢
  refine ⟨hd.idle fun m hm ↦ ?_, rfl⟩
  rcases List.mem_cons.1 hm with rfl | hm
  · exact ⟨rfl, hr⟩
  · exact ⟨(hrest m hm).1, Moment.idle_of_isIdle (hrest m hm).2⟩

/-- A status that the store accepts is written over the one of a run that has not come to its
end. -/
theorem logs_moved {run : Uid} {status : RunStatus} {expected : Option RunStatus}
    (h : Logs R (writeRunStatus run status expected) s l (.ok true) s') :
    ∃ q rest, s.tables.run? run = some q ∧ q.runStatus.isTerminal = false ∧
      (∀ e ∈ expected, q.runStatus = e) ∧
      s' = { s with tables := s.tables.putRun { q with runStatus := status } } ∧
      l = ⟨s, .store (.updateRunStatus run status expected), .ok true⟩ :: rest ∧
      ∀ m ∈ rest, m.scene = s' ∧ m.call.isIdle = true := by
  obtain ⟨hs', hans, rest, hl, hrest⟩ := logs_writeRunStatus h
  obtain ⟨q, hq, hgoes, hexp, htables⟩ := Store.Tables.answer_moved hans.symm
  refine ⟨q, rest, hq, hgoes, hexp, ?_, hl, hrest⟩
  rw [hs']
  show { s with
    tables := (s.tables.answer (.updateRunStatus run status expected)).2, made := s.made ++ [] } = _
  rw [htables, List.append_nil]

/-! ## The end of a run -/

theorem Ends.isTerminal {status : RunStatus} {failure : Option Failure}
    {output : Option Json.Object} (h : Ends status failure output) : status.isTerminal = true := by
  cases h with
  | completed => rfl
  | failed _ hstatus => rcases hstatus with rfl | rfl | rfl | rfl <;> rfl

/-- What a run reports that comes to its end is what its record says then. -/
theorem Ends.recorded {q : WorkflowInstance} {status : RunStatus} {failure : Option Failure}
    {output : Option Json.Object} (h : Ends status failure output) (time : Instant)
    (hclean : q.errorMessages = [] ∧ q.outputData = []) :
    failure.map Failure.text = recordedReason (endedRun q status failure output time) ∧
      (finalOutput? status output).getD [] =
        (endedRun q status failure output time).outputData := by
  obtain ⟨herrors, houtput⟩ := hclean
  cases h with
  | completed o =>
    refine ⟨?_, rfl⟩
    show none = q.errorMessages.head?.map _
    rw [herrors]
    rfl
  | failed f hstatus =>
    constructor
    · show some f.text = (Dict.insert f.step f.reason q.errorMessages).head?.map _
      rw [herrors]
      rfl
    · show ((finalOutput? status none).getD [] : Json.Object) =
        (finalOutput? status none).getD q.outputData
      rw [houtput]

/-- A finished run reports what its record says, or nobody waits for it. -/
theorem logs_reportToParent {q : WorkflowInstance} {reason : Option String} {output : Json.Object}
    {r : Except EngineError Unit} (hreason : reason = recordedReason q)
    (houtput : output = q.outputData)
    (h : Logs R (reportToParent q q.runStatus reason output) s l r s') :
    ∃ l₁ told, l = l₁ ++ told ∧ (∀ m ∈ l₁, m.scene = s ∧ m.call.isIdle = true) ∧
      Told q s told s' := by
  subst hreason houtput
  unfold reportToParent at h
  cases hparent : q.parentInstanceUid with
  | none =>
    rw [hparent] at h
    obtain ⟨rfl, -, rfl⟩ := logs_pure.1 h
    exact ⟨[], [], rfl, fun m hm ↦ (nomatch hm), .untold fun _ _ _ hp ↦
      nomatch hparent.symm.trans hp⟩
  | some parent =>
    cases hstep : q.parentStepInstanceUid with
    | none =>
      rw [hparent, hstep] at h
      obtain ⟨rfl, -, rfl⟩ := logs_pure.1 h
      exact ⟨[], [], rfl, fun m hm ↦ (nomatch hm),
        .untold fun _ _ _ _ hp ↦ nomatch hstep.symm.trans hp⟩
    | some step =>
      rw [hparent, hstep] at h
      dsimp only at h
      rcases logs_bind.1 h with ⟨e, h₁, -⟩ | ⟨l₁, l₂, x, s₁, rfl, h₁, hrest⟩
      · -- The step is gone.
        obtain ⟨hl, rfl⟩ := (reads_readStep step).idles.scene_of_idles h₁
        refine ⟨l, [], (List.append_nil l).symm, hl, .untold fun _ step' x _ hp hx ↦ ?_⟩
        obtain rfl := Option.some.inj (hstep.symm.trans hp)
        cases ((finds_readStep hx).of_runs h₁.runs).1
      · obtain ⟨hl₁, rfl⟩ := (reads_readStep step).idles.scene_of_idles h₁
        have hx := runs_readStep h₁.runs
        refine ⟨l₁, l₂, rfl, hl₁, ?_⟩
        split at hrest
        · next hwaits =>
          obtain ⟨rfl, -, rfl⟩ := logs_publish.1 hrest
          exact .told parent step x r hparent hstep hx hwaits
        · next hno =>
          obtain ⟨rfl, -, rfl⟩ := logs_pure.1 hrest
          refine .untold fun _ step' y _ hp hy ↦ ?_
          obtain rfl := Option.some.inj (hstep.symm.trans hp)
          obtain rfl := Option.some.inj (hx.symm.trans hy)
          exact Bool.eq_false_iff.2 hno

theorem closes_closing (run : Uid) (time : Instant) (failure : Option Failure)
    (output : Option Json.Object) : Closes run (closing run time failure output) := by
  refine .bind (closes_setRunEndTime run time) fun _ ↦ .bind ?_ fun _ ↦ .bind ?_ fun _ ↦
    (reads_readRun run).idles.mono fun _ ↦ Call.isEnding_of_isIdle
  · cases failure with
    | none => exact .pure _
    | some f => exact closes_recordRunError run f.step f.reason
  · cases output with
    | none => exact .pure _
    | some o => exact closes_setRunOutput run o

/-- A run that has not come to its end is written as ended, and then its report is made. -/
theorem logs_terminate {run : Uid} {status : RunStatus} {failure : Option Failure}
    {output : Option Json.Object} {r : Except EngineError Unit} {q : WorkflowInstance}
    (ht : s.tables.Keyed) (hq : s.tables.run? run = some q) (hgoes : q.runStatus.isTerminal = false)
    (h : Logs R (setup.terminate run status failure output) s l r s') :
    ∃ time rest l₁ l₂ r₁,
      l = ⟨s, .store (.updateRunStatus run status none), .ok true⟩ :: (rest ++ l₁) ++ l₂ ∧
      (∀ m ∈ rest, m.call.isEnding run = true) ∧
      (∀ m ∈ l₂, m.scene = s' ∧ m.call.isIdle = true) ∧
      Logs R
        (reportToParent (endedRun q status failure output time) status (failure.map Failure.text)
          ((finalOutput? status output).getD []))
        { s with tables := s.tables.putRun (endedRun q status failure output time) } l₁ r₁ s' := by
  have hans := answer_updateRunStatus hq hgoes status
  rw [terminate_eq] at h
  rcases logs_bind.1 h with ⟨e, h₁, -⟩ | ⟨lw, lr, applied, s₁, rfl, h₁, h₂⟩
  · obtain ⟨-, happlied, -⟩ := logs_writeRunStatus h₁
    rw [hans] at happlied
    cases happlied
  obtain ⟨-, happlied, -⟩ := logs_writeRunStatus h₁
  rw [hans] at happlied
  obtain rfl := Except.ok.inj happlied
  obtain ⟨q', rest₀, hq', -, -, hs₁, rfl, hrest₀⟩ := logs_moved h₁
  obtain rfl := Option.some.inj (hq.symm.trans hq')
  rw [if_pos rfl] at h₂
  obtain ⟨time, lt, rfl, h₃⟩ := h₂.of_now
  rw [hs₁] at h₃
  obtain ⟨rest₁, lb, rfl, hrest₁, h₄⟩ :=
    (writes_closing ht hq status failure output time).logs_next (closes_closing _ _ _ _) h₃
  have hending : ∀ m ∈ rest₀ ++ (⟨s₁, .now, time⟩ :: rest₁ : List Moment),
      m.call.isEnding run = true := by
    intro m hm
    rcases List.mem_append.1 hm with hm | hm
    · exact Call.isEnding_of_isIdle (hrest₀ m hm).2
    · rcases List.mem_cons.1 hm with rfl | hm
      · rfl
      · exact hrest₁ m hm
  -- Unless the report fails the retention is set going, which changes nothing.
  rcases logs_bind.1 h₄ with ⟨e, h₅, -⟩ | ⟨l₁, l₂, _, s₂, rfl, h₅, h₆⟩
  · refine ⟨time, _, lb, [], _, ?_, hending, fun m hm ↦ (nomatch hm), h₅⟩
    simp only [List.cons_append, List.append_assoc, List.append_nil]
  · obtain ⟨hl₂, -, -, rfl⟩ := logs_spawn.1 h₆
    refine ⟨time, _, l₁, l₂, _, ?_, hending, fun m hm ↦ ?_, h₅⟩
    · simp only [List.cons_append, List.append_assoc]
    · rw [hl₂] at hm
      rw [List.mem_singleton.1 hm]
      exact ⟨rfl, rfl⟩

theorem Sound.holdsNothing (h : Sound setup G s) {run : Uid} {q : WorkflowInstance}
    (hq : s.tables.run? run = some q) (hgoes : GoesOn q) : HoldsNothing run s := by
  obtain ⟨hqm, rfl⟩ := Store.Tables.mem_of_run? hq
  refine ⟨h.keyed.runs, fun p hp hu ↦ ?_⟩
  obtain rfl := h.keyed.eq_of_run hp hqm hu
  exact h.clean.unheld p hp hgoes

/-- **To end a run is one deed**, or none if it has come to its end or is not there. -/
theorem does_terminate {run : Uid} {status : RunStatus} {failure : Option Failure}
    {output : Option Json.Object} (hends : Ends status failure output)
    {P : List Moment → Scene → Prop}
    (hP : ∀ ⦃log s q⦄, Deeds setup G o s₀ log s → P log s → s.tables.run? run = some q →
      Concludes s.tables q status output) :
    Does R setup G o s₀ P (setup.terminate run status failure output) fun _ _ _ ↦ True := by
  intro log s l r s' hd hp h
  refine ⟨?_, fun _ _ ↦ trivial⟩
  have hkeyed := hd.sound.keyed
  by_cases hgoes : ∃ q, s.tables.run? run = some q ∧ q.runStatus.isTerminal = false
  · obtain ⟨q, hq, hgoes⟩ := hgoes
    have hconcludes := hP hd hp hq
    obtain ⟨hqm, rfl⟩ := Store.Tables.mem_of_run? hq
    obtain ⟨time, rest, l₁, l₂, r₁, rfl, hrest, hl₂, hreport⟩ := logs_terminate hkeyed hq hgoes h
    obtain ⟨hreason, houtput⟩ := hends.recorded time (hd.sound.clean.unended q hqm hgoes)
    obtain ⟨before, told, rfl, hbefore, htold⟩ := logs_reportToParent hreason houtput hreport
    have hs' : Sound setup G s' := by
      refine ⟨keeps_terminate hends.isTerminal failure output hd.sound.standing h.runs, ?_⟩
      rw [htold.tables.1]
      exact hd.sound.clean.putRun_of_terminal hends.isTerminal
    have hfinish := Deeds.more hd (.finish q status failure output time (rest ++ before) told s'
      hq hgoes hends (fun m hm ↦ (List.mem_append.1 hm).elim (hrest m) fun hm ↦
        Call.isEnding_of_isIdle (hbefore m hm).2) htold hconcludes) hs'
    have hend := hfinish.idle fun m hm ↦ ⟨(hl₂ m hm).1, Moment.idle_of_isIdle (hl₂ m hm).2⟩
    simpa only [List.append_assoc, List.cons_append] using hend
  · -- The store refuses the status.
    have hans : (s.tables.answer (.updateRunStatus run status none)).1 ≠ .ok true := by
      intro hyes
      obtain ⟨q, hq, hno, -⟩ := Store.Tables.answer_moved hyes
      exact hgoes ⟨q, hq, hno⟩
    rcases logs_bind.1 h with ⟨e, h₁, -⟩ | ⟨l₁, l₂, applied, s₁, rfl, h₁, h₂⟩
    · exact (hd.unmoved (by simp) h₁).1
    · have happlied : applied = false := by
        rw [(logs_writeRunStatus h₁).2.1.symm] at hans
        cases applied with
        | false => rfl
        | true => exact absurd rfl hans
      subst happlied
      obtain ⟨hd₁, -⟩ := hd.unmoved (by simp) h₁
      obtain ⟨rfl, -, rfl⟩ := logs_pure.1 h₂
      rwa [List.append_nil]

theorem HoldsNothing.concludes {run : Uid} {status : RunStatus} {q : WorkflowInstance}
    (h : HoldsNothing run s) (hq : s.tables.run? run = some q) (hstatus : status ≠ .completed) :
    Concludes s.tables q status none := by
  obtain ⟨hqm, hqu⟩ := Store.Tables.mem_of_run? hq
  exact ⟨h.unheld q hqm hqu, fun hyes ↦ absurd hyes hstatus⟩

theorem does_terminate_failed {run : Uid} {status : RunStatus} (failure : Failure)
    (hstatus : status = .failed ∨ status = .timedOut ∨ status = .canceled ∨
      status = .failedWithTerminalError)
    {P : List Moment → Scene → Prop}
    (hP : ∀ ⦃log s⦄, Deeds setup G o s₀ log s → P log s → HoldsNothing run s) :
    Does R setup G o s₀ P (setup.terminate run status (some failure) none) fun _ _ _ ↦ True := by
  refine does_terminate (.failed failure hstatus) fun log s q hd hp hq ↦ (hP hd hp).concludes hq ?_
  rcases hstatus with rfl | rfl | rfl | rfl
  · decide
  · decide
  · decide
  · decide

theorem does_fail {run : Uid} {status : RunStatus} (hstatus : status = .failed ∨
    status = .timedOut ∨ status = .canceled ∨ status = .failedWithTerminalError)
    (step reason : String) {P : List Moment → Scene → Prop}
    (hP : ∀ ⦃log s⦄, Deeds setup G o s₀ log s → P log s → HoldsNothing run s) :
    Does R setup G o s₀ P (setup.fail run status step reason) fun _ _ _ ↦ True :=
  does_terminate_failed ⟨step, reason⟩ hstatus hP

end Engine

end Orchestration
