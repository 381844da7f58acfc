import Orchestration.Proofs.Advancing
import Orchestration.Proofs.LaunchOutcome

/-!
# Executions that are put together

Most of what is proved about an action takes an execution of it apart. To show that something could
have happened, an execution has to be put together instead: out of what is found in the records, out
of what is written, and out of another execution that has begun in a like scene.

Scenes are alike here in two ways. Either they differ in the case that is noted of one step, which
no expression reads (`CaseNoted`), or in what has been sent off, which nobody reads at all
(`runs_reportToParent`).
-/

namespace Orchestration

namespace Engine

open Expression (parseSource Source DataReference)

variable {α β : Type} {R : Rule} {setup : Setup} {s s' : Scene}

/-! ## Writing a result -/

theorem writes_applyStepResult {t : Store.Tables} {x : StepInstance} {m : StepResult}
    (hx : t.step? x.uid = some x) (hrunning : x.runStatus = .running) (hcount : x.CanCount)
    (time : Instant) :
    Writes t (Action.store (.applyStepResult x.uid (updateOf m time x.runCount))) true
      (t.putStep (answeredStep x m time)) := by
  have hstep := writes_onStep (c := .applyStepResult x.uid (updateOf m time x.runCount))
    (g := Store.Tables.withResult (updateOf m time x.runCount)) hx rfl
    (Store.Tables.answer_applyStepResult (Store.Tables.isBeyondCount_of_canCount hx hcount _))
  rw [withResult_of_running hrunning rfl] at hstep
  exact hstep

theorem finds_answeredStep {t : Store.Tables} {x : StepInstance} {m : StepResult} (ht : t.Keyed)
    (hx : t.step? x.uid = some x) (time : Instant) :
    Finds (t.putStep (answeredStep x m time)) (readStep x.uid) (.ok (answeredStep x m time)) :=
  finds_readStep (ht.step?_putStep hx rfl rfl)

/-- A result that answers the attempt of a running step is written. -/
theorem runs_applyResult_accepted {x : StepInstance} {m : StepResult}
    {r : Except EngineError (Option StepInstance)} (ht : s.tables.Keyed)
    (hx : s.tables.step? x.uid = some x) (hrunning : x.runStatus = .running)
    (hcount : x.CanCount) (hattempt : ∀ n ∈ m.attempt, n = attemptOf x)
    (h : Runs R (applyResult x m) s r s') :
    ∃ time, r = .ok (some (answeredStep x m time)) ∧
      s' = { s with tables := s.tables.putStep (answeredStep x m time) } := by
  unfold applyResult at h
  rw [expectedRunCount_of_attempt hcount hattempt] at h
  obtain ⟨time, h⟩ := Runs.of_now h
  refine ⟨time, ?_⟩
  have hrest := (writes_applyStepResult hx hrunning hcount time).next h
  rw [if_pos rfl] at hrest
  rcases runs_bind.1 hrest with ⟨e, h₁, -⟩ | ⟨_, s₁, h₁, hrest⟩
  · cases runs_announce h₁
  rw [still_announceStep _ _ h₁] at hrest
  exact runs_pure.1 (Finds.next (f := fun y ↦ pure (some y))
    (s := { s with tables := s.tables.putStep (answeredStep x m time) })
    (finds_answeredStep ht hx time) hrest)

/-! ## Putting executions together -/

theorem Runs.andThen {a : Action α} {f : α → Action β} {x : α} {s₁ : Scene}
    {r : Except EngineError β} (h₁ : Runs R a s (.ok x) s₁) (h₂ : Runs R (f x) s₁ r s') :
    Runs R (a >>= f) s r s' := runs_bind.2 (.inr ⟨x, s₁, h₁, h₂⟩)

/-- An action has an execution from every scene. -/
def Feasible (R : Rule) (a : Action α) : Prop := ∀ s, ∃ r s', Runs R a s r s'

namespace Feasible

theorem pure (x : α) : Feasible R (pure x) := fun s ↦ ⟨.ok x, s, runs_pure.2 ⟨rfl, rfl⟩⟩

theorem bind {a : Action α} {f : α → Action β} (ha : Feasible R a) (hf : ∀ x, Feasible R (f x)) :
    Feasible R (a >>= f) := by
  intro s
  obtain ⟨r, s₁, h₁⟩ := ha s
  cases r with
  | error e => exact ⟨_, s₁, runs_bind.2 (.inl ⟨e, h₁, rfl⟩)⟩
  | ok x =>
    obtain ⟨r, s₂, h₂⟩ := hf x s₁
    exact ⟨r, s₂, h₁.andThen h₂⟩

end Feasible

theorem Reads.feasible {a : Action α} (h : Reads a) (hR : ∀ c a, R (.store c) a) :
    Feasible R a := by
  intro s
  obtain ⟨o, ho⟩ := h s.tables
  exact ⟨o, s, ho.runs hR⟩

theorem lenient_noFailure : Lenient noFailure where
  store _ _ := trivial
  now _ := trivial
  newUid _ := trivial
  spawn _ := trivial
  notify _ := ⟨.ok (), rfl⟩

namespace Lenient

variable (hR : Lenient R)

include hR

theorem found {a : Action α} {f : α → Action β} {x : α} {r : Except EngineError β}
    (h : Finds s.tables a (.ok x)) (hrest : Runs R (f x) s r s') : Runs R (a >>= f) s r s' :=
  (h.runs hR.store).andThen hrest

theorem announced (n : RunNotification) : Runs R (announce n) s (.ok ()) s := by
  obtain ⟨a, ha⟩ := hR.notify n.toJson.text
  have hpublish : Runs R (Action.publish .notifications n.toJson) s a s := runs_publish.2 ⟨ha, rfl⟩
  exact (runs_attempt.2 ⟨a, hpublish, rfl⟩).andThen (runs_pure.2 ⟨rfl, rfl⟩)

theorem told (time : Instant) : Runs R Action.now s (.ok time) s :=
  runs_now.2 ⟨time, hR.now time, rfl, rfl⟩

theorem written {c : Store.Call} {x : c.Value} {t' : Store.Tables}
    (h : Writes s.tables (Action.store c) x t') :
    Runs R (Action.store c) s (.ok x) { s with tables := t' } := by
  have hrun : Runs R (Action.store c) s (s.tables.answer c).1 (s.afterStore c) :=
    runs_store.2 ⟨rfl, hR.store _ _, rfl⟩
  obtain ⟨hx, hs⟩ := h rfl hrun
  rwa [hx, hs] at hrun

/-- A result that answers the attempt of a running step may be written at any time. -/
theorem applied {x : StepInstance} {m : StepResult} (ht : s.tables.Keyed)
    (hx : s.tables.step? x.uid = some x) (hrunning : x.runStatus = .running)
    (hcount : x.CanCount) (hattempt : ∀ n ∈ m.attempt, n = attemptOf x) (time : Instant) :
    Runs R (applyResult x m) s (.ok (some (answeredStep x m time)))
      { s with tables := s.tables.putStep (answeredStep x m time) } := by
  unfold applyResult
  rw [expectedRunCount_of_attempt hcount hattempt]
  refine (hR.told time).andThen
    ((hR.written (writes_applyStepResult hx hrunning hcount time)).andThen ?_)
  rw [if_pos rfl]
  refine (hR.announced _).andThen ?_
  exact hR.found (finds_answeredStep ht hx time) (runs_pure.2 ⟨rfl, rfl⟩)

/-- What is written at the end of a run may be written at any time. -/
theorem closed {q : WorkflowInstance} {run : Uid} (ht : s.tables.Keyed)
    (hq : s.tables.run? run = some q) (status : RunStatus) (failure : Option Failure)
    (output : Option Json.Object) (time : Instant) :
    Runs R (closing run time failure (finalOutput? status output))
      { s with tables := s.tables.putRun { q with runStatus := status } }
      (.ok (endedRun q status failure output time))
      { s with tables := s.tables.putRun (endedRun q status failure output time) } := by
  have hcall : ∀ c, Feasible R (Action.store c) :=
    fun c s ↦ ⟨_, _, runs_store.2 ⟨rfl, hR.store _ _, rfl⟩⟩
  have hclosing : Feasible R (closing run time failure (finalOutput? status output)) := by
    refine .bind (hcall _) fun _ ↦ .bind ?_ fun _ ↦ .bind ?_ fun _ ↦
      (reads_readRun run).feasible hR.store
    · cases failure with
      | none => exact .pure _
      | some f => exact hcall _
    · cases finalOutput? status output with
      | none => exact .pure _
      | some o => exact hcall _
  obtain ⟨r, s', hrun⟩ :=
    hclosing { s with tables := s.tables.putRun { q with runStatus := status } }
  obtain ⟨rfl, rfl⟩ := writes_closing ht hq status failure output time rfl hrun
  exact hrun

/-- A run that has not come to its end may be ended at any time, and then reports. -/
theorem ended {q : WorkflowInstance} {run : Uid} {status : RunStatus} {failure : Option Failure}
    {output : Option Json.Object} {r : Except EngineError Unit} (ht : s.tables.Keyed)
    (hq : s.tables.run? run = some q) (hgoes : q.runStatus.isTerminal = false) (time : Instant)
    (h : Runs R
      (reportToParent (endedRun q status failure output time) status (failure.map Failure.text)
        ((finalOutput? status output).getD []))
      { s with tables := s.tables.putRun (endedRun q status failure output time) } r s') :
    Runs R (setup.terminate run status failure output) s r s' := by
  have hans := answer_updateRunStatus hq hgoes status
  have hwrites := Writes.store (c := .updateRunStatus run status none) (x := true)
    (congrArg Prod.fst hans) rfl
  rw [hans] at hwrites
  have hstatus : Runs R (updateRunStatus run status) s (.ok true)
      { s with tables := s.tables.putRun { q with runStatus := status } } := by
    refine (hR.written hwrites).andThen ?_
    rw [if_pos rfl]
    exact (hR.announced _).andThen (runs_pure.2 ⟨rfl, rfl⟩)
  rw [terminate_eq]
  refine hstatus.andThen ?_
  rw [if_pos rfl]
  refine (hR.told time).andThen ((hR.closed ht hq status failure output time).andThen ?_)
  cases r with
  | error e => exact runs_bind.2 (.inl ⟨e, h, rfl⟩)
  | ok _ => exact h.andThen (runs_spawn.2 ⟨hR.spawn _, rfl, rfl⟩)

end Lenient

/-- The records are as sound as before when the attempt of a step has been answered. -/
theorem Standing.written {G : Uid → Prop} {x : StepInstance} {m : StepResult}
    (hs : Standing setup G s) (hx : s.tables.step? x.uid = some x)
    (hrunning : x.runStatus = .running)
    (hcount : x.CanCount) (hattempt : ∀ n ∈ m.attempt, n = attemptOf x) (time : Instant) :
    Standing setup G { s with tables := s.tables.putStep (answeredStep x m time) } := by
  have ht : s.tables.Keyed := hs.named.keyed
  exact (hs.applyResult (lenient_noFailure.applied ht hx hrunning hcount hattempt time)).1

/-- **A report does nothing but send something off**, and it does the same in any scene with the
same records. -/
theorem runs_reportToParent {q : WorkflowInstance} {status : RunStatus} {reason : Option String}
    {output : Json.Object} {r : Except EngineError Unit}
    (h : Runs R (reportToParent q status reason output) s r s') :
    ∃ l : List Sending, s' = { s with sent := s.sent ++ l } ∧
      (∀ e, r = .error e → ∀ p ∈ l, p.accepted = false) ∧
      ∀ s₁ : Scene, s₁.tables = s.tables → Lenient R →
        Runs R (reportToParent q status reason output) s₁ r { s₁ with sent := s₁.sent ++ l } := by
  have hstay : ∀ s : Scene, { s with sent := s.sent ++ [] } = s := fun s ↦ by rw [List.append_nil]
  -- Where nothing is sent off the report only reads.
  have hquiet : ∀ {o}, Finds s.tables (reportToParent q status reason output) o →
      ∃ l : List Sending, s' = { s with sent := s.sent ++ l } ∧
        (∀ e, r = .error e → ∀ p ∈ l, p.accepted = false) ∧
        ∀ s₁ : Scene, s₁.tables = s.tables → Lenient R →
          Runs R (reportToParent q status reason output) s₁ r { s₁ with sent := s₁.sent ++ l } := by
    intro o ho
    obtain ⟨rfl, rfl⟩ := ho.of_runs h
    refine ⟨[], (hstay _).symm, fun _ _ _ hp ↦ (nomatch hp), fun s₁ hs₁ hR ↦ ?_⟩
    rw [hstay]
    exact Finds.runs (hs₁ ▸ ho) hR.store
  unfold reportToParent at h hquiet ⊢
  generalize q.parentInstanceUid = parent? at h hquiet ⊢
  generalize q.parentStepInstanceUid = step? at h hquiet ⊢
  rcases parent? with _ | parent
  · exact hquiet (finds_pure.2 rfl)
  rcases step? with _ | step
  · exact hquiet (finds_pure.2 rfl)
  obtain ⟨o, ho⟩ := reads_readStep step s.tables
  cases o with
  | error e => exact hquiet (finds_bind.2 (.inl ⟨e, ho, rfl⟩))
  | ok x =>
    by_cases hwaits : awaits x q = true
    · have hrest := ho.next h
      rw [if_pos hwaits] at hrest
      obtain ⟨hr, hs'⟩ := runs_publish.1 hrest
      refine ⟨_, hs', fun e he p hp ↦ ?_, fun s₁ hs₁ hR ↦ hR.found (hs₁ ▸ ho) ?_⟩
      · rw [List.mem_singleton.1 hp, he]
        rfl
      · rw [if_pos hwaits]
        exact runs_publish.2 ⟨hr, rfl⟩
    · refine hquiet (o := .ok ()) (finds_bind.2 (.inr ⟨x, ho, ?_⟩))
      rw [if_neg hwaits]
      exact finds_pure.2 rfl

/-! ## The case of a step is not read -/

/-- A step, with another case if it is the one that the case is noted of. -/
def withCase (u : Uid) (name : String) (x : StepInstance) : StepInstance :=
  { x with selectedCaseName := if x.uid = u then some name else x.selectedCaseName }

/-- Records are like others but for the case that is noted of one step. -/
structure CaseNoted (u : Uid) (name : String) (t t' : Store.Tables) : Prop where
  runs : t'.runs = t.runs
  steps : t'.steps = t.steps.map (withCase u name)

variable {t t' : Store.Tables} {u : Uid} {name : String}

theorem caseNoted_putStep {n : StepInstance} (ht : t.Keyed) (hn : n ∈ t.steps) (name : String) :
    CaseNoted n.uid name t (t.putStep { n with selectedCaseName := some name }) where
  runs := rfl
  steps := by
    refine List.map_congr_left fun x hx ↦ ?_
    by_cases hu : x.uid = n.uid
    · obtain rfl := ht.eq_of_step hx hn hu
      rw [if_pos rfl, withCase, if_pos rfl]
    · rw [if_neg hu, withCase, if_neg hu]

theorem finds_bind_ok {a : Action α} {f : α → Action β} {y : β} :
    Finds t (a >>= f) (.ok y) ↔ ∃ x, Finds t a (.ok x) ∧ Finds t (f x) (.ok y) := by
  rw [finds_bind]
  exact ⟨fun h ↦ h.resolve_left fun ⟨_, _, h⟩ ↦ (nomatch h), .inr⟩

/-- The steps of a list, with another case if they are the one that the case is noted of. -/
def withCases (u : Uid) (name : String) (steps : NamedSteps) : NamedSteps :=
  steps.map fun entry ↦ (entry.1, withCase u name entry.2)

theorem lookup_withCases (steps : NamedSteps) (key : String) :
    (withCases u name steps).lookup key = (steps.lookup key).map (withCase u name) := by
  induction steps with
  | nil => rfl
  | cons entry rest ih =>
    obtain ⟨k, x⟩ := entry
    by_cases hk : key = k
    · subst hk
      simp [withCases]
    · simpa [withCases, List.lookup_cons, beq_false_of_ne hk] using ih

theorem bindReferences_withCases (steps : NamedSteps) (source : Source) :
    bindReferences (withCases u name steps) source = bindReferences steps source := by
  have hbind : bindReference (withCases u name steps) = bindReference steps := by
    funext r
    unfold bindReference
    rw [lookup_withCases]
    cases steps.lookup r.target.step with
    | none => rfl
    | some x =>
      have hdata : (withCase u name x).data r.target.side = x.data r.target.side := by
        cases r.target.side with
        | input => rfl
        | output => rfl
      show (r.target.resolve ((withCase u name x).data r.target.side)).map _ = _
      rw [hdata]
  rw [bindReferences, bindReferences, hbind]

namespace CaseNoted

variable (h : CaseNoted u name t t')

include h

theorem step? (v : Uid) : t'.step? v = (t.step? v).map (withCase u name) := by
  unfold Store.Tables.step?
  rw [h.steps, List.find?_map]
  rfl

theorem fetchStep {run : Uid} {current : Option StepInstance} {key : String} {x : StepInstance}
    (hx : Finds t (fetchStep run current key) (.ok x)) :
    Finds t' (fetchStep run (current.map (withCase u name)) key) (.ok (withCase u name x)) := by
  unfold Engine.fetchStep at hx ⊢
  by_cases hself : key = "self"
  · rw [if_pos hself] at hx ⊢
    cases current with
    | none => cases finds_throw.1 hx
    | some y =>
      obtain rfl := Except.ok.inj (finds_pure.1 hx)
      exact finds_pure.2 rfl
  · rw [if_neg hself] at hx ⊢
    obtain ⟨found, hfound, hrest⟩ := finds_bind_ok.1 hx
    have hanswer := (finds_store (t := t) (c := .findStep run key) rfl).1 hfound
    refine finds_bind_ok.2 ⟨found.map (withCase u name), (finds_store rfl).2 ?_, ?_⟩
    · obtain rfl := Except.ok.inj hanswer
      show _ = Except.ok (t'.steps.find? _)
      rw [h.steps, List.find?_map]
      rfl
    · cases found with
      | none => cases finds_throw.1 hrest
      | some y =>
        obtain rfl := Except.ok.inj (finds_pure.1 hrest)
        exact finds_pure.2 rfl

theorem fetchSteps {run : Uid} {current : Option StepInstance} {keys : List String}
    {steps found : NamedSteps} (hfound : Finds t (fetchSteps run current keys steps) (.ok found)) :
    Finds t' (fetchSteps run (current.map (withCase u name)) keys (withCases u name steps))
      (.ok (withCases u name found)) := by
  induction keys generalizing steps with
  | nil =>
    obtain rfl := Except.ok.inj (finds_pure.1 hfound)
    exact finds_pure.2 rfl
  | cons key rest ih =>
    unfold Engine.fetchSteps at hfound ⊢
    rw [lookup_withCases, Option.isSome_map]
    by_cases hknown : (steps.lookup key).isSome
    · rw [if_pos hknown] at hfound ⊢
      exact ih hfound
    · rw [if_neg hknown] at hfound ⊢
      obtain ⟨x, hx, hrest⟩ := finds_bind_ok.1 hfound
      refine finds_bind_ok.2 ⟨_, h.fetchStep hx, ?_⟩
      have happend : withCases u name steps ++ [(key, withCase u name x)] =
          withCases u name (steps ++ [(key, x)]) := by simp [withCases]
      rw [happend]
      exact ih hrest

theorem evaluate {run : Uid} {text : String} {current : Option StepInstance} {v : Json}
    (hv : Finds t (evaluate run text current) (.ok v)) :
    Finds t' (evaluate run text (current.map (withCase u name))) (.ok v) := by
  obtain ⟨source, hsource, hrest⟩ := finds_bind_ok.1 hv
  obtain ⟨steps, hsteps, hrest⟩ := finds_bind_ok.1 hrest
  refine finds_bind_ok.2 ⟨source, finds_ofExcept.2 (finds_ofExcept.1 hsource),
    finds_bind_ok.2 ⟨_, h.fetchSteps hsteps, ?_⟩⟩
  obtain ⟨bindings, hbindings, hrest⟩ := finds_bind_ok.1 hrest
  refine finds_bind_ok.2 ⟨bindings, finds_ofExcept.2 ?_, finds_ofExcept.2 (finds_ofExcept.1 hrest)⟩
  rw [bindReferences_withCases]
  exact finds_ofExcept.1 hbindings

theorem evaluateSwitch {x : StepInstance} {text value : String}
    (hv : Finds t (evaluateSwitch x text) (.ok value)) :
    Finds t' (evaluateSwitch (withCase u name x) text) (.ok value) := by
  obtain ⟨v, hv, hrest⟩ := finds_bind_ok.1 hv
  exact finds_bind_ok.2 ⟨v, h.evaluate hv, finds_pure.2 (finds_pure.1 hrest)⟩

theorem evaluateStop {x : StepInstance} {text : String} {stops : Bool}
    (hv : Finds t (evaluateStop x text) (.ok stops)) :
    Finds t' (evaluateStop (withCase u name x) text) (.ok stops) := by
  obtain ⟨source, hsource, hrest⟩ := finds_bind_ok.1 hv
  obtain ⟨steps, hsteps, hrest⟩ := finds_bind_ok.1 hrest
  refine finds_bind_ok.2 ⟨source, finds_ofExcept.2 (finds_ofExcept.1 hsource),
    finds_bind_ok.2 ⟨_, h.fetchSteps hsteps, ?_⟩⟩
  obtain ⟨bindings, hbindings, hrest⟩ := finds_bind_ok.1 hrest
  refine finds_bind_ok.2 ⟨bindings, finds_ofExcept.2 ?_, finds_ofExcept.2 (finds_ofExcept.1 hrest)⟩
  rw [bindReferences_withCases]
  exact finds_ofExcept.1 hbindings

theorem normalize {input found : Json.Object} {run : Uid} {current : Option StepInstance}
    (hv : Finds t (normalize input run current) (.ok found)) :
    Finds t' (normalize input run (current.map (withCase u name))) (.ok found) := by
  obtain ⟨sources, hsources, hrest⟩ := finds_bind_ok.1 hv
  refine finds_bind_ok.2 ⟨sources, finds_ofExcept.2 (finds_ofExcept.1 hsources), ?_⟩
  by_cases hempty : sources.isEmpty
  · rw [if_pos hempty] at hrest ⊢
    exact finds_pure.2 (finds_pure.1 hrest)
  · rw [if_neg hempty] at hrest ⊢
    obtain ⟨steps, hsteps, hrest⟩ := finds_bind_ok.1 hrest
    obtain ⟨values, hvalues, hrest⟩ := finds_bind_ok.1 hrest
    refine finds_bind_ok.2 ⟨_, h.fetchSteps hsteps, finds_bind_ok.2 ⟨values, finds_ofExcept.2 ?_,
      finds_pure.2 (finds_pure.1 hrest)⟩⟩
    have hformula : evaluateFormula (withCases u name steps) = evaluateFormula steps := by
      funext source
      unfold evaluateFormula
      rw [bindReferences_withCases]
    rw [hformula]
    exact finds_ofExcept.1 hvalues

theorem nextStep {x : StepInstance} {next : Option StepInstance}
    (hn : Finds t (nextStep x) (.ok next)) :
    Finds t' (nextStep (withCase u name x)) (.ok (next.map (withCase u name))) := by
  have hlink : (x.nextStepId.bind t.step?).map (withCase u name) =
      (withCase u name x).nextStepId.bind t'.step? := by
    show _ = x.nextStepId.bind t'.step?
    cases x.nextStepId with
    | none => rfl
    | some v => exact (h.step? v).symm
  rcases finds_nextStep hn with ⟨f, text, hshape, hstop, hnext⟩ | ⟨hstop,
    hnext⟩ | ⟨_, _, _, -, -, he⟩
  · obtain rfl := Except.ok.inj hnext
    have hshape' : (withCase u name x).shape = .doWhile f text := hshape
    rw [nextStep_of_loop hshape']
    exact finds_bind_ok.2 ⟨false, h.evaluateStop hstop, finds_pure.2 rfl⟩
  · obtain rfl := Except.ok.inj hnext
    rw [hlink]
    by_cases hloop : ∃ f text, x.shape = .doWhile f text
    · obtain ⟨f, text, hshape⟩ := hloop
      have hshape' : (withCase u name x).shape = .doWhile f text := hshape
      rw [nextStep_of_loop hshape']
      exact finds_bind_ok.2 ⟨true, h.evaluateStop (hstop f text hshape), finds_followLink.2 rfl⟩
    · have hother : ∀ f text, (withCase u name x).shape ≠ .doWhile f text :=
        fun f text hs ↦ hloop ⟨f, text, hs⟩
      rw [nextStep_of_not_loop hother]
      exact finds_followLink.2 rfl
  · cases he

end CaseNoted

end Engine

end Orchestration
