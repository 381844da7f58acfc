import Orchestration.Proofs.Announcements
import Orchestration.Proofs.Barring
import Orchestration.Proofs.Recording
import Orchestration.Proofs.Watching

/-!
# Functions that are seen to be deployed

Work is handed over long after a run has looked its functions up: at the next step, in a repetition,
or in another turn of a loop, and nobody looks again whether the function is deployed. So whoever
hands work over has to trust what was looked up before. A run comes to call functions in three ways.
All of them are found to be deployed when it is prepared; a watch goes on looking until it has seen
all that were not, and then tells the run; or the run begins with another run, and then nobody has
looked at all.

What has been seen is carried along a history (`Attended`): of a run that has begun, of a watch that
has been started or has gone to sleep, and of an outcome that has been published. Each operation
keeps it up (`Attended.more`), since it launches steps only where it is clear to go
(`Conducted.cleared`).

The other way round, a start is barred if a function is found that nobody may deploy
(`barred_of_startNested`).
-/

namespace Orchestration

namespace Engine

variable {R : Rule} {setup : Setup} {o : Operation} {s₀ s s' : Scene} {log l : List Moment}
  {past earlier : List Done} {d : Done} {u f : Uid} {phase : Phase}

/-! ## Runs with their steps -/

/-- The runs that have been made are known, and all their steps that are recorded are those that
they were made with. -/
def Whole (s : Scene) : Prop :=
  ∀ e ∈ s.made, e.1.uid ∈ s.issued ∧
    ∀ y ∈ s.tables.steps, y.workflowInstanceUid = e.1.uid → ∃ x ∈ e.2, SameStep x y

/-- A run that has been made after a call was made before, or is the one that the call has put
in. -/
theorem mem_made_after {c : Call} {a : c.Answer} {e : WorkflowInstance × List StepInstance}
    (he : e ∈ (s.after c a).made) : e ∈ s.made ∨ c = .store (.insertRun e.1 e.2) := by
  cases c with
  | store c =>
    rcases List.mem_append.1 he with he | he
    · exact .inl he
    · cases c with
      | insertRun => exact .inr (List.mem_singleton.1 he ▸ rfl)
      | _ => exact nomatch he
  | publish channel payload =>
    have he : e ∈ (s.publish channel payload _).made := he
    unfold Scene.publish at he
    split at he
    · exact .inl he
    · exact .inl he
  | _ => exact .inl he

/-- A step that is found after a call was there before, or the call has put it in. -/
theorem StepAfter.found_or_made {m : Moment} {y : StepInstance} (h : StepAfter m y) :
    (∃ x ∈ m.scene.tables.steps, SameStep x y) ∨
      ∃ new steps, m.call = .store (.insertRun new steps) ∧ y ∈ steps := by
  cases h with
  | kept x hx hsame => exact .inl ⟨x, hx, hsame⟩
  | written x hx hsame => exact .inl ⟨x, (Store.Tables.mem_of_step? hx).1, hsame⟩
  | made new steps hcall hy => exact .inr ⟨new, steps, hcall, hy⟩

/-- **An operation makes runs whole**, each under an identifier that no other run has had. -/
theorem Conducted.whole (h : Conducted setup o s₀ log s) (hs : Grounded s₀) (h₀ : Whole s₀) :
    ∀ e ∈ s.made, (e.1.uid ∈ s₀.issued ∨ e.1.uid ∈ usedIn s.tables) ∧
      ∀ y ∈ s.tables.steps, y.workflowInstanceUid = e.1.uid → ∃ x ∈ e.2, SameStep x y := by
  induction h with
  | begin => exact fun e he ↦ ⟨.inl (h₀ e he).1, (h₀ e he).2⟩
  | @call log s c a before admitted proper ih =>
    have hground := before.grounded hs
    have hgrows := (proper.after hground a).2
    intro e he
    rcases mem_made_after he with hold | hcall
    · obtain ⟨hknown, hsteps⟩ := ih e hold
      refine ⟨hknown.imp_right (@usedIn_mono _ _ hgrows _), fun y hy hrun ↦ ?_⟩
      rcases (step_after hground.keyed admitted hy).found_or_made
        with ⟨x, hx, hsame⟩ | ⟨new, steps, hcall, hmem⟩
      · obtain ⟨x₀, hx₀, hsame₀⟩ := hsteps x hx (hsame.run.symm.trans hrun)
        exact ⟨x₀, hx₀, hsame₀.trans hsame⟩
      · -- The identifier of a new run is no other run's.
        obtain rfl : c = _ := hcall
        have hfounds : Founds o s₀ s new steps := proper.mayAsk
        have hu : new.uid = e.1.uid := (hfounds.own y hmem).symm.trans hrun
        rcases hknown with hknown | hknown
        · exact absurd (hu ▸ hknown) hfounds.uid.fresh
        · exact absurd (hu ▸ hknown) hfounds.uid.unused
    · subst hcall
      have hfounds : Founds o s₀ s e.1 e.2 := proper.mayAsk
      refine ⟨.inr ?_, fun y hy hrun ↦ ?_⟩
      · have htables : (s.afterStore (.insertRun e.1 e.2)).tables = withRun s.tables e.1 e.2 :=
          congrArg Prod.snd hfounds.answer
        show e.1.uid ∈ usedIn (s.afterStore (.insertRun e.1 e.2)).tables
        rw [htables]
        exact List.mem_append_left _ (List.mem_map_of_mem (List.mem_append_right _
          (List.mem_singleton_self _)))
      rcases (step_after hground.keyed admitted hy).found_or_made
        with ⟨x, hx, hsame⟩ | ⟨new, steps, hcall, hmem⟩
      · obtain ⟨q, hq, hqu⟩ := hground.keyed.owned x hx
        exact absurd (hqu.trans (hsame.run.symm.trans hrun)) (hfounds.uid.ne_run q hq)
      · obtain ⟨rfl, rfl⟩ := Store.Call.insertRun.inj (Call.store.inj hcall)
        exact ⟨y, hmem, rfl, rfl, rfl, rfl, rfl⟩

theorem Conducted.proper_at {before after : List Moment} {m : Moment}
    (h : Conducted setup o s₀ log s) (hlog : log = before ++ m :: after) :
    Conducted setup o s₀ before m.scene ∧ Proper setup o s₀ before m.scene m.call := by
  induction h generalizing after with
  | begin => simp at hlog
  | @call log s c a hbefore admitted proper ih =>
    rcases List.eq_nil_or_concat after with rfl | ⟨init, last, rfl⟩
    · obtain ⟨rfl, hm⟩ := List.append_inj' hlog rfl
      obtain rfl := (List.cons.inj hm).1
      exact ⟨hbefore, proper⟩
    · rw [List.concat_eq_append, ← List.cons_append, ← List.append_assoc] at hlog
      exact ih (List.append_inj' hlog rfl).1

/-! ## What has been seen -/

/-- Whether an operation is a phase of the watch of a run. -/
def Operation.watches (u : Uid) : Operation → Prop
  | .watch v .. => v = u
  | _ => False

/-- A lookup that was made for a run, to prepare it or by its watch, has answered that a function is
deployed. It was made in one of the operations before, or in this one so far. -/
inductive SeenFor (earlier : List Done) (log : List Moment) (u f : Uid) : Prop where
  | here (m : Moment) (hm : Prepares log u m) (h : m.seesDeployed f = true)
  | before (d : Done) (hd : d ∈ earlier) (m : Moment) (hm : Prepares d.log u m)
      (h : m.seesDeployed f = true)
  | watched (d : Done) (hd : d ∈ earlier) (ho : d.operation.watches u) (h : SeesDeployed d.log f)

namespace SeenFor

theorem of_nil (h : SeenFor earlier [] u f) (log : List Moment) : SeenFor earlier log u f := by
  cases h with
  | here m hm =>
    obtain ⟨before, m₁, m₂, time, row, after, hnil, -⟩ := hm
    exact absurd hnil (by simp)
  | before d hd m hm h => exact .before d hd m hm h
  | watched d hd ho h => exact .watched d hd ho h

theorem done (h : SeenFor past d.log u f) : SeenFor (past ++ [d]) [] u f := by
  cases h with
  | here m hm h => exact .before d (List.mem_append_right _ (List.mem_singleton_self d)) m hm h
  | before d hd m hm h => exact .before d (List.mem_append_left _ hd) m hm h
  | watched d hd ho h => exact .watched d (List.mem_append_left _ hd) ho h

theorem more (h : SeenFor past [] u f) (d : Done) : SeenFor (past ++ [d]) [] u f :=
  (h.of_nil d.log).done

end SeenFor

/-- The functions of a run that does not begin with another one have been seen to be deployed. -/
def Checked (earlier : List Done) (log : List Moment) (s : Scene) (u : Uid) : Prop :=
  ∃ e ∈ s.made, e.1.uid = u ∧
    (BeginsBelow e ∨ ∀ x ∈ e.2, ∀ f ∈ x.shape.functionRefs, SeenFor earlier log u f)

/-- What a watch that begins a phase does not wait for has been seen to be deployed. -/
structure SeenUpTo (earlier : List Done) (s : Scene) (u : Uid) (phase : Phase) : Prop where
  isOf : phase.isOf u
  seen : ∃ e ∈ s.made, e.1.uid = u ∧
    ∀ x ∈ e.2, ∀ f ∈ x.shape.functionRefs, SeenFor earlier [] u f ∨ phase.awaits f

theorem Checked.done (h : Checked past d.log s u) (hmade : s.made ⊆ s'.made) :
    Checked (past ++ [d]) [] s' u := by
  obtain ⟨e, he, hu, hseen⟩ := h
  exact ⟨e, hmade he, hu, hseen.imp_right fun hseen x hx f hf ↦ (hseen x hx f hf).done⟩

theorem Checked.more (h : Checked past [] s u) (d : Done) (hmade : s.made ⊆ s'.made) :
    Checked (past ++ [d]) [] s' u := by
  obtain ⟨e, he, hu, hseen⟩ := h
  exact ⟨e, hmade he, hu, hseen.imp_right fun hseen x hx f hf ↦ (hseen x hx f hf).more d⟩

theorem SeenUpTo.more (h : SeenUpTo past s u phase) (d : Done) (hmade : s.made ⊆ s'.made) :
    SeenUpTo (past ++ [d]) s' u phase := by
  obtain ⟨e, he, hu, hseen⟩ := h.seen
  exact ⟨h.isOf, e, hmade he, hu, fun x hx f hf ↦ (hseen x hx f hf).imp_left
    fun hseen ↦ hseen.more d⟩

/-! ## Histories in which watches are kept -/

/-- An operation is a phase of the watch of a run, and goes to sleep until another phase. -/
def Done.SleepsUntil (setup : Setup) (u : Uid) (phase : Phase) (d : Done) : Prop :=
  ∃ time before, d.operation = .watch u time before ∧ ∃ R s s' wake,
    Logs R (setup.watch u time before) s d.log (.ok (.sleep wake phase)) s'

/-- Only what has been started is watched, each phase of a watch is one that a phase before it has
gone to sleep for, and no run is told that its functions are ready but by what has been
published. -/
structure Watched (setup : Setup) (past : List Done) : Prop where
  phases : ∀ earlier d later, past = earlier ++ d :: later → ∀ u time phase,
    d.operation = .watch u time phase →
      (∃ functions, phase = .begin functions ∧
        ∃ m ∈ logOf earlier, m.call = .spawn (.watch u functions)) ∨
      ∃ w ∈ earlier, w.SleepsUntil setup u phase
  outcomes : ∀ earlier d later, past = earlier ++ d :: later → ∀ outcome : DeploymentOutcome,
    d.operation = .outcome outcome → outcome.ready = true →
      ∃ m ∈ logOf earlier, m.published? .deployments = some outcome.toJson.text

theorem Watched.of_append {later : List Done} (h : Watched setup (past ++ later)) :
    Watched setup past := by
  refine ⟨fun earlier d rest hpast ↦ ?_, fun earlier d rest hpast ↦ ?_⟩
  · exact h.phases earlier d (rest ++ later) (by rw [hpast, List.append_assoc, List.cons_append])
  · exact h.outcomes earlier d (rest ++ later) (by rw [hpast, List.append_assoc, List.cons_append])

/-- What has been seen for the runs of a scene, by the operations that have led to it. -/
structure Attended (setup : Setup) (past : List Done) (s : Scene) : Prop where
  whole : Whole s
  begun : ∀ u, RunBegun s.tables u → Checked past [] s u
  started : ∀ m ∈ logOf past, ∀ u functions, m.call = .spawn (.watch u functions) →
    SeenUpTo past s u (.begin functions)
  asleep : ∀ w ∈ past, ∀ u phase, w.SleepsUntil setup u phase → SeenUpTo past s u phase
  told : ∀ m ∈ logOf past, ∀ outcome : DeploymentOutcome,
    m.published? .deployments = some outcome.toJson.text → outcome.ready = true →
      Checked past [] s outcome.workflowInstanceId

theorem Attended.seenUpTo (h : Attended setup past s) (hwatched : Watched setup (past ++ [d]))
    {time : Nat} (ho : d.operation = .watch u time phase) : SeenUpTo past s u phase := by
  rcases hwatched.phases past d [] rfl u time phase ho
    with ⟨functions, rfl, m, hm, hcall⟩ | ⟨w, hw, hsleeps⟩
  · exact h.started m hm u functions hcall
  · exact h.asleep w hw u phase hsleeps

/-- **Where a run is clear to go, its functions have been seen to be deployed.** -/
theorem Cleared.checked (h : Attended setup past s) (hwatched : Watched setup (past ++ [d]))
    (hmade : s.made ⊆ s'.made) (hclear : Cleared d.operation s log s' u) :
    Checked past log s' u := by
  have hbefore : Checked past [] s u → Checked past log s' u := by
    rintro ⟨e, he, hu, hseen⟩
    exact ⟨e, hmade he, hu, hseen.imp_right fun hseen x hx f hf ↦ (hseen x hx f hf).of_nil log⟩
  cases hclear with
  | begun hu => exact hbefore (h.begun u hu)
  | told outcome ho hready hrun =>
    obtain ⟨m, hm, hpublished⟩ := hwatched.outcomes past d [] rfl outcome ho hready
    exact hbefore (hrun ▸ h.told m hm outcome hpublished hready)
  | nested e x he hu hx hfirst hshape => exact ⟨e, he, hu, .inl ⟨x, hx, hfirst, hshape⟩⟩
  | prepared e he hu hseen =>
    refine ⟨e, he, hu, .inr fun x hx f hf ↦ ?_⟩
    obtain ⟨m, hm, hdeployed⟩ := hseen x hx f hf
    exact .here m hm hdeployed

/-! ## One more operation -/

theorem Prepares.mem {m : Moment} (h : Prepares log u m) : m ∈ log := by
  obtain ⟨before, m₁, m₂, time, row, after, rfl, -, -, -, hm⟩ := h
  simp [hm]

/-- A lookup of a function answers with the function, if the catalog does. -/
theorem uid_of_finds (hcatalog : ∀ f info, R (.getFunction f) (.ok info) → info.uid = f)
    {m : Moment} (hm : R m.call m.answer) {info : FunctionInfo} (h : m.finds? f = some info) :
    info.uid = f := by
  obtain ⟨t, c, a⟩ := m
  cases c with
  | getFunction g =>
    cases a with
    | error => cases h
    | ok found =>
      obtain ⟨rfl, hinfo⟩ := Option.ite_none_right_eq_some.1 h
      obtain rfl := Option.some.inj hinfo
      exact hcatalog g found hm
  | _ => cases h

theorem Conducted.mayCall_at {before after : List Moment} {m : Moment}
    (h : Conducted setup o s₀ log s) (hlog : log = before ++ m :: after)
    (hm : ∀ payload, m.call ≠ .publish .notifications payload) :
    MayCall setup o s₀ before m.scene m.call := by
  have hproper := (h.proper_at hlog).2
  cases hdue : due before with
  | some n => exact absurd ((proper_of_due hdue).1 hproper) (hm _)
  | none => exact (proper_of_none hdue).1 hproper

theorem MayWatch.seenUpTo (hcatalog : ∀ f info, R (.getFunction f) (.ok info) → info.uid = f)
    {before after : List Moment} {functions : List Uid} (hlog : d.log = before ++ after)
    (hobeys : ∀ m ∈ d.log, R m.call m.answer) (hmade : s.made ⊆ s'.made)
    (h : MayWatch before s u functions) : SeenUpTo (past ++ [d]) s' u (.begin functions) := by
  obtain ⟨e, he, hu, hseen⟩ := h
  refine ⟨trivial, e, hmade he, hu, fun x hx f hf ↦ ?_⟩
  obtain ⟨m, hm, info, hinfo, hdeployed | hfunction⟩ := hseen x hx f hf
  · refine .inl (SeenFor.done (.here m (hlog ▸ hm.append after) ?_))
    rw [Moment.seesDeployed, hinfo]
    exact hdeployed
  · have hmem : m ∈ d.log := hlog ▸ List.mem_append_left _ hm.mem
    rw [uid_of_finds hcatalog (hobeys m hmem) hinfo] at hfunction
    exact .inr hfunction

/-- What a phase of a watch has not seen it goes on waiting for, or whatever else it does about
it. -/
theorem SeenUpTo.tend (h : SeenUpTo past s u phase) (hd : d.operation.watches u) {P : Uid → Prop}
    (htends : ∀ f, phase.awaits f → P f ∨ SeesDeployed d.log f) (hmade : s.made ⊆ s'.made) :
    ∃ e ∈ s'.made, e.1.uid = u ∧
      ∀ x ∈ e.2, ∀ f ∈ x.shape.functionRefs, SeenFor (past ++ [d]) [] u f ∨ P f := by
  obtain ⟨e, he, hu, hseen⟩ := h.seen
  refine ⟨e, hmade he, hu, fun x hx f hf ↦ ?_⟩
  rcases hseen x hx f hf with hseen | hawaits
  · exact .inl (hseen.more d)
  · refine (htends f hawaits).symm.imp_left fun hsees ↦ ?_
    exact .watched d (List.mem_append_right _ (List.mem_singleton_self d)) hd hsees

private theorem Attended.leftOf (h : Attended setup past s) (hleft : LeftOf s s')
    (hsweep : ∀ m ∈ d.log, m.call.isOfSweep = true)
    (ho : ∃ keepDays maxCount, d.operation = .sweep keepDays maxCount) :
    Attended setup (past ++ [d]) s' := by
  have hmade : s.made ⊆ s'.made := hleft.made ▸ List.Subset.refl _
  have hlog : ∀ m ∈ logOf (past ++ [d]), m ∈ logOf past ∨ m.call.isOfSweep = true := by
    intro m hm
    rw [logOf_concat] at hm
    exact (List.mem_append.1 hm).imp_right (hsweep m)
  constructor
  · intro e he
    obtain ⟨hissued, hsteps⟩ := h.whole e (hleft.made ▸ he)
    exact ⟨hleft.issued ▸ hissued, fun y hy ↦ hsteps y (hleft.steps hy)⟩
  · rintro u (⟨q, hq, hu⟩ | ⟨x, hx, hu⟩)
    · exact (h.begun u (.inl ⟨q, hleft.runs hq, hu⟩)).more d hmade
    · exact (h.begun u (.inr ⟨x, hleft.steps hx, hu⟩)).more d hmade
  · intro m hm u functions hcall
    rcases hlog m hm with hm | hm
    · exact (h.started m hm u functions hcall).more d hmade
    · rw [hcall] at hm
      cases hm
  · intro w hw u phase hsleeps
    rcases List.mem_append.1 hw with hw | hw
    · exact (h.asleep w hw u phase hsleeps).more d hmade
    · obtain rfl := List.mem_singleton.1 hw
      obtain ⟨keepDays, maxCount, ho⟩ := ho
      obtain ⟨time, before, hwatch, -⟩ := hsleeps
      cases ho.symm.trans hwatch
  · intro m hm outcome hpublished hready
    rcases hlog m hm with hm | hm
    · exact (h.told m hm outcome hpublished hready).more d hmade
    · rw [Moment.call_of_offered (Moment.offered?_of_published hpublished)] at hm
      cases hm

theorem logs_watch_of_action {time : Nat} {r : Except EngineError Unit}
    (h : Logs R (Operation.action setup (.watch u time phase)) s l r s') :
    ∃ next, Logs R (setup.watch u time phase) s l next s' := by
  rcases logs_bind.1 h with ⟨e, h, -⟩ | ⟨l₁, l₂, next, s₁, rfl, h, hrest⟩
  · exact ⟨_, h⟩
  · obtain ⟨rfl, -, rfl⟩ := logs_pure.1 hrest
    rw [List.append_nil]
    exact ⟨_, h⟩

/-- **One more operation sees what it has to.** -/
theorem Attended.more (hcatalog : ∀ f info, R (.getFunction f) (.ok info) → info.uid = f)
    (h : Attended setup past s) (hs : Grounded s) (hwatched : Watched setup (past ++ [d]))
    (hlogs : Logs R (d.operation.action setup) s d.log d.outcome s') :
    Attended setup (past ++ [d]) s' := by
  by_cases hsweep : ∃ keepDays maxCount, d.operation = .sweep keepDays maxCount
  · obtain ⟨keepDays, maxCount, ho⟩ := hsweep
    have hlogs' := hlogs
    rw [ho] at hlogs'
    exact h.leftOf (logs_sweep hlogs').1 (logs_sweep hlogs').2 ⟨keepDays, maxCount, ho⟩
  have hrest :=
    conducted_of_logs hs (fun keepDays maxCount ho ↦ hsweep ⟨keepDays, maxCount, ho⟩) hlogs
  have hgrows := hrest.conducted.grows hs
  have hlater : ∀ m ∈ d.log, m.scene.made ⊆ s'.made := hlogs.made_subset
  constructor
  · intro e he
    obtain ⟨hknown, hsteps⟩ := hrest.conducted.whole hs h.whole e he
    exact ⟨hknown.elim (@hgrows.issued _) (@usedIn_subset _ hrest.grounded _), hsteps⟩
  · exact fun u hu ↦ ((hrest.conducted.cleared hs hu).checked h hwatched hgrows.made).done
      (List.Subset.refl _)
  · intro m hm u functions hcall
    rw [logOf_concat] at hm
    rcases List.mem_append.1 hm with hm | hm
    · exact (h.started m hm u functions hcall).more d hgrows.made
    obtain ⟨before, after, hlog⟩ := List.append_of_mem hm
    have hmay := hrest.conducted.mayCall_at hlog (by rw [hcall]; nofun)
    rw [hcall] at hmay
    exact hmay.2.seenUpTo hcatalog hlog hlogs.obeys (hlater m hm)
  · intro w hw u phase hsleeps
    rcases List.mem_append.1 hw with hw | hw
    · exact (h.asleep w hw u phase hsleeps).more d hgrows.made
    obtain rfl := List.mem_singleton.1 hw
    obtain ⟨time, before, ho, R', s₁, s₂, wake, hphase⟩ := hsleeps
    have hseenUpTo := h.seenUpTo hwatched ho
    obtain ⟨hisOf, hnext⟩ :=
      (tends_watch hseenUpTo.isOf (hphase.amid (N := Eq))).next wake phase rfl
    exact ⟨hisOf, hseenUpTo.tend (ho ▸ rfl) hnext hgrows.made⟩
  · intro m hm outcome hpublished hready
    rw [logOf_concat] at hm
    rcases List.mem_append.1 hm with hm | hm
    · exact (h.told m hm outcome hpublished hready).more d hgrows.made
    have hoffered := Moment.offered?_of_published hpublished
    have hcall := Moment.call_of_offered hoffered
    obtain ⟨before, after, hlog⟩ := List.append_of_mem hm
    have hmay := hrest.conducted.mayCall_at hlog (by rw [hcall]; nofun)
    rw [hcall] at hmay
    obtain ⟨u, time, phase, ho⟩ := hmay
    have hseenUpTo := h.seenUpTo hwatched ho
    have hlogs' := hlogs
    rw [ho] at hlogs'
    obtain ⟨next, hphase⟩ := logs_watch_of_action hlogs'
    obtain ⟨rfl, hsees⟩ :=
      (tends_watch hseenUpTo.isOf (hphase.amid (N := Eq))).tells before m after
        hlog outcome hoffered
    obtain ⟨e, he, hu, hseen⟩ := hseenUpTo.tend (ho ▸ rfl) (P := fun _ ↦ False)
      (fun f hf ↦ .inr (hlog ▸ (hsees hready f hf).append_right (m :: after))) hgrows.made
    exact ⟨e, he, hu, .inr fun x hx f hf ↦ (hseen x hx f hf).resolve_right id⟩

theorem History.attended (hcatalog : ∀ f info, R (.getFunction f) (.ok info) → info.uid = f)
    (h : History setup R past s) (hwatched : Watched setup past) : Attended setup past s := by
  induction h with
  | empty =>
    refine ⟨fun e he ↦ (nomatch he), ?_, fun m hm ↦ (nomatch hm), fun w hw ↦ (nomatch hw),
      fun m hm ↦ nomatch hm⟩
    rintro u (⟨q, hq, -⟩ | ⟨x, hx, -⟩)
    · cases hq
    · cases hx
  | more d before hlogs _ ih =>
    exact (ih hwatched.of_append).more hcatalog (before.sound (guiding_nobody R)).standing.grounded
      hwatched hlogs

/-! ## Handing over -/

/-- A call hands the work of a step over to a function that the step names and that has been looked
up. -/
structure HandedOver (setup : Setup) (before : List Moment) (m : Moment)
    (x : StepInstance) (f : Uid) : Prop where
  step : x ∈ m.scene.tables.steps
  names : f ∈ x.shape.functionRefs
  call : ∃ input info, (∃ m' ∈ before, m'.finds? f = some info) ∧
    (m.call = .publish .work (workRequest x input info).toJson.text ∨
      ∃ address, info.serviceUrl = some address ∧
        m.call = .post address (setup.pushRequest x input).toJson.text)

theorem Call.handsOver_of_isOfSweep {c : Call} (h : c.isOfSweep = true) : c.handsOver = false := by
  cases c with
  | store | now => rfl
  | _ => cases h

/-- Whatever is handed over is the work of a running step, for a function that the step names. -/
theorem Conducted.handsOver_at {before after : List Moment} {m : Moment}
    (h : Conducted setup o s₀ log s) (hlog : log = before ++ m :: after)
    (hm : m.call.handsOver = true) :
    ∃ x f, HandedOver setup before m x f ∧ x.runStatus = .running := by
  obtain ⟨t, c, a⟩ := m
  have hmay := h.mayCall_at hlog fun payload hcall ↦ by
    subst hcall
    cases hm
  cases c with
  | publish channel payload =>
    cases channel with
    | work =>
      obtain ⟨-, x, input, f, info, hover, rfl⟩ := hmay
      exact ⟨x, f, ⟨hover.step, hover.names, input, info, hover.found, .inl rfl⟩, hover.running⟩
    | results | deployments | notifications => cases hm
  | post address body =>
    obtain ⟨-, x, input, f, info, hover, hurl, rfl⟩ := hmay
    exact ⟨x, f, ⟨hover.step, hover.names, input, info, hover.found, .inr ⟨address, hurl, rfl⟩⟩,
      hover.running⟩
  | _ => cases hm

/-- **Work is handed over to functions that have been seen to be deployed.** Let the catalog answer
with the functions that it is asked for, and let watches be kept as they are started. Then whatever
any operation hands over is the work of a step, for a function that the step names and that a lookup
made for the run of the step, to prepare it or by its watch, has found to be deployed before; unless
the run begins with another run.

And a start that finds a function which nobody may deploy, and whose other lookups are answered,
hands nothing over and ends its run with a terminal error; unless again the run begins with another
run. -/
theorem handedOver_to_seen (hcatalog : ∀ f info, R (.getFunction f) (.ok info) → info.uid = f)
    (h : History setup R past s) (hwatched : Watched setup past) :
    (∀ earlier d later, past = earlier ++ d :: later →
      ∀ before m after, d.log = before ++ m :: after → m.call.handsOver = true →
        ∃ x f, HandedOver setup before m x f ∧
          ((∃ e ∈ m.scene.made, e.1.uid = x.workflowInstanceUid ∧ BeginsBelow e) ∨
            SeenFor earlier before x.workflowInstanceUid f)) ∧
      ∀ depth workflow input parent parentStep t l r t', Grounded t →
        Logs R (setup.startNested depth workflow input parent parentStep) t l r t' →
          ∀ e others, t'.made = t.made ++ e :: others → ¬BeginsBelow e →
            ∀ x ∈ e.2, ∀ f ∈ x.shape.functionRefs, Undeployable l f → Barred e.1.uid l t' := by
  constructor
  · rintro earlier d later rfl before m after hlog hm
    obtain ⟨s₁, s₂, hearlier, hlogs, -⟩ := h.cut
    rw [List.append_cons] at hwatched
    have hwatched₁ : Watched setup (earlier ++ [d]) := hwatched.of_append
    have hground := (hearlier.sound (guiding_nobody R)).standing.grounded
    have hattended := hearlier.attended hcatalog hwatched₁.of_append
    have hnosweep : ∀ keepDays maxCount, d.operation ≠ .sweep keepDays maxCount := by
      intro keepDays maxCount ho
      rw [ho] at hlogs
      have hsweep := (logs_sweep hlogs).2 m (hlog ▸ List.mem_append_right _ List.mem_cons_self)
      exact absurd hm (Bool.eq_false_iff.1 (Call.handsOver_of_isOfSweep hsweep))
    have hrest := conducted_of_logs hground hnosweep hlogs
    obtain ⟨x, f, hover, hrunning⟩ := hrest.conducted.handsOver_at hlog hm
    have hbefore := (hrest.conducted.proper_at hlog).1
    have hbegun : RunBegun m.scene.tables x.workflowInstanceUid :=
      .inr ⟨x, hover.step, rfl, by rw [hrunning]; decide⟩
    obtain ⟨e, he, hu, hseen⟩ := (hbefore.cleared hground hbegun).checked hattended hwatched₁
      (hbefore.grows hground).made
    refine ⟨x, f, hover, hseen.imp (fun hbegins ↦ ⟨e, he, hu, hbegins⟩) fun hseen ↦ ?_⟩
    -- The step is one of those that the run was made with.
    obtain ⟨x₀, hx₀, hsame⟩ := (hbefore.whole hground hattended.whole e he).2 x hover.step hu.symm
    exact hseen x₀ hx₀ f (hsame.shape ▸ hover.names)
  · intro depth workflow input parent parentStep t l r t' hground hlogs e others hmade
      hbegins x hx f hf hl
    exact barred_of_startNested hground hlogs hmade hbegins hx hf hl

/-! ## Histories of single looks -/

def Call.startsWatch (u : Uid) (functions : List Uid) : Call → Bool
  | .spawn (.watch v watched) => v = u && watched = functions
  | _ => false

theorem Call.eq_of_startsWatch {functions : List Uid} {c : Call}
    (h : c.startsWatch u functions = true) : c = .spawn (.watch u functions) := by
  cases c with
  | spawn task =>
    cases task with
    | watch v watched =>
      obtain ⟨rfl, rfl⟩ : v = u ∧ watched = functions := by simpa [Call.startsWatch] using h
      rfl
    | sweep => cases h
  | _ => cases h

/-- Whether an operation may follow others, all of whose watches are done with their first look. -/
def Done.mayFollow (earlier : List Done) (d : Done) : Bool :=
  match d.operation with
  | .watch u _ (.begin functions) => (logOf earlier).any (·.call.startsWatch u functions)
  | .watch .. => false
  | .outcome m =>
    !m.ready || (logOf earlier).any fun e ↦ e.published? .deployments = some m.toJson.text
  | _ => true

theorem Watched.of_mayFollow
    (h : ∀ i, (hi : i < past.length) → past[i].mayFollow (past.take i) = true) :
    Watched setup past := by
  have hall : ∀ earlier d later, past = earlier ++ d :: later → d.mayFollow earlier = true := by
    rintro earlier d later rfl
    simpa using h earlier.length (by simp)
  constructor
  · intro earlier d later hpast u time phase ho
    have hmay := hall earlier d later hpast
    unfold Done.mayFollow at hmay
    rw [ho] at hmay
    cases phase with
    | begin functions =>
      obtain ⟨m, hm, hstarts⟩ := List.any_eq_true.1 hmay
      exact .inl ⟨functions, rfl, m, hm, Call.eq_of_startsWatch hstarts⟩
    | wait | report => cases hmay
  · intro earlier d later hpast outcome ho hready
    have hmay := hall earlier d later hpast
    unfold Done.mayFollow at hmay
    rw [ho] at hmay
    dsimp only at hmay
    rw [hready] at hmay
    obtain ⟨m, hm, htext⟩ := List.any_eq_true.1 hmay
    exact ⟨m, hm, of_decide_eq_true htext⟩

/-- The catalog answers with the functions that it is asked for. -/
def namesAsked : Rule
  | .getFunction f, a => ∀ info, a = .ok info → info.uid = f
  | _, _ => True

/-- Catalogs that know some functions, and a workflow with those that it starts. -/
def Collaborators.knowing (functions : List FunctionInfo) (w : WorkflowDefinition)
    (children : List WorkflowDefinition) : Collaborators :=
  { function := fun f ↦ (functions.find? (·.uid = f)).elim (.error (.functionNotFound f)) .ok
    deploy := fun _ ↦ .ok ()
    workflow := fun u ↦ .ok ((children.find? (·.uid = u)).getD w)
    stepList := fun _ ↦ .ok [] }

theorem Collaborators.namesAsked_of_knowing {functions : List FunctionInfo} {w : WorkflowDefinition}
    {children : List WorkflowDefinition} {c : Call} {a : c.Answer}
    (h : (knowing functions w children).rule c a) : namesAsked c a := by
  cases c with
  | getFunction f =>
    intro info hinfo
    have h : a = (functions.find? (·.uid = f)).elim (.error (.functionNotFound f)) .ok := h
    cases hfind : functions.find? (·.uid = f) with
    | none =>
      rw [hfind, hinfo] at h
      cases h
    | some found =>
      rw [hfind, hinfo] at h
      obtain rfl := Except.ok.inj h
      simpa using List.find?_some hfind
  | _ => trivial

/-- A run of `callThenLoop` waits for its function. A look shows that it is deployed, and the run is
told so. -/
def watchedRun : List Done × Scene :=
  (recordAll queueSetup [(.knowing [lazyFunction] callThenLoop [], .start (.ofNat 1) [] none none),
    (.knowing [deployedFunction] callThenLoop [], .watch (World.nthUid 0) 0 (.begin [.ofNat 9])),
    (.knowing [deployedFunction] callThenLoop [], .outcome
      { workflowInstanceId := World.nthUid 0, ready := true })] [] {}).get (by decide +kernel)

theorem handedOver_to_seen_of_watched :
    ((∀ f info, namesAsked (.getFunction f) (.ok info) → info.uid = f) ∧
      History queueSetup namesAsked watchedRun.1 watchedRun.2 ∧ Watched queueSetup watchedRun.1) ∧
    (watchedRun.1.map fun d ↦ d.log.any (·.call.handsOver)) = [false, false, true] ∧
    ((∀ earlier d later, watchedRun.1 = earlier ++ d :: later →
      ∀ before m after, d.log = before ++ m :: after → m.call.handsOver = true →
        ∃ x f, HandedOver queueSetup before m x f ∧
          ((∃ e ∈ m.scene.made, e.1.uid = x.workflowInstanceUid ∧ BeginsBelow e) ∨
            SeenFor earlier before x.workflowInstanceUid f)) ∧
      ∀ depth workflow input parent parentStep t l r t', Grounded t →
        Logs namesAsked (queueSetup.startNested depth workflow input parent parentStep) t l r t' →
          ∀ e others, t'.made = t.made ++ e :: others → ¬BeginsBelow e →
            ∀ x ∈ e.2, ∀ f ∈ x.shape.functionRefs, Undeployable l f → Barred e.1.uid l t') := by
  have hcatalog : ∀ f info, namesAsked (.getFunction f) (.ok info) → info.uid = f :=
    fun _ info h ↦ h info rfl
  have hhistory : History queueSetup namesAsked watchedRun.1 watchedRun.2 := by
    refine history_get (fun e he c a h ↦ ?_) _
    simp only [List.mem_cons, List.not_mem_nil, or_false] at he
    rcases he with rfl | rfl | rfl
    all_goals exact Collaborators.namesAsked_of_knowing h
  have hwatched : Watched queueSetup watchedRun.1 := .of_mayFollow (by decide +kernel)
  exact ⟨⟨hcatalog, hhistory, hwatched⟩, by decide +kernel,
    handedOver_to_seen hcatalog hhistory hwatched⟩

/-! ## Functions that nobody has looked at -/

/-- Whatever is handed over is for a function that has been seen to be deployed for the run. -/
def SeenThroughout (setup : Setup) (past : List Done) : Prop :=
  ∀ earlier d later, past = earlier ++ d :: later →
    ∀ before m after, d.log = before ++ m :: after → m.call.handsOver = true →
      ∃ x f, HandedOver setup before m x f ∧ SeenFor earlier before x.workflowInstanceUid f

/-- If a request is sent while its run has steps for one function only, and that function has never
been seen to be deployed, not all has been seen. -/
theorem not_seenThroughout {m : Moment} {w : WorkRequest} (hm : m ∈ logOf past)
    (hwork : m.offered? .work = some w.toJson.text)
    (hrefs : ∀ x ∈ m.scene.tables.steps, x.workflowInstanceUid = w.workflowInstanceId →
      ∀ g ∈ x.shape.functionRefs, g = f)
    (hnever : ∀ m' ∈ logOf past, m'.seesDeployed f = false) : ¬SeenThroughout setup past := by
  intro hseen
  obtain ⟨d, hd, hmd⟩ := List.mem_flatMap.1 hm
  obtain ⟨earlier, later, rfl⟩ := List.append_of_mem hd
  obtain ⟨before, after, hlog⟩ := List.append_of_mem hmd
  have hcall := Moment.call_of_offered hwork
  obtain ⟨x, g, hover, hsees⟩ := hseen earlier d later rfl before m after hlog (by rw [hcall]; rfl)
  have hrun : x.workflowInstanceUid = w.workflowInstanceId := by
    obtain ⟨input, info, -, hsent | ⟨address, -, hposted⟩⟩ := hover.call
    · have htext := (Call.publish.inj (hsent.symm.trans hcall)).2
      exact WorkRequest.run_eq_of_text htext
    · cases hposted.symm.trans hcall
  obtain rfl := hrefs x hover.step hrun g hover.names
  have hno : ∀ d' ∈ earlier, ∀ m' ∈ d'.log, m'.seesDeployed g = false := fun d' hd' m' hm' ↦
    hnever m' (List.mem_flatMap.2 ⟨d', List.mem_append_left _ hd', hm'⟩)
  have hhere : ∀ m' ∈ before, m'.seesDeployed g = false := fun m' hm' ↦
    hnever m' (List.mem_flatMap.2 ⟨d, hd, hlog ▸ List.mem_append_left _ hm'⟩)
  cases hsees with
  | here m' hm' h => exact absurd h (Bool.eq_false_iff.1 (hhere m' hm'.mem))
  | before d' hd' m' hm' h => exact absurd h (Bool.eq_false_iff.1 (hno d' hd' m' hm'.mem))
  | watched d' hd' ho h =>
    obtain ⟨m', hm', h⟩ := h
    exact absurd h (Bool.eq_false_iff.1 (hno d' hd' m' hm'))

/-- A workflow that starts another one and then calls a function. -/
def delegateThenCall : WorkflowDefinition :=
  { uid := .ofNat 1
    name := "delegate then call"
    steps :=
      [{ uid := .ofNat 2
         name := "delegate"
         executionOrder := 1
         shape := .subWorkflow (.ofNat 5) },
        { uid := .ofNat 3, name := "call", executionOrder := 2, shape := .simple (.ofNat 10) }] }

/-- A function that nobody may deploy. -/
def missingFunction : FunctionInfo :=
  { uid := .ofNat 10, name := "missing", deploymentState := .notDeployed }

/-- The run of `delegateThenCall` has got the result of the other run, and calls a function that has
never been deployed. -/
def delegatedThenCalled : List Done × Scene :=
  (recordAll queueSetup ([.start (.ofNat 1) [] none none,
    .result { stepInstanceId := World.nthUid 4, workflowInstanceId := World.nthUid 3,
              runStatus := .completed, attempt := some 1 },
    .result { stepInstanceId := World.nthUid 1, workflowInstanceId := World.nthUid 0,
              runStatus := .completed, attempt := some 1 }].map fun o ↦
      (.knowing [deployedFunction, missingFunction] delegateThenCall [delegated], o)) [] {}).get
    (by decide +kernel)

/-- The call by which its work is handed over. -/
def unseenCall : Moment :=
  ((logOf delegatedThenCalled.1).filter (·.call.handsOver)).get ⟨1, by decide +kernel⟩

/-- A run of `callThenLoop` that waits for its function is told that it is deployed, by nobody who
knows. -/
def wronglyTold : List Done × Scene :=
  (recordAll queueSetup ([.start (.ofNat 1) [] none none,
    .outcome { workflowInstanceId := World.nthUid 0, ready := true }].map fun o ↦
      (.knowing [lazyFunction] callThenLoop [], o)) [] {}).get (by decide +kernel)

/-- The call by which its work is handed over. -/
def prematureCall : Moment :=
  ((logOf wronglyTold.1).filter (·.call.handsOver)).get ⟨0, by decide +kernel⟩

/-- A function under another identifier than that of the function of `callThenLoop`. -/
def otherFunction : FunctionInfo := { lazyFunction with uid := .ofNat 10 }

/-- A catalog answers with `otherFunction` when it is asked for the function of `callThenLoop`. The
run waits for the function that it has been told of, and begins when that one is deployed. -/
def misdirected : List Done × Scene :=
  (recordAll queueSetup [(.single otherFunction callThenLoop, .start (.ofNat 1) [] none none),
    (.single { otherFunction with deploymentState := .deployed } callThenLoop,
      .watch (World.nthUid 0) 0 (.begin [otherFunction.uid])),
    (.single otherFunction callThenLoop, .outcome
      { workflowInstanceId := World.nthUid 0, ready := true })] [] {}).get (by decide +kernel)

/-- The call by which its work is handed over. -/
def misdirectedCall : Moment :=
  ((logOf misdirected.1).filter (·.call.handsOver)).get ⟨0, by decide +kernel⟩

/-- A workflow that calls two functions. -/
def callBoth : WorkflowDefinition :=
  { uid := .ofNat 1
    name := "call both"
    steps :=
      [{ uid := .ofNat 2, name := "first", executionOrder := 1, shape := .simple (.ofNat 10) },
        { uid := .ofNat 3, name := "second", executionOrder := 2, shape := .simple (.ofNat 11) }] }

/-- A run of `callBoth` is started while the catalog answers for the first function only, which
nobody may deploy. -/
def cutShort : Except EngineError RunSnapshot × List Moment × Scene :=
  (Collaborators.record
    { Collaborators.knowing [missingFunction] callBoth [] with
      function := fun f ↦ if f = .ofNat 10 then .ok missingFunction else .error outOfReach }
    0 (queueSetup.startNested 1 (.ofNat 1) [] none none).run {}).get (by decide +kernel)

/-- Work is handed over to a function that has never been deployed, if the run begins with another
run, if it is told what nobody has seen, or if the catalog answers with another function than the
one that it is asked for. And a run that has found such a function is not ended, if another lookup
fails. -/
theorem handedOver_to_unseen :
    (History queueSetup namesAsked delegatedThenCalled.1 delegatedThenCalled.2 ∧
      Watched queueSetup delegatedThenCalled.1 ∧ ¬SeenThroughout queueSetup delegatedThenCalled.1) ∧
    (History queueSetup namesAsked wronglyTold.1 wronglyTold.2 ∧
      (∀ e ∈ wronglyTold.2.made, ¬BeginsBelow e) ∧ ¬SeenThroughout queueSetup wronglyTold.1) ∧
    (History queueSetup anyAnswer misdirected.1 misdirected.2 ∧
      Watched queueSetup misdirected.1 ∧ (∀ e ∈ misdirected.2.made, ¬BeginsBelow e) ∧
      ¬SeenThroughout queueSetup misdirected.1) ∧
    Logs anyAnswer (queueSetup.startNested 1 (.ofNat 1) [] none none) {} cutShort.2.1 cutShort.1
      cutShort.2.2 ∧
    (∀ e ∈ cutShort.2.2.made, ¬BeginsBelow e) ∧
    (∃ e ∈ cutShort.2.2.made, ∃ x ∈ e.2, .ofNat 10 ∈ x.shape.functionRefs) ∧
    (∃ m ∈ cutShort.2.1, m.finds? (.ofNat 10) = some missingFunction) ∧
    ¬Barred (World.nthUid 0) cutShort.2.1 cutShort.2.2 := by
  refine ⟨⟨?_, .of_mayFollow (by decide +kernel), ?_⟩, ⟨?_, ?_, ?_⟩,
    ⟨history_get_any _, .of_mayFollow (by decide +kernel), ?_, ?_⟩, ?_, ?_, ?_, ?_, ?_⟩
  · refine history_get (fun e he c a h ↦ ?_) _
    obtain ⟨o, -, rfl⟩ := List.mem_map.1 he
    exact Collaborators.namesAsked_of_knowing h
  · exact not_seenThroughout (m := unseenCall) (f := .ofNat 10)
      (w := workRequest ((unseenCall.scene.tables.step? (World.nthUid 2)).get (by decide +kernel))
        [] missingFunction)
      (List.mem_of_mem_filter (List.get_mem _ _)) (by decide +kernel) (by decide +kernel)
        (by decide +kernel)
  · refine history_get (fun e he c a h ↦ ?_) _
    obtain ⟨o, -, rfl⟩ := List.mem_map.1 he
    exact Collaborators.namesAsked_of_knowing h
  · unfold BeginsBelow
    decide +kernel
  · exact not_seenThroughout (m := prematureCall) (f := .ofNat 9)
      (w := workRequest ((prematureCall.scene.tables.step? (World.nthUid 1)).get
        (by decide +kernel)) [] lazyFunction)
      (List.mem_of_mem_filter (List.get_mem _ _)) (by decide +kernel) (by decide +kernel)
        (by decide +kernel)
  · unfold BeginsBelow
    decide +kernel
  · exact not_seenThroughout (m := misdirectedCall) (f := .ofNat 9)
      (w := workRequest ((misdirectedCall.scene.tables.step? (World.nthUid 1)).get
        (by decide +kernel)) [] otherFunction)
      (List.mem_of_mem_filter (List.get_mem _ _)) (by decide +kernel) (by decide +kernel)
      (by decide +kernel)
  · exact (Collaborators.logged_get _ _).weaken fun _ _ _ ↦ trivial
  · unfold BeginsBelow
    decide +kernel
  · decide +kernel
  · decide +kernel
  · rintro ⟨-, q, hq, hended⟩
    have hnew : (cutShort.2.2.tables.run? (World.nthUid 0)).map (·.runStatus) = some .new := by
      decide +kernel
    rw [hq, Option.map_some, hended] at hnew
    cases hnew

end Engine

end Orchestration
