import Orchestration.Proofs.Histories

/-!
# What a deed does to the records

A deed changes the record of one run or of one step, puts in a new run with its steps, or removes
runs (`Changes`). For one given step it comes down to even less. Most deeds leave it alone. The
others put it into a new attempt, note the case that it falls on, use up one of its repetitions,
write a result onto it, or make or remove it. `Affects` says which of these a deed does, with what
it presupposes and with its calls that concern the step.
-/

namespace Orchestration

namespace Engine

open Chain

variable {setup : Setup} {G : Uid → Prop} {o : Operation} {s₀ s s' : Scene}
variable {log l : List Moment} {u : Uid}

/-! ## Changes of the records -/

/-- Two states of one run: what was fixed when the run was made is the same in both. -/
structure SameRun (q p : WorkflowInstance) : Prop where
  uid : p.uid = q.uid
  input : p.inputData = q.inputData
  parent : p.parentInstanceUid = q.parentInstanceUid
  parentStep : p.parentStepInstanceUid = q.parentStepInstanceUid
  createdAt : p.createdAt = q.createdAt

/-- How a deed may change the records. -/
inductive Changes (o : Operation) (s₀ s : Scene) : Store.Tables → Prop where
  | nothing : Changes o s₀ s s.tables
  /-- The record of a run that has not come to its end. -/
  | run (q p : WorkflowInstance) (hq : s.tables.run? q.uid = some q)
      (hgoes : q.runStatus.isTerminal = false) (hsame : SameRun q p) :
      Changes o s₀ s (s.tables.putRun p)
  /-- A step of a run that goes on. -/
  | step (q : WorkflowInstance) (x y : StepInstance) (hx : s.tables.step? x.uid = some x)
      (hq : s.tables.run? x.workflowInstanceUid = some q) (hgoes : GoesOn q)
      (hsame : SameStep x y) :
      Changes o s₀ s (s.tables.putStep y)
  /-- The result of a step that was running when the operation began. -/
  | result (m : StepResult) (x : StepInstance) (time : Instant) (expected : Int) (hfirst : s = s₀)
      (ho : o = .result m) (hu : x.uid = m.stepInstanceId) (hx : s.tables.step? x.uid = some x)
      (hrunning : x.runStatus = .running) (hcount : x.runCount = expected) :
      Changes o s₀ s
        (s.tables.putStep (Store.Tables.withResult (updateOf m time expected) x).2)
  /-- A new run with its steps. -/
  | making (new : WorkflowInstance) (instances : List StepInstance) (hnew : new.uid ∉ s.issued)
      (hinst : ∀ x ∈ instances, x.uid ∉ s.issued ∧ x.workflowInstanceUid = new.uid) :
      Changes o s₀ s (withRun s.tables new instances)
  /-- Runs that are gone, with their steps. -/
  | removal (uids : List Uid) (ho : ∃ keepDays maxCount, o = .sweep keepDays maxCount) :
      Changes o s₀ s (s.tables.remove (s.tables.below uids))

theorem Deed.changes (h : Deed setup G o s₀ log s l s') : Changes o s₀ s s'.tables := by
  cases h with
  | idle | refuse | dispatch | cancel | outcome => exact .nothing
  | again q told s' _ _ _ htold => exact htold.tables.1 ▸ .nothing
  | make definition steps input parent parentStep run uids time instances new l s₁ _ hlen _ hrun
      huids hinst hnew =>
    subst hinst hnew
    refine .making _ _ hrun fun x hx ↦ ?_
    have hmem : x.uid ∈ uids :=
      map_uid_buildStepInstances run input hlen ▸ List.mem_map_of_mem hx
    exact ⟨fun hi ↦ huids _ hmem (List.mem_append_left _ hi),
      (of_mem_buildStepInstances run input hlen hx).2.1⟩
  | startTime q time hq hnew => exact .run q _ hq (by rw [hnew]; rfl) ⟨rfl, rfl, rfl, rfl, rfl⟩
  | move q status expected hq hmove =>
    have hgoes : q.runStatus.isTerminal = false := by
      generalize q.runStatus = before at hmove
      cases hmove <;> rfl
    exact .run q _ hq hgoes ⟨rfl, rfl, rfl, rfl, rfl⟩
  | resume q rest _ hq hpaused => exact .run q _ hq (by rw [hpaused]; rfl) ⟨rfl, rfl, rfl, rfl, rfl⟩
  | hold q x hq hpaused => exact .run q _ hq (by rw [hpaused]; rfl) ⟨rfl, rfl, rfl, rfl, rfl⟩
  | launch q x input time hx hq hgoes => exact .step q x _ hx hq hgoes ⟨rfl, rfl, rfl, rfl, rfl⟩
  | select q x name hx hq hgoes => exact .step q x _ hx hq hgoes ⟨rfl, rfl, rfl, rfl, rfl⟩
  | grant q x hx hq hgoes => exact .step q x _ hx hq hgoes ⟨rfl, rfl, rfl, rfl, rfl⟩
  | record m x time expected hfirst ho hu hx hrunning hcount =>
    exact .result m x time expected hfirst ho hu hx hrunning hcount
  | finish q status failure output time rest told s' hq hgoes _ _ htold =>
    rw [htold.tables.1]
    exact .run q _ hq hgoes ⟨rfl, rfl, rfl, rfl, rfl⟩
  | quit q status failure time expected rest _ hq hgoes =>
    exact .run q _ hq hgoes ⟨rfl, rfl, rfl, rfl, rfl⟩
  | remove uids m _ _ ho => exact .removal uids ho

theorem Deed.issued_subset (h : Deed setup G o s₀ log s l s') : s.issued ⊆ s'.issued := by
  cases h with
  | make _ _ _ _ _ run uids _ _ _ _ s₁ _ _ _ _ _ _ _ _ _ hs₁ =>
    subst hs₁
    exact fun v hv ↦ List.mem_append_left _ (List.mem_append_left _ hv)
  | again q told s' _ _ _ htold => exact htold.tables.2.1 ▸ List.Subset.refl _
  | finish q _ _ _ _ _ told s' _ _ _ _ htold => exact htold.tables.2.1 ▸ List.Subset.refl _
  | _ => exact List.Subset.refl _

theorem Changes.run?_of_ended {t : Store.Tables} (h : Changes o s₀ s t) (hu : u ∈ s.issued)
    (hend : ∀ q, s.tables.run? u = some q → q.runStatus.isTerminal = true) :
    t.run? u = s.tables.run? u ∨ t.run? u = none := by
  cases h with
  | nothing | step | result => exact .inl rfl
  | run q p hq hgoes hsame =>
    refine .inl (Store.Tables.run?_putRun_of_ne fun hp ↦ ?_)
    have hends := hend q (hp ▸ hsame.uid ▸ hq)
    rw [hgoes] at hends
    cases hends
  | making new instances hnew =>
    refine .inl (Store.find?_append_of_ne fun r hr hru ↦ hnew ?_)
    rw [← List.mem_singleton.1 hr, hru]
    exact hu
  | removal uids =>
    rw [run?_remove]
    split
    · exact .inr rfl
    · exact .inl rfl

/-! ## New runs -/

/-- The run that a call puts into the store. -/
def Moment.inserted? : Moment → Option WorkflowInstance
  | ⟨_, .store (.insertRun run _), .ok _⟩ => some run
  | _ => none

theorem Moment.inserted?_of_call {m : Moment}
    (h : ∀ run steps, m.call ≠ .store (.insertRun run steps)) : m.inserted? = none := by
  obtain ⟨t, c, a⟩ := m
  cases c with
  | store c =>
    cases c with
    | insertRun run steps => exact absurd rfl (h run steps)
    | _ => rfl
  | _ => rfl

/-- A new run is put into the store, right after the clock has been read. -/
structure Births (o : Operation) (log : List Moment) (s : Scene) (l : List Moment) (s' : Scene)
    (new : WorkflowInstance) : Prop where
  calls : ∃ l₁ t instances, l = l₁ ++ [⟨t, .now, new.createdAt⟩,
    ⟨t, .store (.insertRun new instances), .ok ()⟩] ∧ ∀ m ∈ l₁, m.call = .newUid
  origin : Origin o log new.parentInstanceUid new.parentStepInstanceUid
  runs : s'.tables.runs = s.tables.runs ++ [new]

theorem Moment.Idle.inserted? {m : Moment} (h : m.Idle) : m.inserted? = none := by
  refine Moment.inserted?_of_call fun run steps hcall ↦ ?_
  obtain ⟨t, c, a⟩ := m
  obtain rfl : c = _ := hcall
  cases h

theorem inserted?_of_isEnding {m : Moment} {run : Uid} (h : m.call.isEnding run = true) :
    m.inserted? = none := by
  refine Moment.inserted?_of_call fun new steps hcall ↦ ?_
  rw [hcall] at h
  cases h

theorem Told.inserted? {q : WorkflowInstance} (h : Told q s l s') :
    ∀ m ∈ l, m.inserted? = none := by
  cases h with
  | told => exact fun m hm ↦ List.mem_singleton.1 hm ▸ rfl
  | untold => exact fun m hm ↦ nomatch hm

/-- A deed puts a new run in, or all runs that it leaves were there before. -/
theorem Deed.births (h : Deed setup G o s₀ log s l s') :
    ((∀ m ∈ l, m.inserted? = none) ∧ ∀ p ∈ s'.tables.runs, ∃ q ∈ s.tables.runs, SameRun q p) ∨
      ∃ new, Births o log s l s' new := by
  have hself : ∀ p ∈ s.tables.runs, ∃ q ∈ s.tables.runs, SameRun q p :=
    fun p hp ↦ ⟨p, hp, rfl, rfl, rfl, rfl, rfl⟩
  have hput : ∀ {q p' : WorkflowInstance}, s.tables.run? q.uid = some q → SameRun q p' →
      ∀ p ∈ (s.tables.putRun p').runs, ∃ q ∈ s.tables.runs, SameRun q p := by
    intro q p' hq hsame p hp
    rcases Store.mem_overwrite hp with rfl | ⟨hp, -⟩
    · exact ⟨q, (Store.Tables.mem_of_run? hq).1, hsame⟩
    · exact hself p hp
  have hcons : ∀ {m : Moment} {l : List Moment}, m.inserted? = none →
      (∀ m ∈ l, m.inserted? = none) → ∀ m' ∈ m :: l, m'.inserted? = none :=
    fun hm hl ↦ List.forall_mem_cons.2 ⟨hm, hl⟩
  have hone : ∀ {m : Moment}, m.inserted? = none → ∀ m' ∈ [m], m'.inserted? = none :=
    fun hm ↦ hcons hm fun _ h ↦ nomatch h
  cases h with
  | make definition steps input parent parentStep run uids time instances new l s₁ _
      _ _ _ _ _ hnew hl horigin =>
    subst hnew
    exact .inr ⟨_, ⟨l, s₁, instances, rfl, hl⟩, horigin, rfl⟩
  | idle l h => exact .inl ⟨fun m hm ↦ (h m hm).2.inserted?, hself⟩
  | startTime q time hq | move q _ _ hq | hold q _ hq =>
    exact .inl ⟨hone rfl, hput hq ⟨rfl, rfl, rfl, rfl, rfl⟩⟩
  | resume q rest _ hq _ hrest =>
    refine .inl ⟨hcons rfl fun m hm ↦ ?_, hput hq ⟨rfl, rfl, rfl, rfl, rfl⟩⟩
    rcases hrest m hm with hidle | hcall
    · exact (Moment.idle_of_isIdle hidle).inserted?
    · exact Moment.inserted?_of_call fun new steps h ↦ nomatch hcall.symm.trans h
  | dispatch q d m _ hc =>
    refine .inl ⟨hone (Moment.inserted?_of_call fun new steps h ↦ ?_), hself⟩
    rcases hc with hc | ⟨_, _, hc⟩
    · cases hc.symm.trans h
    · cases hc.symm.trans h
  | finish q status failure output time rest told s' hq _ _ hrest htold =>
    refine .inl ⟨hcons rfl fun m hm ↦ ?_, ?_⟩
    · exact (List.mem_append.1 hm).elim (fun hm ↦ inserted?_of_isEnding (hrest m hm))
        (htold.inserted? m)
    · rw [htold.tables.1]
      exact hput hq ⟨rfl, rfl, rfl, rfl, rfl⟩
  | quit q status failure time expected rest _ hq _ hrest =>
    exact .inl ⟨hcons rfl fun m hm ↦ inserted?_of_isEnding (hrest m hm),
      hput hq ⟨rfl, rfl, rfl, rfl, rfl⟩⟩
  | again q told s' _ _ _ htold =>
    refine .inl ⟨htold.inserted?, ?_⟩
    rw [htold.tables.1]
    exact hself
  | remove uids m _ hc =>
    refine .inl ⟨hone (Moment.inserted?_of_call fun new steps h ↦ nomatch hc.symm.trans h), ?_⟩
    exact fun p hp ↦ hself p (List.mem_filter.1 hp).1
  | _ => exact .inl ⟨hone rfl, hself⟩

/-- A run that a deed leaves was there before, or is the new one. -/
theorem Deed.same_or_born (h : Deed setup G o s₀ log s l s') {p : WorkflowInstance}
    (hp : p ∈ s'.tables.runs) : (∃ q ∈ s.tables.runs, SameRun q p) ∨ Births o log s l s' p := by
  rcases h.births with ⟨-, hruns⟩ | ⟨new, hnew⟩
  · exact .inl (hruns p hp)
  · rw [hnew.runs] at hp
    rcases List.mem_append.1 hp with hp | hp
    · exact .inl ⟨p, hp, rfl, rfl, rfl, rfl, rfl⟩
    · rw [List.mem_singleton.1 hp]
      exact .inr hnew

/-! ## One step -/

/-- No call grants or refuses a step a repetition, or launches it. -/
def Spares (u : Uid) (l : List Moment) : Prop :=
  ∀ m ∈ l, m.grants u = false ∧ m.refuses u = false ∧ m.launches u = false

theorem spares_of_call {m : Moment}
    (hlaunch : ∀ v input time, m.call ≠ .store (.launchStep v input time))
    (hretry : ∀ v, m.call ≠ .store (.decrementRetry v)) :
    m.grants u = false ∧ m.refuses u = false ∧ m.launches u = false := by
  obtain ⟨t, c, a⟩ := m
  cases c with
  | store c =>
    cases c with
    | launchStep v input time => exact absurd rfl (hlaunch v input time)
    | decrementRetry v => exact absurd rfl (hretry v)
    | _ => exact ⟨rfl, rfl, rfl⟩
  | _ => exact ⟨rfl, rfl, rfl⟩

theorem spares_of_idle {m : Moment} (h : m.Idle) :
    m.grants u = false ∧ m.refuses u = false ∧ m.launches u = false := by
  refine spares_of_call (fun v input time hcall ↦ ?_) fun v hcall ↦ ?_
  · obtain ⟨t, c, a⟩ := m
    obtain rfl : c = _ := hcall
    cases h
  · obtain ⟨t, c, a⟩ := m
    obtain rfl : c = _ := hcall
    cases h

theorem spares_of_isEnding {m : Moment} {run : Uid} (h : m.call.isEnding run = true) :
    m.grants u = false ∧ m.refuses u = false ∧ m.launches u = false := by
  refine spares_of_call (fun v input time hcall ↦ ?_) fun v hcall ↦ ?_
  · rw [hcall] at h
    cases h
  · rw [hcall] at h
    cases h

theorem Spares.single {m : Moment}
    (h : m.grants u = false ∧ m.refuses u = false ∧ m.launches u = false) : Spares u [m] := by
  intro m' hm
  rwa [List.mem_singleton.1 hm]

theorem Spares.append {l₁ l₂ : List Moment} (h₁ : Spares u l₁) (h₂ : Spares u l₂) :
    Spares u (l₁ ++ l₂) := fun m hm ↦ (List.mem_append.1 hm).elim (h₁ m) (h₂ m)

theorem Spares.cons {m : Moment}
    (h : m.grants u = false ∧ m.refuses u = false ∧ m.launches u = false) (hl : Spares u l) :
    Spares u (m :: l) := (Spares.single h).append hl

theorem Told.spares {q : WorkflowInstance} (h : Told q s l s') : Spares u l := by
  cases h with
  | told => exact .single ⟨rfl, rfl, rfl⟩
  | untold => exact fun m hm ↦ nomatch hm

/-- A step that has just been made. -/
structure Made (s s' : Scene) (x : StepInstance) : Prop where
  unknown : x.uid ∉ s.issued
  known : x.uid ∈ s'.issued
  found : s'.tables.step? x.uid = some x
  status : x.runStatus = .new
  count : x.runCount = 0
  retries : 0 ≤ x.retryCount

/-- What a deed does to a step, with its calls and the scene that it leaves. -/
inductive Affects (setup : Setup) (G : Uid → Prop) (o : Operation) (log : List Moment) (s : Scene)
    (u : Uid) (l : List Moment) (s' : Scene) : Prop where
  | not (hl : Spares u l) (h : s'.tables.step? u = s.tables.step? u)
  | launch (q : WorkflowInstance) (x : StepInstance) (input : Json.Object) (time : Instant)
      (hx : s.tables.step? u = some x) (hready : Launchable G s.tables u) (hwhy : Occasion G log x)
      (htime : JustRead log s time) (hl : l = [⟨s, .store (.launchStep u input time), .ok ()⟩])
      (h : s'.tables.step? u = some (Store.Tables.launched input time x))
      (hq : s.tables.run? x.workflowInstanceUid = some q) (hgoes : GoesOn q)
      (hinput : Evaluates s.tables x input)
  | select (x : StepInstance) (name : String) (hl : Spares u l) (hx : s.tables.step? u = some x)
      (h : s'.tables.step? u = some { x with selectedCaseName := some name })
  | grant (x : StepInstance) (hx : s.tables.step? u = some x)
      (hfailed : x.runStatus = .failed ∨ x.runStatus = .timedOut) (hleft : 0 < x.retryCount)
      (hfirst : ∀ m ∈ log, m.grants u = false ∧ m.launches u = false)
      (hl : l = [⟨s, .store (.decrementRetry u), .ok true⟩])
      (h : s'.tables.step? u = some { x with retryCount := x.retryCount - 1 })
  | refuse (x : StepInstance) (hx : s.tables.step? u = some x)
      (hfailed : x.runStatus = .failed ∨ x.runStatus = .timedOut) (hleft : x.retryCount ≤ 0)
      (hfirst : ∀ m ∈ log, m.grants u = false ∧ m.launches u = false)
      (hl : l = [⟨s, .store (.decrementRetry u), .ok false⟩]) (h : s' = s)
  | record (m : StepResult) (x : StepInstance) (time : Instant) (expected : Int) (hl : Spares u l)
      (ho : o = .result m) (hx : s.tables.step? u = some x) (hrunning : x.runStatus = .running)
      (hcount : x.runCount = expected)
      (h : s'.tables.step? u = some (answeredStep x m time))
  | made (x : StepInstance) (hl : Spares u l) (hu : x.uid = u) (h : Made s s' x)
      (hmade : ∃ e ∈ s'.made, x ∈ e.2)
  | removed (hl : Spares u l) (h : s'.tables.step? u = none)

private theorem made_of_make {steps : List StepDefinition} {input : Json.Object} {run : Uid}
    {uids : List Uid} {new : WorkflowInstance} {instances : List StepInstance} {t : Store.Tables}
    (hkeyed : (withRun t new instances).Keyed) (hlen : uids.length = steps.length)
    (huids : ∀ v ∈ uids, v ∉ (s.issue run).issued) (ht : s'.tables = withRun t new instances)
    (hissued : s'.issued = (s.issue run).issued ++ uids)
    (hinst : instances = buildStepInstances run steps input uids) {x : StepInstance}
    (hx : x ∈ instances) : Made s s' x := by
  have hmem : x.uid ∈ uids := by
    rw [← map_uid_buildStepInstances run input hlen, ← hinst]
    exact List.mem_map_of_mem hx
  have hfound : s'.tables.step? x.uid = some x := by
    rw [ht]
    exact hkeyed.step?_iff.2 ⟨List.mem_append_right _ hx, rfl⟩
  have hunknown : x.uid ∉ s.issued := fun hi ↦ huids _ hmem (List.mem_append_left _ hi)
  have hknown : x.uid ∈ s'.issued := hissued ▸ List.mem_append_right _ hmem
  rw [hinst] at hx
  obtain ⟨uid, label, links, d, -, rfl⟩ := exists_of_mem_buildStepInstances run input hlen hx
  exact ⟨hunknown, hknown, hfound, rfl, rfl, Int.le_max_right _ _⟩

/-- **A deed does one of these things to a step.** -/
theorem Deed.affects (h : Deed setup G o s₀ log s l s') (hs : Sound setup G s)
    (hs' : Sound setup G s') (u : Uid) : Affects setup G o log s u l s' := by
  have hput : ∀ {x y : StepInstance}, s.tables.step? x.uid = some x → SameStep x y →
      (s.tables.putStep y).step? x.uid = some y :=
    fun hx hsame ↦ hs.keyed.step?_putStep hx hsame.uid hsame.run
  have hother : ∀ {x y : StepInstance}, x.uid ≠ u → SameStep x y →
      (s.tables.putStep y).step? u = s.tables.step? u :=
    fun hne hsame ↦ Store.Tables.step?_putStep_of_ne (hsame.uid ▸ hne)
  cases h with
  | idle l h => exact .not (fun m hm ↦ spares_of_idle (h m hm).2) rfl
  | make definition steps input parent parentStep run uids time instances new l s₁ _ hlen _ _ huids
      hinst _ hl _ hs₁ =>
    have hspares : Spares u
        (l ++ [⟨s₁, .now, time⟩, ⟨s₁, .store (.insertRun new instances), .ok ()⟩]) := by
      refine .append (fun m hm ↦ spares_of_call (fun v input time hcall ↦ ?_) fun v hcall ↦ ?_)
        (.cons ⟨rfl, rfl, rfl⟩ (.single ⟨rfl, rfl, rfl⟩))
      · exact nomatch (hl m hm).symm.trans hcall
      · exact nomatch (hl m hm).symm.trans hcall
    by_cases hu : ∃ x ∈ instances, x.uid = u
    · obtain ⟨x, hx, rfl⟩ := hu
      exact .made x hspares rfl (made_of_make hs'.keyed hlen huids rfl (by rw [hs₁]) hinst hx)
        ⟨_, List.mem_append_right _ (List.mem_singleton_self _), hx⟩
    · exact .not hspares (Store.find?_append_of_ne fun x hx hxu ↦ hu ⟨x, hx, hxu⟩)
  | startTime | move | hold | outcome | cancel => exact .not (.single ⟨rfl, rfl, rfl⟩) rfl
  | resume q rest _ _ _ hrest =>
    refine .not (.cons ⟨rfl, rfl, rfl⟩ fun m hm ↦ ?_) rfl
    rcases hrest m hm with hidle | hcall
    · exact spares_of_idle (Moment.idle_of_isIdle hidle)
    · refine spares_of_call (fun v input time h ↦ ?_) fun v h ↦ ?_
      · exact nomatch hcall.symm.trans h
      · exact nomatch hcall.symm.trans h
  | launch q x input time hx hq hgoes hready hwhy htime _ hinput =>
    have hsame : SameStep x (Store.Tables.launched input time x) := ⟨rfl, rfl, rfl, rfl, rfl⟩
    by_cases hu : x.uid = u
    · subst hu
      exact .launch q x input time hx hready hwhy htime rfl (hput hx hsame) hq hgoes hinput
    · exact .not (.single ⟨rfl, rfl, beq_false_of_ne hu⟩) (hother hu hsame)
  | select q x name hx =>
    have hsame : SameStep x { x with selectedCaseName := some name } := ⟨rfl, rfl, rfl, rfl, rfl⟩
    by_cases hu : x.uid = u
    · subst hu
      exact .select x name (.single ⟨rfl, rfl, rfl⟩) hx (hput hx hsame)
    · exact .not (.single ⟨rfl, rfl, rfl⟩) (hother hu hsame)
  | grant q x hx _ _ hfailed hleft hfirst =>
    have hsame : SameStep x { x with retryCount := x.retryCount - 1 } := ⟨rfl, rfl, rfl, rfl, rfl⟩
    by_cases hu : x.uid = u
    · subst hu
      exact .grant x hx hfailed hleft hfirst rfl (hput hx hsame)
    · exact .not (.single ⟨beq_false_of_ne hu, rfl, rfl⟩) (hother hu hsame)
  | refuse q x hx _ _ hfailed hleft hfirst =>
    by_cases hu : x.uid = u
    · subst hu
      exact .refuse x hx hfailed hleft hfirst rfl rfl
    · exact .not (.single ⟨rfl, beq_false_of_ne hu, rfl⟩) rfl
  | record m x time expected _ ho _ hx hrunning hcount =>
    have hsame := sameStep_withResult (updateOf m time expected) x
    rw [withResult_of_running hrunning hcount] at hsame ⊢
    by_cases hu : x.uid = u
    · subst hu
      exact .record m x time expected (.single ⟨rfl, rfl, rfl⟩) ho hx hrunning
        hcount (hput hx hsame)
    · exact .not (.single ⟨rfl, rfl, rfl⟩) (hother hu hsame)
  | dispatch q d m _ hc =>
    refine .not (.single (spares_of_call (fun v input time h ↦ ?_) fun v h ↦ ?_)) rfl
    · rcases hc with hc | ⟨_, _, hc⟩
      · cases hc.symm.trans h
      · cases hc.symm.trans h
    · rcases hc with hc | ⟨_, _, hc⟩
      · cases hc.symm.trans h
      · cases hc.symm.trans h
  | finish q status failure output time rest told s' _ _ _ hrest htold =>
    refine .not (.cons ⟨rfl, rfl, rfl⟩ (.append (fun m hm ↦ spares_of_isEnding (hrest m hm))
      htold.spares)) ?_
    rw [htold.tables.1]
    rfl
  | quit q status failure time expected rest _ _ _ hrest =>
    exact .not (.cons ⟨rfl, rfl, rfl⟩ fun m hm ↦ spares_of_isEnding (hrest m hm)) rfl
  | again q told s' _ _ _ htold => exact .not htold.spares (by rw [htold.tables.1])
  | remove uids m _ hc =>
    have hspares : Spares u [m] := .single (spares_of_call
      (fun v input time h ↦ nomatch hc.symm.trans h) fun v h ↦ nomatch hc.symm.trans h)
    -- A step that is still there is the same as before.
    cases hfound : (s.tables.remove (s.tables.below uids)).step? u with
    | none => exact .removed hspares hfound
    | some x =>
      obtain ⟨hx, hu⟩ := Store.Tables.mem_of_step? hfound
      refine .not hspares (hfound.trans (hs.keyed.step?_iff.2 ⟨?_, hu⟩).symm)
      exact (List.mem_filter.1 hx).1

/-- What may become of a step with a deed: it is launched, it is answered, or it goes on, but for
the case of its decision and its repetitions. -/
inductive Becomes (G : Uid → Prop) (log : List Moment) (s : Scene) (u : Uid) (l : List Moment)
    (x : StepInstance) : StepInstance → Prop where
  | launched (input : Json.Object) (time : Instant) (hready : Launchable G s.tables u)
      (htime : JustRead log s time) : Becomes G log s u l x (Store.Tables.launched input time x)
  | answered (m : StepResult) (time : Instant) (hl : ∀ c ∈ l, c.launches u = false)
      (hrunning : x.runStatus = .running) : Becomes G log s u l x (answeredStep x m time)
  | same (y : StepInstance) (hl : ∀ c ∈ l, c.launches u = false)
      (hstatus : y.runStatus = x.runStatus) (hcount : y.runCount = x.runCount)
      (hstart : y.startTime = x.startTime) :
      Becomes G log s u l x y

/-- A step that a deed leaves was there before, or has just been made. -/
theorem Affects.becomes (h : Affects setup G o log s u l s') {y : StepInstance}
    (hy : s'.tables.step? u = some y) :
    (∃ x, s.tables.step? u = some x ∧ Becomes G log s u l x y) ∨
      y.uid = u ∧ Made s s' y ∧ ∃ e ∈ s'.made, y ∈ e.2 := by
  have hspared : Spares u l → ∀ c ∈ l, c.launches u = false := fun hl c hc ↦ (hl c hc).2.2
  have hdecrement : ∀ {a}, l = [⟨s, .store (.decrementRetry u), a⟩] →
      ∀ c ∈ l, c.launches u = false := by
    rintro a rfl c hc
    rw [List.mem_singleton.1 hc]
    rfl
  cases h with
  | not hl hsame => exact .inl ⟨y, hsame ▸ hy, .same y (hspared hl) rfl rfl rfl⟩
  | launch q x input time hx hready _ htime _ h' =>
    obtain rfl := Option.some.inj (h'.symm.trans hy)
    exact .inl ⟨x, hx, .launched input time hready htime⟩
  | select x name hl hx h' =>
    obtain rfl := Option.some.inj (h'.symm.trans hy)
    exact .inl ⟨x, hx, .same _ (hspared hl) rfl rfl rfl⟩
  | grant x hx _ _ _ hl h' =>
    obtain rfl := Option.some.inj (h'.symm.trans hy)
    exact .inl ⟨x, hx, .same _ (hdecrement hl) rfl rfl rfl⟩
  | refuse x hx _ _ _ hl h' =>
    subst h'
    exact .inl ⟨y, hy, .same y (hdecrement hl) rfl rfl rfl⟩
  | record m x time expected hl _ hx hrunning _ h' =>
    obtain rfl := Option.some.inj (h'.symm.trans hy)
    exact .inl ⟨x, hx, .answered m time (hspared hl) hrunning⟩
  | made x _ hu h hmade =>
    obtain rfl : x = y := Option.some.inj (h.found.symm.trans (hu ▸ hy))
    exact .inr ⟨hu, h, hmade⟩
  | removed _ hnone => cases hnone.symm.trans hy

theorem Deed.made (h : Deed setup G o s₀ log s l s') (hs' : Sound setup G s') :
    s'.made = s.made ∨ ∃ e, s'.made = s.made ++ [e] ∧ ∀ x ∈ e.2, Made s s' x := by
  cases h with
  | make definition steps input parent parentStep run uids time instances new l s₁ _ hlen _ _ huids
      hinst _ _ _ hs₁ =>
    exact .inr ⟨_, rfl, fun x hx ↦ made_of_make hs'.keyed hlen huids rfl (by rw [hs₁]) hinst hx⟩
  | finish q status failure output time rest told s' _ _ _ _ htold => exact .inl htold.tables.2.2
  | again q told s' _ _ _ htold => exact .inl htold.tables.2.2
  | _ => exact .inl rfl

theorem issued_of_step? (hs : Sound setup G s) {x : StepInstance} (hx : s.tables.step? u = some x) :
    u ∈ s.issued := by
  obtain ⟨ds, hst, -⟩ := hs.standing
  obtain ⟨hmem, rfl⟩ := Store.Tables.mem_of_step? hx
  exact hst.stepsIssued x hmem

theorem Affects.spares_of_unknown (h : Affects setup G o log s u l s') (hs : Sound setup G s)
    (hu : u ∉ s.issued) : Spares u l := by
  have hunknown : ∀ {x}, s.tables.step? u = some x → False := fun hx ↦ hu (issued_of_step? hs hx)
  cases h with
  | launch _ _ _ _ hx => exact (hunknown hx).elim
  | grant _ hx => exact (hunknown hx).elim
  | refuse _ hx => exact (hunknown hx).elim
  | not hl | select _ _ hl | record _ _ _ _ hl | made _ hl | removed hl => exact hl

/-! ## Results of a step -/

theorem Affects.le_runCount {k : Int} (h : Affects setup G o log s u l s')
    (hu : k ≤ 0 ∨ u ∈ s.issued) (hk : ∀ x, s.tables.step? u = some x → k ≤ x.runCount) :
    ∀ y, s'.tables.step? u = some y → k ≤ y.runCount := by
  intro y hy
  rcases h.becomes hy with ⟨x, hx, hbecomes⟩ | ⟨rfl, hmade, -⟩
  · have hle := hk x hx
    cases hbecomes with
    | launched => exact hle
    | answered =>
      show k ≤ x.runCount + 1
      omega
    | same _ _ _ hcount => rwa [hcount]
  · rw [hmade.count]
    exact hu.resolve_right hmade.unknown

theorem Deeds.le_runCount {k : Int} (h : Deeds setup G o s₀ log s) (hu : k ≤ 0 ∨ u ∈ s₀.issued)
    (hk : ∀ x, s₀.tables.step? u = some x → k ≤ x.runCount) :
    ∀ y, s.tables.step? u = some y → k ≤ y.runCount := by
  have hkept := h.holds (P := fun _ s ↦ (k ≤ 0 ∨ u ∈ s.issued) ∧
    ∀ y, s.tables.step? u = some y → k ≤ y.runCount) ⟨hu, hk⟩
    fun _ _ _ _ hs hs' deed hP ↦ ⟨hP.1.imp_right fun hknown ↦ deed.issued_subset hknown,
      (deed.affects hs hs' u).le_runCount hP.1 hP.2⟩
  exact hkept.2

theorem Reachable.runCount_nonneg {R : Rule} (h : Reachable setup R s) :
    ∀ x, s.tables.step? u = some x → 0 ≤ x.runCount := by
  induction h with
  | empty => exact fun x hx ↦ nomatch hx
  | step o before hrun _ ih =>
    obtain ⟨log, -, hdeeds⟩ := before.deeds (guiding_nobody _) hrun
    exact hdeeds.le_runCount (.inl (Int.le_refl 0)) ih

/-- Every step has a count to which one more result can be added. -/
theorem Reachable.canCount {R : Rule} (h : Reachable setup R s) (x : StepInstance)
    (hx : s.tables.step? u = some x) : x.CanCount where
  nonneg := h.runCount_nonneg x hx
  room := by
    have hroom := h.hasRoom x (Store.Tables.mem_of_step? hx).1
    omega

theorem Reachable.attemptOf_bounds {R : Rule} (h : Reachable setup R s) {x : StepInstance}
    (hx : s.tables.step? u = some x) : 1 ≤ attemptOf x ∧ attemptOf x < greatestInt := by
  have hnonneg := h.runCount_nonneg x hx
  exact ⟨by unfold attemptOf; omega, h.hasRoom x (Store.Tables.mem_of_step? hx).1⟩

/-! ## Steps as they were made -/

/-- Every step of the store has been made, and no identifier has been given to two steps. -/
structure MadeOnce (s : Scene) : Prop where
  known : ∀ e ∈ s.made, ∀ x ∈ e.2, x.uid ∈ s.issued
  unique : ∀ e ∈ s.made, ∀ x ∈ e.2, ∀ e' ∈ s.made, ∀ x' ∈ e'.2, x.uid = x'.uid → x = x'
  stored : ∀ u x, s.tables.step? u = some x → ∃ e ∈ s.made, ∃ x₀ ∈ e.2, x₀.uid = u

theorem Deed.madeOnce (h : Deed setup G o s₀ log s l s') (hs : Sound setup G s)
    (hs' : Sound setup G s') (honce : MadeOnce s) : MadeOnce s' := by
  have hissued := h.issued_subset
  have hstored : s.made ⊆ s'.made → ∀ u x, s'.tables.step? u = some x →
      ∃ e ∈ s'.made, ∃ x₀ ∈ e.2, x₀.uid = u := by
    intro hmade u y hy
    rcases (h.affects hs hs' u).becomes hy with ⟨x, hx, -⟩ | ⟨hu, -, e, he, hmem⟩
    · obtain ⟨e, he, x₀, hx₀, hu⟩ := honce.stored u x hx
      exact ⟨e, hmade he, x₀, hx₀, hu⟩
    · exact ⟨e, he, y, hmem, hu⟩
  rcases h.made hs' with hmade | ⟨e₁, hmade, hnew⟩
  · refine ⟨fun e he x hx ↦ ?_, ?_, hstored (hmade ▸ List.Subset.refl _)⟩
    · exact hissued (honce.known e (hmade ▸ he) x hx)
    · rw [hmade]
      exact honce.unique
  · have hcases : ∀ e ∈ s'.made, e ∈ s.made ∨ e = e₁ := by
      intro e he
      rw [hmade] at he
      exact (List.mem_append.1 he).imp_right List.mem_singleton.1
    refine ⟨fun e he x hx ↦ ?_, fun e he x hx e' he' x' hx' hu ↦ ?_, hstored ?_⟩
    · rcases hcases e he with he | rfl
      · exact hissued (honce.known e he x hx)
      · exact (hnew x hx).known
    · rcases hcases e he with he | rfl
      · rcases hcases e' he' with he' | rfl
        · exact honce.unique e he x hx e' he' x' hx' hu
        · exact absurd (hu ▸ honce.known e he x hx) (hnew x' hx').unknown
      · rcases hcases e' he' with he' | rfl
        · exact absurd (hu ▸ honce.known e' he' x' hx') (hnew x hx).unknown
        · exact Option.some.inj ((hnew x hx).found.symm.trans (hu ▸ (hnew x' hx').found))
    · rw [hmade]
      exact List.subset_append_left _ _

end Engine

end Orchestration
