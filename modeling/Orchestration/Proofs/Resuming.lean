import Orchestration.Proofs.Footprint
import Orchestration.Proofs.Interleaving
import Orchestration.Proofs.Pausing

/-!
# Results that arrive while a run is resumed

The result of a step and the resumption of its run may be handled at the same time. Both take two
accesses: the result is handled by reading the status of the run and then, if it is paused, noting
the step; the run is resumed by moving it on and then taking the note.

In all orders but one the step is left, and once: by whoever handles the result if the run had been
moved on when its status was read, and by the resumption if the note was there in time. But if the
status is read before the run is moved on and the step is noted after the note has been taken,
nobody leaves the step. The run is then running, and holds a step that it will not leave before it
is paused and resumed again (`left_once_or_noted_late`).

Nothing is said here of a run that holds a step beforehand. Its resumption leaves that step,
whatever the result is.
-/

namespace Orchestration

namespace Engine

variable {R : Rule} {setup : Setup} {s s' s₀ : Scene} {t : Store.Tables} {q : WorkflowInstance}
variable {m : StepResult} {x : StepInstance} {u : Uid} {log l : List Turn}

/-! ## A run that holds nothing -/

theorem HoldsNothing.taken (h : HoldsNothing u s) :
    s.tables.answer (.takeHeldStep u) = (.error (.runNotFound u), s.tables) ∨
      s.tables.answer (.takeHeldStep u) = (.ok none, s.tables) := by
  cases hu : s.tables.run? u with
  | none => exact .inl (Store.Tables.onRun_of_none hu _)
  | some p =>
    obtain ⟨hmem, hpu⟩ := Store.Tables.mem_of_run? hu
    have hnone := h.unheld p hmem hpu
    have hsame : { p with heldStepInstanceUid := none } = p := by rw [← hnone]
    have hput : s.tables.putRun p = s.tables := by
      rw [Store.Tables.mk.injEq]
      exact ⟨Store.Tables.overwrite_self h.runs hmem, rfl⟩
    refine .inr ?_
    show s.tables.onRun u _ = _
    rw [Store.Tables.onRun_of_some hu, hnone, hsame, hput]

/-! ## How far a resumption has got -/

/-- What a resumption does once its run goes on. -/
def Setup.takeUp (setup : Setup) (run : Uid) : Action Unit :=
  Action.store (.takeHeldStep run) >>= fun held ↦ setup.release held >>= fun _ ↦ showing run

private theorem rests_reading {γ : Type} {J : Scene → Prop} {c : Store.Call}
    (hc : isReading c = true) {f : Except EngineError c.Value → Rest γ} (hf : ∀ o, Rests J (f o)) :
    Rests J (.call (.store c) f) :=
  fun s o _ _ ↦ ⟨afterStore_of_isReading hc s, hf o⟩

theorem rests_showing (run : Uid) (J : Scene → Prop) : Rests J (showing run).run := by
  refine rests_reading (c := .getRun run) rfl fun o ↦ ?_
  rcases o with e | _ | r
  · trivial
  · trivial
  refine rests_reading (c := .listSteps run) rfl fun o ↦ ?_
  cases o with
  | error e => trivial
  | ok steps => trivial

/-- What is left of a resumption that has yet to take what its run holds, and the status of the
run. -/
inductive Untaken (setup : Setup) (u : Uid) :
    RunStatus → Rest (Except EngineError Unit) → Prop where
  | asked : Untaken setup u .paused ((Operation.resume u).action setup).run
  | moved (payload : String) :
    Untaken setup u .running (.call (.publish .notifications payload) fun _ ↦ (setup.takeUp u).run)
  | announced : Untaken setup u .running (setup.takeUp u).run

/-- Which program takes what a run holds: the resumption, which comes second. -/
def taking (u : Uid) : Nat × Call := (1, .store (.takeHeldStep u))

/-- A scene in which a run that holds nothing has a status, and the other records are given. -/
def Scene.withRunIn (s : Scene) (t : Store.Tables) (q : WorkflowInstance) (status : RunStatus) :
    Scene := { s with tables := t.putRun (heldRun q status none) }

/-- A resumption is under way, and the run has not held anything. -/
inductive Underway (setup : Setup) (s₀ : Scene) (q : WorkflowInstance) (t : Store.Tables)
    (log : List Turn) : Rest (Except EngineError Unit) → Scene → Prop where
  | untaken {status : RunStatus} {k : Rest (Except EngineError Unit)}
      (hk : Untaken setup q.uid status k) (hlog : taking q.uid ∉ log.map Turn.asked) :
      Underway setup s₀ q t log k (s₀.withRunIn t q status)
  | taken {k : Rest (Except EngineError Unit)} (hk : Rests (fun _ ↦ True) k)
      (hlog : taking q.uid ∈ log.map Turn.asked) :
      Underway setup s₀ q t log k (s₀.withRunIn t q .running)

theorem holdsNothing_withRunIn (ht : t.Keyed) (status : RunStatus) :
    HoldsNothing q.uid (s₀.withRunIn t q status) where
  runs := (ht.putRun _).runs
  unheld := by
    intro p hp hpu
    rcases Store.mem_overwrite hp with rfl | ⟨-, hne⟩
    · rfl
    · exact absurd hpu hne

/-- Once its run goes on, a resumption changes nothing as long as the run holds nothing. -/
theorem Untaken.rests {k : Rest (Except EngineError Unit)} (h : Untaken setup u .running k) :
    Rests (HoldsNothing u) k := by
  have htake : Rests (HoldsNothing u) (setup.takeUp u).run := by
    intro s answer hs hadm
    obtain rfl : answer = (s.tables.answer (.takeHeldStep u)).1 := hadm
    have hafter : s.after (.store (.takeHeldStep u)) (s.tables.answer (.takeHeldStep u)).1 =
        { s with tables := (s.tables.answer (.takeHeldStep u)).2, made := s.made ++ [] } := rfl
    rw [hafter, List.append_nil]
    rcases hs.taken with htaken | htaken
    · rw [htaken]
      exact ⟨rfl, trivial⟩
    · rw [htaken]
      exact ⟨rfl, rests_showing u _⟩
  cases h with
  | moved payload => exact fun s _ _ _ ↦ ⟨rfl, htake⟩
  | announced => exact htake

theorem resume_run (setup : Setup) (u : Uid) : ∃ payload next,
    ((Operation.resume u).action setup).run =
      .call (.store (.updateRunStatus u .running (some .paused))) next ∧
    next (.ok true) = .call (.publish .notifications payload) fun _ ↦ (setup.takeUp u).run := by
  rw [resume_eq]
  exact ⟨_, _, rfl, rfl⟩

variable {k k' : Rest (Except EngineError Unit)}

private theorem asked_append (log : List Turn) (e : Turn) :
    (log ++ [e]).map Turn.asked = log.map Turn.asked ++ [e.asked] := by
  rw [List.map_append, List.map_singleton]

theorem Underway.call (ht : t.Keyed) (hq : t.run? q.uid = some q) {c : Call}
    {next : c.Answer → Rest (Except EngineError Unit)} {answer : c.Answer}
    (h : Underway setup s₀ q t log (.call c next) s) (hadm : s.Admits c answer) :
    Underway setup s₀ q t (log ++ [⟨1, s, c, answer⟩]) (next answer) (s.after c answer) := by
  have hidle : ∀ {e : Turn}, e.asked ≠ taking q.uid → taking q.uid ∉ log.map Turn.asked →
      taking q.uid ∉ (log ++ [e]).map Turn.asked := by
    intro e he hlog hmem
    rw [asked_append] at hmem
    rcases List.mem_append.1 hmem with hmem | hmem
    · exact hlog hmem
    · exact he (List.mem_singleton.1 hmem).symm
  generalize hk : Program.call c next = k at h
  cases h with
  | taken hrests hlog =>
    subst hk
    obtain ⟨hsame, hrest⟩ := hrests _ answer trivial hadm
    rw [hsame]
    exact .taken hrest (by rw [asked_append]; exact List.mem_append_left _ hlog)
  | untaken hstage hlog =>
    cases hstage with
    | asked =>
      obtain ⟨payload, next', hrun, hnext⟩ := resume_run setup q.uid
      cases hk.trans hrun
      have hans : (s₀.withRunIn t q .paused).tables.answer
          (.updateRunStatus q.uid .running (some .paused)) =
            (.ok true, t.putRun (heldRun q .running none)) :=
        ht.onRun_putRun (p := heldRun q .paused none) hq rfl
          (Store.Tables.withStatus .running (some .paused)) rfl
      obtain rfl : answer = .ok true := hadm.trans (congrArg Prod.fst hans)
      have hafter : (s₀.withRunIn t q .paused).after
          (.store (.updateRunStatus q.uid .running (some .paused))) (.ok true) =
            s₀.withRunIn t q .running := by
        show Scene.afterStore _ _ = _
        rw [Scene.afterStore, hans]
        exact congrArg (fun made ↦ { s₀.withRunIn t q .running with made := made })
          (List.append_nil _)
      rw [hnext, hafter]
      exact .untaken (.moved payload) (hidle (fun he ↦ by cases he) hlog)
    | moved payload =>
      cases hk
      exact .untaken .announced (hidle (fun he ↦ by cases he) hlog)
    | announced =>
      cases hk
      have htaken : taking q.uid ∈ (log ++ [(⟨1, s₀.withRunIn t q .running,
          .store (.takeHeldStep q.uid), answer⟩ : Turn)]).map Turn.asked := by
        rw [asked_append]
        exact List.mem_append_right _ List.mem_cons_self
      have hnothing : HoldsNothing q.uid (s₀.withRunIn t q .running) :=
        holdsNothing_withRunIn ht .running
      have hstage : Untaken setup q.uid .running (setup.takeUp q.uid).run := .announced
      obtain ⟨hsame, -⟩ := hstage.rests _ answer hnothing hadm
      rw [hsame]
      refine .taken ?_ htaken
      obtain rfl : answer = _ := hadm
      rcases hnothing.taken with hans | hans
      · rw [hans]
        trivial
      · rw [hans]
        exact rests_showing q.uid _

theorem Underway.meanwhile (ht : t.Keyed) (hq : t.run? q.uid = some q)
    (h : Underway setup s₀ q t log k s) (hrun : Meanwhile R k s l k' s') :
    Underway setup s₀ q t (log ++ l) k' s' := by
  induction hrun generalizing log with
  | none =>
    rw [List.append_nil]
    exact h
  | call hadm _ _ ih =>
    rw [List.append_cons]
    exact ih (h.call ht hq hadm)

/-! ## Handling a result beside a resumption -/

section Beside

variable {α : Type} {a : Action α} {r : Except EngineError α} {t' : Store.Tables}

/-- The next call of whoever handles the result is made while the resumption is under way. -/
theorem Underway.turn (ht : t.Keyed) (hq : t.run? q.uid = some q)
    (h : Underway setup s₀ q t log k s) {c : Call} {next : c.Answer → Rest (Except EngineError α)}
    (hrun : Among R (.call c next) k s l r k' s') :
    ∃ k₁ s₁ answer l₁ l₂, Underway setup s₀ q t (log ++ l₁) k₁ s₁ ∧ s₁.Admits c answer ∧
      l = l₁ ++ ⟨0, s₁, c, answer⟩ :: l₂ ∧
      Among R (next answer) k₁ (s₁.after c answer) l₂ r k' s' := by
  obtain ⟨l₁, k₁, s₁, answer, l₂, hmeanwhile, hadm, -, hl, hrest⟩ := hrun
  exact ⟨k₁, s₁, answer, l₁, l₂, h.meanwhile ht hq hmeanwhile, hadm, hl, hrest⟩

/-- A call of whoever handles the result changes the other records, and not how far the resumption
has got. -/
theorem Underway.follow (h : Underway setup s₀ q t log k s) {c : Call} {a : c.Answer}
    {v : Store.Tables}
    (hafter : ∀ status, s = s₀.withRunIn t q status → s.after c a = s₀.withRunIn v q status) :
    Underway setup s₀ q v (log ++ [⟨0, s, c, a⟩]) k (s.after c a) := by
  have hother : (⟨0, s, c, a⟩ : Turn).asked ≠ taking q.uid := fun he ↦ by cases he
  cases h with
  | @untaken status k hstage hlog =>
    rw [hafter status rfl]
    refine .untaken hstage fun hmem ↦ ?_
    rw [asked_append] at hmem
    rcases List.mem_append.1 hmem with hmem | hmem
    · exact hlog hmem
    · exact hother (List.mem_singleton.1 hmem).symm
  | taken hrests hlog =>
    rw [hafter .running rfl]
    exact .taken hrests (by rw [asked_append]; exact List.mem_append_left _ hlog)

theorem Underway.scene (h : Underway setup s₀ q t log k s) :
    ∃ status, s = s₀.withRunIn t q status := by
  cases h with
  | untaken | taken => exact ⟨_, rfl⟩

theorem Underway.steps (h : Underway setup s₀ q t log k s) : s.tables.steps = t.steps := by
  obtain ⟨status, rfl⟩ := h.scene
  rfl

theorem Underway.finds (ht : t.Keyed) (hq : t.run? q.uid = some q) (ha : ReadsSteps a)
    {o : Except EngineError α} (ho : Finds t a o) (h : Underway setup s₀ q t log k s)
    (hrun : Alongside R a k s l r k' s') : r = o ∧ Underway setup s₀ q t (log ++ l) k' s' := by
  have hprogram : ∀ {p : Rest (Except EngineError α)}, Asked (fun c ↦ c.readsSteps = true) p →
      valueIn? t p = some o → ∀ {k s log l}, Underway setup s₀ q t log k s →
      Among R p k s l r k' s' → r = o ∧ Underway setup s₀ q t (log ++ l) k' s' := by
    intro p hp hvalue
    induction p with
    | done b =>
      intro k s log l h hrun
      exact ⟨hrun.1.trans (Option.some.inj hvalue), h.meanwhile ht hq hrun.2⟩
    | call c next ih =>
      intro k s log l h hrun
      cases c with
      | store c =>
        obtain ⟨k₁, s₁, answer, l₁, l₂, h₁, hadm, rfl, hrest⟩ := h.turn ht hq hrun
        obtain ⟨hreading, hanswer⟩ := answer_of_readsSteps h₁.steps hp.1
        unfold valueIn? at hvalue
        rw [if_pos hreading, ← hanswer, ← show answer = (s₁.tables.answer c).1 from hadm] at hvalue
        have h₂ := h₁.follow (c := .store c) (a := answer) (v := t) fun _ hs ↦
          (afterStore_of_isReading hreading s₁).trans hs
        rw [← List.append_assoc, List.append_cons]
        exact ih answer (hp.2 answer) hvalue h₂ hrest
      | _ => cases hp.1
  exact hprogram ha ho h hrun

theorem Underway.applied (ht : t.Keyed) (hq : t.run? q.uid = some q) (hx : t.step? x.uid = some x)
    (hm : AnswersAttempt m x) (hcount : x.CanCount) (h : Underway setup s₀ q t log k s)
    {r : Except EngineError (Option StepInstance)}
    (hrun : Alongside R (applyResult x m) k s l r k' s') :
    ∃ time, r = .ok (some (answeredStep x m time)) ∧
      Underway setup s₀ q (t.putStep (answeredStep x m time)) (log ++ l) k' s' := by
  unfold applyResult at hrun
  rw [expectedRunCount_of_attempt hcount hm.2] at hrun
  obtain ⟨k₁, s₁, time, l₁, l₂, h₁, -, rfl, hrest₁⟩ := h.turn ht hq hrun
  have h₁ := h₁.follow (c := .now) (a := time) (v := t) fun _ hs ↦ hs
  obtain ⟨k₂, s₂, answer, l₃, l₄, h₂, hadm, rfl, hrest₂⟩ := h₁.turn ht hq hrest₁
  set y := answeredStep x m time
  have hans : ∀ status, (s₀.withRunIn t q status).tables.answer
      (.applyStepResult x.uid (updateOf m time x.runCount)) =
        (.ok true, (t.putStep y).putRun (heldRun q status none)) := by
    intro status
    have hfound : (s₀.withRunIn t q status).tables.step? x.uid = some x := hx
    rw [Store.Tables.answer_applyStepResult
        (Store.Tables.isBeyondCount_of_canCount hfound hcount _),
      Store.Tables.onStep_of_some hfound, withResult_of_running hm.1 rfl]
    rfl
  obtain rfl : answer = .ok true := by
    obtain ⟨status, rfl⟩ := h₂.scene
    exact hadm.trans (congrArg Prod.fst (hans status))
  have hmem := (Store.Tables.mem_of_step? hx).1
  have ht' : (t.putStep y).Keyed := ht.putStep hmem rfl
  have hq' : (t.putStep y).run? q.uid = some q := hq
  have h₂ := h₂.follow (c := .store (.applyStepResult x.uid (updateOf m time x.runCount)))
    (a := .ok true) (v := t.putStep y) fun status hs ↦ by
      rw [hs]
      show Scene.afterStore _ _ = _
      rw [Scene.afterStore, hans]
      exact congrArg (fun made ↦ { s₀.withRunIn (t.putStep y) q status with made := made })
        (List.append_nil _)
  -- What has been written is announced and read again.
  obtain ⟨k₃, s₃, told, l₅, l₆, h₃, -, rfl, hrest₃⟩ := h₂.turn ht' hq' hrest₂
  have h₃ := h₃.follow (a := told) (v := t.putStep y) fun _ hs ↦ hs
  have hfound : Finds (t.putStep y) (readStep x.uid >>= fun y ↦ pure (some y)) (.ok (some y)) :=
    finds_bind.2 (.inr ⟨y, finds_readStep (ht.step?_putStep hx rfl rfl), finds_pure.2 rfl⟩)
  obtain ⟨hr, h₄⟩ := h₃.finds ht' hq' (.bind (readsSteps_readStep _) fun _ ↦ .pure _) hfound hrest₃
  refine ⟨time, hr, ?_⟩
  simp only [List.append_assoc, List.cons_append, List.nil_append] at h₄
  exact h₄

/-- Whoever reads the status of the run finds it paused, or running. In the second case the
resumption changes nothing any more as long as the run holds nothing. -/
theorem Underway.readRun (ht : t.Keyed) (hq : t.run? q.uid = some q)
    (h : Underway setup s₀ q t log k s) {r : Except EngineError WorkflowInstance}
    (hrun : Alongside R (readRun q.uid) k s l r k' s') :
    (r = .ok (heldRun q .paused none) ∧ Underway setup s₀ q t (log ++ l) k' s') ∨
      (r = .ok (heldRun q .running none) ∧ s' = s₀.withRunIn t q .running ∧
        Rests (HoldsNothing q.uid) k') := by
  obtain ⟨k₁, s₁, answer, l₁, l₂, h₁, hadm, rfl, hrest⟩ := h.turn ht hq hrun
  have hafter : s₁.after (.store (.getRun q.uid)) answer = s₁ := afterStore_of_isReading rfl s₁
  have hread : ∀ {status}, s₁ = s₀.withRunIn t q status →
      answer = .ok (some (heldRun q status none)) := by
    rintro status rfl
    have hfound : (t.putRun (heldRun q status none)).run? q.uid = some (heldRun q status none) :=
      ht.run?_putRun hq rfl
    exact hadm.trans (congrArg Except.ok hfound)
  have hrunning : s₁ = s₀.withRunIn t q .running → Rests (HoldsNothing q.uid) k₁ →
      r = .ok (heldRun q .running none) ∧ s' = s₀.withRunIn t q .running ∧
        Rests (HoldsNothing q.uid) k' := by
    intro hs hk
    obtain rfl := hread hs
    subst hs
    rw [hafter] at hrest
    obtain ⟨hr, hmeanwhile⟩ := hrest
    obtain ⟨hsame, hk'⟩ := hk.meanwhile (holdsNothing_withRunIn ht .running) hmeanwhile
    exact ⟨hr, hsame, hk'⟩
  have hfollow := h₁.follow (c := .store (.getRun q.uid)) (a := answer) (v := t)
    fun _ hs ↦ hafter.trans hs
  generalize hs : s₁ = s₂ at h₁
  cases h₁ with
  | taken hk => exact .inr (hrunning hs (hk.weaken fun _ _ ↦ trivial))
  | @untaken status k hk =>
    cases status with
    | paused =>
      obtain rfl := hread hs
      subst hs
      obtain ⟨hr, hmeanwhile⟩ := hrest
      refine .inl ⟨hr, ?_⟩
      rw [← List.append_assoc, List.append_cons]
      exact hfollow.meanwhile ht hq hmeanwhile
    | running => exact .inr (hrunning hs hk.rests)
    | _ => cases hk

end Beside

/-! ## Who leaves the step -/

/-- The step is noted after the resumption has taken what its run holds. -/
def NotedLate (run step : Uid) (log : List Turn) : Prop :=
  [taking run, (0, .store (.setHeldStep run (some step)))].Sublist (log.map Turn.asked)

theorem NotedLate.noted {step : Uid} (h : NotedLate u step log) :
    ∃ e ∈ log, e.program = 0 ∧ e.moment.call = .store (.setHeldStep u (some step)) := by
  obtain ⟨e, he, hasked⟩ := List.mem_map.1 (h.subset (List.mem_cons_of_mem _ List.mem_cons_self))
  exact ⟨e, he, congrArg Prod.fst hasked, congrArg Prod.snd hasked⟩

/-- A step that is noted before anything is taken, and only then, is not noted late. -/
theorem not_notedLate_of_noted {step : Uid} {e : Turn} {l' : List Turn}
    (hbefore : taking u ∉ l.map Turn.asked)
    (he : e.asked = (0, .store (.setHeldStep u (some step)))) (hafter : ∀ e ∈ l', e.program = 1) :
    ¬NotedLate u step (l ++ e :: l') := by
  intro hlate
  rw [NotedLate, List.map_append, List.map_cons, he] at hlate
  obtain ⟨l₁, l₂, hboth, h₁, h₂⟩ := List.sublist_append_iff.1 hlate
  -- Nothing is taken in the first part, so both calls are in the second.
  obtain rfl : l₁ = [] := by
    rcases l₁ with _ | ⟨c, rest⟩
    · rfl
    · rw [List.cons_append] at hboth
      rw [← (List.cons.inj hboth).1] at h₁
      exact absurd (h₁.subset List.mem_cons_self) hbefore
  rw [← hboth.trans (List.nil_append _)] at h₂
  -- The first of them is not the call that opens the second part, so both come after that.
  cases h₂ with
  | cons _ h₂ =>
    have hnoted := h₂.subset (List.mem_cons_of_mem _ List.mem_cons_self)
    obtain ⟨e', he', hasked⟩ := List.mem_map.1 hnoted
    cases (congrArg Prod.fst hasked).symm.trans (hafter e' he')

theorem runs_takeUp (ht : t.Keyed) (hq : t.run? q.uid = some q) {y : StepInstance}
    (hy : t.step? y.uid = some y) {r : Except EngineError Unit}
    (h : Runs R (setup.takeUp q.uid)
      { s₀ with tables := t.putRun (heldRun q .running (some y.uid)) } r s') :
    ∃ r', Runs R (setup.advance y) (s₀.withRunIn t q .running) r' s' ∧
      (r = .ok () → r' = .ok ()) := by
  have hans : (t.putRun (heldRun q .running (some y.uid))).answer (.takeHeldStep q.uid) =
      (.ok (some y.uid), t.putRun (heldRun q .running none)) :=
    ht.onRun_putRun (p := heldRun q .running (some y.uid)) hq rfl
      (fun p ↦ (p.heldStepInstanceUid, { p with heldStepInstanceUid := none })) rfl
  have hwrites := Writes.store (c := .takeHeldStep q.uid) (congrArg Prod.fst hans) rfl
  rw [hans] at hwrites
  have hrest := hwrites.next h
  have hread : ∀ {r s'}, Runs R (setup.release (some y.uid)) (s₀.withRunIn t q .running) r s' →
      Runs R (setup.advance y) (s₀.withRunIn t q .running) r s' := by
    intro r s' hrelease
    have hfound : Finds (t.putRun (heldRun q .running none)) (readStep y.uid) (.ok y) :=
      finds_readStep hy
    exact hfound.next hrelease
  rcases runs_bind.1 hrest with ⟨e, hrelease, rfl⟩ | ⟨_, s₁, hrelease, hshown⟩
  · exact ⟨_, hread hrelease, fun hr ↦ nomatch hr⟩
  · rw [still_showing _ hshown]
    exact ⟨_, hread hrelease, fun _ ↦ rfl⟩

/-- A resumption that has yet to take what its run holds leaves a step that is noted now. -/
theorem Untaken.leads (ht : t.Keyed) (hq : t.run? q.uid = some q) {y : StepInstance}
    (hy : t.step? y.uid = some y) {status : RunStatus} (hk : Untaken setup q.uid status k)
    {r : Except EngineError Unit}
    (h : Leads R k { s₀ with tables := t.putRun (heldRun q status (some y.uid)) } r s') :
    ∃ r', Runs R (setup.advance y) (s₀.withRunIn t q .running) r' s' ∧
      (r = .ok () → r' = .ok ()) := by
  cases hk with
  | asked =>
    have hpaused : (t.putRun (heldRun q .paused (some y.uid))).run? q.uid =
        some (heldRun q .paused (some y.uid)) := ht.run?_putRun hq rfl
    have hrun : Runs R ((Operation.resume q.uid).action setup)
        { s₀ with tables := t.putRun (heldRun q .paused (some y.uid)) } r s' := h
    rw [resume_eq] at hrun
    have hrest := (writes_requireMove hpaused rfl rfl).next hrun
    have hmoved : (t.putRun (heldRun q .paused (some y.uid))).putRun
        (heldRun q .running (some y.uid)) = t.putRun (heldRun q .running (some y.uid)) :=
      Store.Tables.putRun_putRun rfl
    exact runs_takeUp ht hq hy (hmoved ▸ hrest)
  | moved payload =>
    obtain ⟨told, -, -, hrest⟩ := h
    exact runs_takeUp ht hq hy hrest
  | announced => exact runs_takeUp ht hq hy h

/-- A resumption that a step is noted beside leaves it, unless it has taken what its run holds. -/
theorem Underway.noted (ht : t.Keyed) (hq : t.run? q.uid = some q) {y : StepInstance}
    (hy : t.step? y.uid = some y) (h : Underway setup s₀ q t log k s)
    {r r₂ : Except EngineError Unit}
    (hrun : Alongside R (Setup.hold q.uid y.uid) k s l r (.done r₂) s') :
    (¬NotedLate q.uid y.uid (log ++ l) ∧ ∃ r', Runs R (setup.advance y)
      (s₀.withRunIn t q .running) r' s' ∧ (r₂ = .ok () → r' = .ok ())) ∨
    (NotedLate q.uid y.uid (log ++ l) ∧
      s' = { s₀ with tables := t.putRun (heldRun q .running (some y.uid)) }) := by
  obtain ⟨k₁, s₁, answer, l₁, l₂, h₁, -, rfl, -, hmeanwhile⟩ := h.turn ht hq hrun
  have hafter : ∀ {status}, s₁ = s₀.withRunIn t q status →
      s₁.after (.store (.setHeldStep q.uid (some y.uid))) answer =
        { s₀ with tables := t.putRun (heldRun q status (some y.uid)) } := by
    rintro status rfl
    have hans : (t.putRun (heldRun q status none)).answer (.setHeldStep q.uid (some y.uid)) =
        (.ok (), t.putRun (heldRun q status (some y.uid))) :=
      ht.onRun_putRun (p := heldRun q status none) hq rfl
        (fun p ↦ ((), { p with heldStepInstanceUid := some y.uid })) rfl
    show Scene.afterStore _ _ = _
    rw [Scene.afterStore, Scene.withRunIn, hans]
    exact congrArg (fun made ↦ { s₀ with
      tables := t.putRun (heldRun q status (some y.uid)), made := made }) (List.append_nil _)
  rw [← List.append_assoc]
  generalize hs₁ : s₁ = s₂ at h₁
  cases h₁ with
  | untaken hk hnone =>
    rw [hafter hs₁] at hmeanwhile
    exact .inl ⟨not_notedLate_of_noted hnone rfl hmeanwhile.program,
      hk.leads ht hq hy hmeanwhile.leads⟩
  | taken hk htaken =>
    rw [hafter hs₁] at hmeanwhile
    refine .inr ⟨?_, (hk.meanwhile trivial hmeanwhile).1⟩
    rw [NotedLate, List.map_append, List.map_cons]
    exact (List.singleton_sublist.2 htaken).append (List.singleton_sublist.2 List.mem_cons_self)

/-- A call does not note a step for a run. -/
def NotesNothing (u : Uid) (step : Option Uid) (c : Call) : Prop := c ≠ .store (.setHeldStep u step)

theorem notesNothing_of_movesOn {step : Option Uid} {c : Call} (hc : c.movesOn) :
    NotesNothing u step c := by
  rintro rfl
  exact hc

theorem notesNothing_applyResult (x : StepInstance) (m : StepResult) (u : Uid) (step : Option Uid) :
    Asks (NotesNothing u step) (applyResult x m) := by
  unfold applyResult
  split
  · exact .pure _
  refine .bind ⟨nofun, fun _ ↦ trivial⟩ fun time ↦ .bind (.store nofun) fun applied ↦
    .ite ?_ (.pure _)
  exact .bind ((harmless_announce _).plain.movesOn.mono fun _ ↦ notesNothing_of_movesOn) fun _ ↦
    .bind ((harmless_readStep _).plain.movesOn.mono fun _ ↦ notesNothing_of_movesOn) fun _ ↦ .pure _

/-- A step that has been answered is left once, and nothing else happens. Whoever has handled the
result or resumed the run has failed if the step could not be left. -/
def LeftOnce (R : Rule) (setup : Setup) (s : Scene) (q : WorkflowInstance) (y : StepInstance)
    (outcomes : List (Except EngineError Unit)) (s' : Scene) : Prop :=
  ∃ r, Runs R (setup.advance y) (s.withRunIn (s.tables.putStep y) q .running) r s' ∧
    ((∀ o ∈ outcomes, o = .ok ()) → r = .ok ())

/-- A step that has been answered is held by a run that goes on, and nothing else happens. -/
def LeftBehind (s : Scene) (q : WorkflowInstance) (y : StepInstance) (s' : Scene) : Prop :=
  s' = { s with
    tables := (s.tables.putStep y).putRun (heldRun q .running (some y.uid)) }

/-- **A result around a resumption is lost in one order only.** A run is paused and holds nothing,
and the result answers one of its steps. However the calls of whoever handles the result and of
whoever resumes the run come between one another, and whatever fails: the step is left once, unless
it is noted late, and then it is left behind. -/
theorem left_once_or_noted_late (h : Reachable setup anyAnswer s)
    (hq : s.tables.run? q.uid = some q) (hpaused : q.runStatus = .paused)
    (hheld : q.heldStepInstanceUid = none) (hx : s.tables.step? m.stepInstanceId = some x)
    (hown : x.workflowInstanceUid = q.uid) (hm : AnswersAttempt m x)
    {r₁ r₂ : Except EngineError Unit}
    (hrun : Interleaves R [((Operation.result m).action setup).run,
      ((Operation.resume q.uid).action setup).run] s log [.done r₁, .done r₂] s') :
    ∃ time,
      (¬NotedLate q.uid x.uid log ∧ LeftOnce R setup s q (answeredStep x m time) [r₁, r₂] s') ∨
        (NotedLate q.uid x.uid log ∧ LeftBehind s q (answeredStep x m time) s') := by
  have ht := (sound_of_reachable (guiding_nobody _) h).keyed
  have hself : s.tables.step? x.uid = some x := (Store.Tables.mem_of_step? hx).2.symm ▸ hx
  have hbegin : s.withRunIn s.tables q .paused = s := by
    have hsame : heldRun q .paused none = q := by rw [heldRun, ← hpaused, ← hheld]
    rw [Scene.withRunIn, hsame, ht.putRun_self (Store.Tables.mem_of_run? hq).1]
  have h₀ : Underway setup s q s.tables [] ((Operation.resume q.uid).action setup).run
      (s.withRunIn s.tables q .paused) := .untaken .asked List.not_mem_nil
  rw [hbegin] at h₀
  -- The step is read, and the result is written.
  have hresult : Alongside R (setup.processResult m) ((Operation.resume q.uid).action setup).run s
      log r₁ (.done r₂) s' := hrun.among
  rcases alongside_bind hresult with ⟨e, hread, -⟩ | ⟨z, k₁, s₁, l₁, l, rfl, hread, hresult⟩
  · cases (h₀.finds ht hq (readsSteps_readStep _) (finds_readStep hx) hread).1
  obtain ⟨hz, h₁⟩ := h₀.finds ht hq (readsSteps_readStep _) (finds_readStep hx) hread
  obtain rfl := (Except.ok.inj hz).symm
  rw [List.nil_append] at h₁
  have hcount := h.canCount x hx
  rcases alongside_bind hresult with ⟨e, happlied, -⟩ | ⟨o, k₂, s₂, l₂, l', rfl, happlied, hresult⟩
  · obtain ⟨_, he, -⟩ := h₁.applied ht hq hself hm hcount happlied
    cases he
  obtain ⟨time, ho, h₂⟩ := h₁.applied ht hq hself hm hcount happlied
  obtain rfl := Except.ok.inj ho
  set y := answeredStep x m time
  set t := s.tables.putStep y
  have ht' : t.Keyed := ht.putStep (Store.Tables.mem_of_step? hx).1 rfl
  have hq' : t.run? q.uid = some q := hq
  have hy : t.step? y.uid = some y := ht.step?_putStep hself rfl rfl
  refine ⟨time, ?_⟩
  -- What is done with the step is decided by the status that is read now.
  have hyq : y.workflowInstanceUid = q.uid := hown
  have hresult : Alongside R (readRun q.uid >>= fun run ↦
      if run.runStatus.isTerminal then pure ()
      else if run.runStatus = .paused then Setup.hold run.uid y.uid else setup.advance y)
      k₂ s₂ l' r₁ (.done r₂) s' := hyq ▸ hresult
  rcases alongside_bind hresult with
    ⟨e, hasked, -⟩ | ⟨p, k₃, s₃, l₃, l₄, rfl, hasked, hresult⟩
  · rcases h₂.readRun ht' hq' hasked with ⟨he, -⟩ | ⟨he, -⟩
    · cases he
    · cases he
  rcases h₂.readRun ht' hq' hasked with ⟨hp, h₃⟩ | ⟨hp, rfl, hk₃⟩
  · obtain rfl := Except.ok.inj hp
    rw [← List.append_assoc, ← List.append_assoc]
    rcases h₃.noted ht' hq' hy hresult with ⟨hintime, r, hadvance, hr⟩ | hlate
    · exact .inl ⟨hintime, r, hadvance, fun hall ↦ hr (hall r₂ (by simp))⟩
    · exact .inr hlate
  · obtain rfl := Except.ok.inj hp
    obtain ⟨hadvance, -⟩ := Among.alone (fun _ _ answer hc _ hs ↦ hs.after hc answer)
      (movesOn_advance setup y) hk₃ (holdsNothing_withRunIn ht' .running) hresult
    refine .inl ⟨fun hlate ↦ ?_, r₁, hadvance, fun hall ↦ hall r₁ List.mem_cons_self⟩
    -- None of the four parts notes the step.
    obtain ⟨e, he, hzero, hcall⟩ := hlate.noted
    have hmoves : ∀ {c : Call}, c.movesOn → NotesNothing q.uid (some x.uid) c :=
      notesNothing_of_movesOn
    simp only [List.mem_append] at he
    rcases he with he | he | he | he
    · exact hread.asks ((harmless_readStep _).plain.movesOn.mono fun _ ↦ hmoves) e he hzero hcall
    · exact happlied.asks (notesNothing_applyResult x m _ _) e he hzero hcall
    · exact hasked.asks ((harmless_readRun _).plain.movesOn.mono fun _ ↦ hmoves) e he hzero hcall
    · exact hresult.asks ((movesOn_advance setup y).mono fun _ ↦ hmoves) e he hzero hcall

instance (run step : Uid) (log : List Turn) : Decidable (NotedLate run step log) :=
  inferInstanceAs (Decidable (List.Sublist _ _))

/-- The step of the paused run that is under way. -/
def pausedStep : StepInstance :=
  (pausedScene.tables.step? (World.nthUid 1)).get (by decide +kernel)

/-- The first step of the paused run is answered while the run is resumed: the status of the run is
read before it is moved on, and the step is noted at the very end. -/
def lateHandling : List Turn × List (Except EngineError Unit) × Scene :=
  (willing.interleave 0 [0, 0, 0, 0, 0, 0, 1, 1, 1, 1, 1, 0]
    [((Operation.result firstAnswer).action queueSetup).run,
      ((Operation.resume pausedRun.uid).action queueSetup).run] pausedScene).get
    (by decide +kernel)

/-- Nothing has failed, the first step is completed and the second is new. The run goes on, and
holds the first step. -/
theorem noted_late_of_lateHandling :
    (Reachable queueSetup anyAnswer pausedScene ∧
      pausedScene.tables.run? pausedRun.uid = some pausedRun ∧ pausedRun.runStatus = .paused ∧
      pausedRun.heldStepInstanceUid = none ∧
      pausedScene.tables.step? firstAnswer.stepInstanceId = some pausedStep ∧
      pausedStep.workflowInstanceUid = pausedRun.uid ∧ AnswersAttempt firstAnswer pausedStep ∧
      Interleaves noFailure [((Operation.result firstAnswer).action queueSetup).run,
        ((Operation.resume pausedRun.uid).action queueSetup).run] pausedScene lateHandling.1
        [.done (.ok ()), .done (.ok ())] lateHandling.2.2) ∧
    NotedLate pausedRun.uid pausedStep.uid lateHandling.1 ∧
    (lateHandling.2.2.tables.run? pausedRun.uid).map
      (fun q ↦ (q.runStatus, q.heldStepInstanceUid)) = some (.running, some pausedStep.uid) ∧
    (lateHandling.2.2.tables.chainOf pausedRun.uid).map (fun x ↦ (x.runStatus, x.runCount)) =
      [(.completed, 1), (.new, 0)] ∧
    ∃ time,
      (¬NotedLate pausedRun.uid pausedStep.uid lateHandling.1 ∧
        LeftOnce noFailure queueSetup pausedScene pausedRun
          (answeredStep pausedStep firstAnswer time) [.ok (), .ok ()] lateHandling.2.2) ∨
      (NotedLate pausedRun.uid pausedStep.uid lateHandling.1 ∧
        LeftBehind pausedScene pausedRun (answeredStep pausedStep firstAnswer time)
          lateHandling.2.2) := by
  have hreach : Reachable queueSetup anyAnswer pausedScene :=
    (Collaborators.reachable_get _).weaken fun _ _ _ ↦ trivial
  have hq : pausedScene.tables.run? pausedRun.uid = some pausedRun := by decide +kernel
  have hpaused : pausedRun.runStatus = .paused := by decide +kernel
  have hheld : pausedRun.heldStepInstanceUid = none := by decide +kernel
  have hx : pausedScene.tables.step? firstAnswer.stepInstanceId = some pausedStep := by
    decide +kernel
  have hown : pausedStep.workflowInstanceUid = pausedRun.uid := by decide +kernel
  have hm : AnswersAttempt firstAnswer pausedStep := by
    refine ⟨by decide +kernel, fun a ha ↦ ?_⟩
    cases ha
    decide +kernel
  have hdone : lateHandling.2.1 = [.ok (), .ok ()] := by decide +kernel
  have hrun : Interleaves noFailure [((Operation.result firstAnswer).action queueSetup).run,
      ((Operation.resume pausedRun.uid).action queueSetup).run] pausedScene lateHandling.1
      (lateHandling.2.1.map .done) lateHandling.2.2 :=
    (willing.interleaves_get _).weaken fun _ _ ↦ Collaborators.noFailure_of_single
  rw [hdone] at hrun
  exact ⟨⟨hreach, hq, hpaused, hheld, hx, hown, hm, hrun⟩, by decide +kernel, by decide +kernel,
    by decide +kernel, left_once_or_noted_late hreach hq hpaused hheld hx hown hm hrun⟩

end Engine

end Orchestration
