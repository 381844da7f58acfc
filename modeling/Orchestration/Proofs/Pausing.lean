import Orchestration.Proofs.FinishedRuns
import Orchestration.Proofs.Driving
import Orchestration.Proofs.Recording

/-!
# Paused runs

A result that comes while its run is paused is written onto its step, and the run notes the step
that it has to leave. When it is resumed it takes the note back and leaves the step. So a pause
makes no difference in the end: to pause a run, handle a result and resume the run leads to the same
scenes as to handle the result at once.

This rests on two facts. A run that goes on holds nothing, whatever has happened before
(`Reachable.unheld`), so a resumed run holds what it has noted since it was paused and nothing else.
And which step a result makes its run leave is said by the steps, not by the status of the run
(`Drives.putRun`).

While it is paused a run stands still: its steps are launched and work is dispatched for it only if
it is resumed, because whoever launches a step has made sure that its run goes on.
-/

namespace Orchestration

namespace Engine

variable {R : Rule} {setup : Setup} {G : Uid → Prop} {o : Operation} {s₀ s s' : Scene}
variable {log l : List Moment} {t : Store.Tables} {q : WorkflowInstance} {m : StepResult}
variable {x y : StepInstance} {r : Except EngineError Unit}

/-! ## What a run holds -/

/-- **A run that goes on holds nothing**, whatever has happened before. -/
theorem Reachable.unheld (h : Reachable setup R s) : Unheld s.tables :=
  (sound_of_reachable (guiding_nobody R) h).clean.unheld

/-! ## Pausing and resuming -/

/-- A run that has the status which is asked for moves to another. -/
theorem writes_requireMove {run : Uid} {source target : RunStatus} (hq : t.run? run = some q)
    (hsource : q.runStatus = source) (hend : source.isTerminal = false) :
    Writes t (requireMove run source target) () (t.putRun { q with runStatus := target }) := by
  subst hsource
  have hans : t.answer (.updateRunStatus run target (some q.runStatus)) =
      (.ok true, t.putRun { q with runStatus := target }) := by
    show t.onRun run (Store.Tables.withStatus target _) = _
    rw [Store.Tables.onRun_of_some hq, Store.Tables.withStatus, if_neg (by simp [hend])]
  exact (writes_writeRunStatus hans).bind (.pure ())

/-- A resumed run leaves what it has held. -/
def Setup.release (setup : Setup) : Option Uid → Action Unit
  | some held => readStep held >>= setup.advance
  | none => pure ()

/-- What shows a run without looking at what is shown. -/
def showing (run : Uid) : Action Unit := state run >>= fun _ ↦ pure ()

theorem pause_eq (setup : Setup) (run : Uid) : (Operation.pause run).action setup =
    requireMove run .running .paused >>= fun _ ↦ showing run := by
  simp only [Operation.action, pause, showing, bind_assoc]

theorem resume_eq (setup : Setup) (run : Uid) : (Operation.resume run).action setup =
    requireMove run .paused .running >>= fun _ ↦ Action.store (.takeHeldStep run) >>= fun held ↦
      setup.release held >>= fun _ ↦ showing run := by
  simp only [Operation.action, Setup.resume, showing, bind_assoc]
  refine congrArg (bind _) (funext fun _ ↦ congrArg (bind _) (funext fun held ↦ ?_))
  cases held with
  | none => rfl
  | some u => simp only [Setup.release, bind_assoc]

theorem still_showing (run : Uid) : Still (showing run) :=
  .bind (still_state run) fun _ ↦ .pure _

/-- A run with another status that holds a step, or nothing. -/
def heldRun (q : WorkflowInstance) (status : RunStatus) (held : Option Uid) : WorkflowInstance :=
  { q with runStatus := status, heldStepInstanceUid := held }

/-- To take what a run holds that has just been resumed leaves it with nothing. -/
theorem writes_takeHeldStep (ht : t.Keyed) {run : Uid} (hq : t.run? run = some q) :
    Writes (t.putRun { q with runStatus := .running }) (Action.store (.takeHeldStep run))
      q.heldStepInstanceUid (t.putRun (heldRun q .running none)) := by
  have htaken := tables_moved_taken hq ht rfl
  have hwrites := Writes.store (c := .takeHeldStep run) (congrArg Prod.fst htaken) rfl
  rwa [htaken] at hwrites

theorem runs_pause (hq : s.tables.run? q.uid = some q) (hrunning : q.runStatus = .running)
    (hheld : q.heldStepInstanceUid = none)
    (h : Runs R ((Operation.pause q.uid).action setup) s r s') :
    s' = { s with tables := s.tables.putRun (heldRun q .paused none) } := by
  rw [pause_eq] at h
  rw [still_showing _ ((writes_requireMove hq hrunning rfl).next h), heldRun, ← hheld]

/-- What becomes of a paused run that is resumed: it leaves what it holds, or goes on as it is. -/
theorem runs_resume (ht : s.tables.Keyed) {run : Uid} (hq : s.tables.run? run = some q)
    (hpaused : q.runStatus = .paused)
    (h : Runs R ((Operation.resume run).action setup) s r s') :
    ∃ r₁, Runs R (setup.release q.heldStepInstanceUid)
      { s with tables := s.tables.putRun (heldRun q .running none) } r₁ s' := by
  rw [resume_eq] at h
  have hrest := (writes_requireMove hq hpaused rfl).next h
  have hrest := (writes_takeHeldStep ht hq).next hrest
  rcases runs_bind.1 hrest with ⟨e, h₁, -⟩ | ⟨_, s₁, h₁, hrest⟩
  · exact ⟨_, h₁⟩
  · rw [still_showing _ hrest]
    exact ⟨_, h₁⟩

namespace Lenient

variable (hR : Lenient R)

include hR

theorem required {run : Uid} {source target : RunStatus} (hq : s.tables.run? run = some q)
    (hsource : q.runStatus = source) (hend : source.isTerminal = false) :
    Runs R (requireMove run source target) s (.ok ())
      { s with tables := s.tables.putRun { q with runStatus := target } } := by
  have hfeasible : Feasible R (requireMove run source target) := by
    refine .bind (.bind (fun s ↦ ⟨_, _, runs_store.2 ⟨rfl, hR.store _ _, rfl⟩⟩) fun applied ↦ ?_)
      fun moved ↦ ?_
    · split
      · exact .bind (fun s ↦ ⟨_, s, hR.announced _⟩) fun _ ↦ .pure _
      · exact .pure _
    · split
      · exact .pure _
      · exact .bind ((reads_readRun _).feasible hR.store) fun _ s ↦
          ⟨_, s, runs_throw.2 ⟨rfl, rfl⟩⟩
  obtain ⟨r, s', hrun⟩ := hfeasible s
  obtain ⟨rfl, rfl⟩ := writes_requireMove hq hsource hend rfl hrun
  exact hrun

theorem shown (run : Uid) (s : Scene) : ∃ r, Runs R (showing run) s r s := by
  have hfeasible : Feasible R (showing run) :=
    .bind (.bind ((reads_readRun run).feasible hR.store) fun _ ↦
      .bind ((Reads.store rfl).feasible hR.store) fun _ ↦ .pure _) fun _ ↦ .pure _
  obtain ⟨r, s', h⟩ := hfeasible s
  exact ⟨r, still_showing run h ▸ h⟩

theorem paused (hq : s.tables.run? q.uid = some q) (hrunning : q.runStatus = .running)
    (hheld : q.heldStepInstanceUid = none) : ∃ r, Runs R ((Operation.pause q.uid).action setup) s r
      { s with tables := s.tables.putRun (heldRun q .paused none) } := by
  obtain ⟨r, hshown⟩ := hR.shown q.uid { s with tables := s.tables.putRun (heldRun q .paused none) }
  have hmoved : Runs R (requireMove q.uid .running .paused) s (.ok ())
      { s with tables := s.tables.putRun (heldRun q .paused none) } := by
    rw [heldRun, ← hheld]
    exact hR.required hq hrunning rfl
  exact ⟨r, pause_eq setup q.uid ▸ hmoved.andThen hshown⟩

theorem resumed (ht : s.tables.Keyed) {run : Uid} (hq : s.tables.run? run = some q)
    (hpaused : q.runStatus = .paused) (h : Runs R (setup.release q.heldStepInstanceUid)
      { s with tables := s.tables.putRun (heldRun q .running none) } r s') :
    ∃ r, Runs R ((Operation.resume run).action setup) s r s' := by
  rw [resume_eq]
  have hrest : ∃ r, Runs R (setup.release q.heldStepInstanceUid >>= fun _ ↦ showing run)
      { s with tables := s.tables.putRun (heldRun q .running none) } r s' := by
    cases r with
    | error e => exact ⟨_, runs_bind.2 (.inl ⟨e, h, rfl⟩)⟩
    | ok _ =>
      obtain ⟨r, hshown⟩ := hR.shown run s'
      exact ⟨r, h.andThen hshown⟩
  obtain ⟨r, hrest⟩ := hrest
  exact ⟨r, (hR.required hq hpaused rfl).andThen
    ((hR.written (writes_takeHeldStep ht hq)).andThen hrest)⟩

end Lenient

/-! ## A detour -/

/-- Operations are carried out one after the other, each to its end. -/
inductive InTurn (setup : Setup) (R : Rule) : List Operation → Scene → Scene → Prop where
  | none (s : Scene) : InTurn setup R [] s s
  | next {o : Operation} {rest : List Operation} {s s₁ s' : Scene} {r : Except EngineError Unit}
      (first : Runs R (o.action setup) s r s₁) (others : InTurn setup R rest s₁ s') :
      InTurn setup R (o :: rest) s s'

theorem inTurn_single : InTurn setup R [o] s s' ↔ ∃ r, Runs R (o.action setup) s r s' := by
  constructor
  · rintro (_ | ⟨hrun, _ | _⟩)
    exact ⟨_, hrun⟩
  · rintro ⟨r, hrun⟩
    exact .next hrun (.none s')

theorem writes_hold (hq : t.run? q.uid = some q) (u : Uid) :
    Writes t (Setup.hold q.uid u) () (t.putRun { q with heldStepInstanceUid := some u }) := by
  have hans : t.answer (.setHeldStep q.uid (some u)) =
      (.ok (), t.putRun { q with heldStepInstanceUid := some u }) :=
    Store.Tables.onRun_of_some hq _
  have hwrites := Writes.store (c := .setHeldStep q.uid (some u)) (congrArg Prod.fst hans) rfl
  rwa [hans] at hwrites

/-- A result is for a step of a run that is running. -/
structure Concerns (s : Scene) (m : StepResult) (q : WorkflowInstance) : Prop where
  run : s.tables.run? q.uid = some q
  running : q.runStatus = .running
  step : ∃ x, s.tables.step? m.stepInstanceId = some x ∧ x.workflowInstanceUid = q.uid

theorem heldRun_self (hrunning : q.runStatus = .running) (hheld : q.heldStepInstanceUid = none) :
    heldRun q .running none = q := by rw [heldRun, ← hrunning, ← hheld]

theorem heldRun_heldRun (q : WorkflowInstance) (status status' : RunStatus)
    (held held' : Option Uid) :
    heldRun (heldRun q status held) status' held' = heldRun q status' held' := rfl

section Detour

variable (hR : Lenient R) (h : Reachable setup anyAnswer s) (hm : Concerns s m q)

include hR h hm

theorem inTurn_of_detour (hrun : InTurn setup R [.pause q.uid, .result m, .resume q.uid] s s') :
    InTurn setup R [.result m] s s' := by
  obtain ⟨hq, hrunning, x, hx, hown⟩ := hm
  have ht := (sound_of_reachable (guiding_nobody _) h).keyed
  have hmem := (Store.Tables.mem_of_run? hq).1
  have hheld := h.unheld q hmem ⟨by rw [hrunning]; rfl, by rw [hrunning]; decide⟩
  have hcount := h.canCount x hx
  have hself := heldRun_self hrunning hheld
  obtain _ | ⟨h₁, _ | ⟨h₂, _ | ⟨h₃, _ | _⟩⟩⟩ := hrun
  obtain rfl := runs_pause hq hrunning hheld h₁
  set t₁ := s.tables.putRun (heldRun q .paused none) with ht₁
  have hk₁ : t₁.Keyed := ht.putRun _
  have hq₁ : t₁.run? q.uid = some (heldRun q .paused none) := ht.run?_putRun hq rfl
  have hback : t₁.putRun q = s.tables := by
    have hover : t₁.putRun q = s.tables.putRun q := Store.Tables.putRun_putRun rfl
    rw [hover, ht.putRun_self hmem]
  rw [inTurn_single]
  rcases runs_processResult_cases (s := { s with tables := t₁ }) hk₁ hx hcount (hown ▸ hq₁)
    (.inr rfl) h₂ with ⟨y, t, hdrives, hhold⟩ | ⟨hnone, rfl⟩
  · have hqt : t.run? q.uid = some (heldRun q .paused none) := by
      rw [Store.Tables.run?, hdrives.runs]
      exact hq₁
    have hkt := hdrives.keyed hk₁
    obtain ⟨-, rfl⟩ := writes_hold hqt y.uid rfl hhold
    have hqh : (t.putRun (heldRun q .paused (some y.uid))).run? q.uid =
        some (heldRun q .paused (some y.uid)) := hkt.run?_putRun hqt rfl
    obtain ⟨r₃, hrelease⟩ := runs_resume (hkt.putRun _) hqh rfl h₃
    -- The resumed run leaves the step in the records in which it would have been left at once.
    have hsame : (t.putRun (heldRun q .paused (some y.uid))).putRun (heldRun q .running none) =
        t.putRun q := by
      rw [hself]
      exact Store.Tables.putRun_putRun rfl
    have hy : t.step? y.uid = some y := hdrives.step? hk₁
    have hfound : Finds (t.putRun q) (readStep y.uid) (.ok y) := finds_readStep hy
    have hadvance : Runs R (setup.advance y) { s with tables := t.putRun q } r₃ s' := by
      refine Finds.next (s := { s with tables := t.putRun q }) hfound ?_
      rw [← hsame]
      exact hrelease
    refine ⟨r₃, hR.driven ht hx hcount (hown ▸ hq) (.inl hrunning) (hback ▸ hdrives.putRun q) ?_⟩
    rw [Setup.goFrom, if_neg (by rw [hrunning]; decide)]
    exact hadvance
  · obtain ⟨r₃, hrelease⟩ := runs_resume (s := { s with tables := t₁ }) hk₁ hq₁ rfl h₃
    have hsame : t₁.putRun (heldRun (heldRun q .paused none) .running none) = s.tables := by
      rw [heldRun_heldRun, hself, hback]
    have hs' : s' = s := by
      rw [(runs_pure.1 hrelease).2, hsame]
    subst hs'
    refine hR.undriven ht hx (hown ▸ hq) (.inl hrunning) fun y t hdrives ↦ ?_
    exact hnone y _ (hdrives.putRun (heldRun q .paused none))

theorem detour_of_inTurn (hrun : InTurn setup R [.result m] s s') :
    InTurn setup R [.pause q.uid, .result m, .resume q.uid] s s' := by
  obtain ⟨hq, hrunning, x, hx, hown⟩ := hm
  have ht := (sound_of_reachable (guiding_nobody _) h).keyed
  have hmem := (Store.Tables.mem_of_run? hq).1
  have hheld := h.unheld q hmem ⟨by rw [hrunning]; rfl, by rw [hrunning]; decide⟩
  have hcount := h.canCount x hx
  have hself := heldRun_self hrunning hheld
  set t₁ := s.tables.putRun (heldRun q .paused none) with ht₁
  have hk₁ : t₁.Keyed := ht.putRun _
  have hq₁ : t₁.run? q.uid = some (heldRun q .paused none) := ht.run?_putRun hq rfl
  have hback : t₁.putRun q = s.tables := by
    have hover : t₁.putRun q = s.tables.putRun q := Store.Tables.putRun_putRun rfl
    rw [hover, ht.putRun_self hmem]
  obtain ⟨r₁, hpause⟩ : ∃ r, Runs R ((Operation.pause q.uid).action setup) s r
      { s with tables := t₁ } := hR.paused hq hrunning hheld
  obtain ⟨r, hresult⟩ := inTurn_single.1 hrun
  rcases runs_processResult_cases ht hx hcount (hown ▸ hq) (.inl hrunning) hresult with
    ⟨y, t, hdrives, hadvance⟩ | ⟨hnone, rfl⟩
  · rw [Setup.goFrom, if_neg (by rw [hrunning]; decide)] at hadvance
    set t₂ := t.putRun (heldRun q .paused none) with ht₂
    have hdriven : Drives t₁ m y t₂ := hdrives.putRun _
    have hqt : t.run? q.uid = some q := by
      rw [Store.Tables.run?, hdrives.runs]
      exact hq
    have hkt := hdrives.keyed ht
    have hq₂ : t₂.run? q.uid = some (heldRun q .paused none) := hkt.run?_putRun hqt rfl
    set t₃ := t₂.putRun (heldRun q .paused (some y.uid)) with ht₃
    have hk₃ : t₃.Keyed := (hkt.putRun _).putRun _
    have hq₃ : t₃.run? q.uid = some (heldRun q .paused (some y.uid)) :=
      (hkt.putRun _).run?_putRun hq₂ rfl
    have hhold : Runs R (setup.goFrom (heldRun q .paused none) y) { s with tables := t₂ } (.ok ())
        { s with tables := t₃ } :=
      hR.written (s := { s with tables := t₂ }) (writes_hold hq₂ y.uid)
    have hhandled : Runs R (setup.processResult m) { s with tables := t₁ } (.ok ())
        { s with tables := t₃ } :=
      hR.driven (s := { s with tables := t₁ }) hk₁ hx hcount (hown ▸ hq₁) (.inr rfl) hdriven hhold
    -- The note is taken back, and the step is left in the records in which it was left at once.
    have hsame : t₃.putRun (heldRun q .running none) = t := by
      have hnote : t₃.putRun q = t₂.putRun q := Store.Tables.putRun_putRun rfl
      have hpaused : t₂.putRun q = t.putRun q := Store.Tables.putRun_putRun rfl
      rw [hself, hnote, hpaused, hkt.putRun_self (Store.Tables.mem_of_run? hqt).1]
    have hfound : Finds t (readStep y.uid) (.ok y) := finds_readStep (hdrives.step? ht)
    have hrelease : Runs R (setup.release (some y.uid))
        { s with tables := t₃.putRun (heldRun q .running none) } r s' := by
      rw [hsame]
      exact hR.found (s := { s with tables := t }) hfound hadvance
    obtain ⟨r₃, hresume⟩ := hR.resumed (s := { s with tables := t₃ }) hk₃ hq₃ rfl hrelease
    exact .next hpause (.next hhandled (.next hresume (.none _)))
  · have hnone₁ : ∀ y t, ¬Drives t₁ m y t := fun y t hdrives ↦
      hnone y _ (hback ▸ hdrives.putRun q)
    obtain ⟨r₂, hhandled⟩ : ∃ r, Runs R (setup.processResult m) { s' with tables := t₁ } r
        { s' with tables := t₁ } :=
      hR.undriven (s := { s' with tables := t₁ }) hk₁ hx (hown ▸ hq₁) (.inr rfl) hnone₁
    have hsame : t₁.putRun (heldRun (heldRun q .paused none) .running none) = s'.tables := by
      rw [heldRun_heldRun, hself, hback]
    have hrelease : Runs R (setup.release none)
        { s' with tables := t₁.putRun (heldRun (heldRun q .paused none) .running none) } (.ok ())
        s' := by
      rw [hsame]
      exact runs_pure.2 ⟨rfl, rfl⟩
    obtain ⟨r₃, hresume⟩ := hR.resumed (s := { s' with tables := t₁ }) hk₁ hq₁ rfl hrelease
    exact .next hpause (.next hhandled (.next hresume (.none _)))

end Detour

/-! ## Standing still -/

theorem Deed.launches (h : Deed setup G o s₀ log s l s') (hs : Sound setup G s)
    (hs' : Sound setup G s') (u : Uid) : (∀ c ∈ l, c.launches u = false) ∨
      ∃ x q, s.tables.step? u = some x ∧ s.tables.run? x.workflowInstanceUid = some q ∧
        GoesOn q := by
  cases h.affects hs hs' u with
  | launch q x input time hx _ _ _ _ _ hq hgoes => exact .inr ⟨x, q, hx, hq, hgoes⟩
  | not hl | select _ _ hl | record _ _ _ _ hl | made _ hl | removed hl =>
    exact .inl fun c hc ↦ (hl c hc).2.2
  | grant _ _ _ _ _ hl | refuse _ _ _ _ _ hl =>
    refine .inl fun c hc ↦ ?_
    rw [hl] at hc
    rw [List.mem_singleton.1 hc]
    rfl

theorem Affects.own {u : Uid} (h : Affects setup G o log s u l s') (hu : u ∈ s.issued)
    (hy : s'.tables.step? u = some y) :
    ∃ x, s.tables.step? u = some x ∧ y.workflowInstanceUid = x.workflowInstanceUid := by
  have hsome : ∀ {x z : StepInstance}, s.tables.step? u = some x → s'.tables.step? u = some z →
      z.workflowInstanceUid = x.workflowInstanceUid →
      ∃ x, s.tables.step? u = some x ∧ y.workflowInstanceUid = x.workflowInstanceUid := by
    intro x z hx hz hown
    obtain rfl := Option.some.inj (hz.symm.trans hy)
    exact ⟨x, hx, hown⟩
  cases h with
  | not _ hsame => exact hsome (hsame ▸ hy) hy rfl
  | launch _ _ _ _ hx _ _ _ _ h => exact hsome hx h rfl
  | select _ _ _ hx h => exact hsome hx h rfl
  | grant _ hx _ _ _ _ h => exact hsome hx h rfl
  | refuse _ hx _ _ _ _ h =>
    subst h
    exact hsome hy hy rfl
  | record _ _ _ _ _ _ hx _ _ h => exact hsome hx h rfl
  | made x _ hxu hmade => exact absurd (hxu ▸ hu) hmade.unknown
  | removed _ hnone => cases hnone.symm.trans hy

/-- A run that does not go on is made to go on only by an operator who resumes it. -/
theorem Deed.waits {u : Uid} (h : Deed setup G o s₀ log s l s') (hs : Sound setup G s)
    (ho : o ≠ .resume u) (hu : u ∈ s.issued)
    (hwaits : ∀ p, s.tables.run? u = some p → ¬GoesOn p) :
    ∀ p, s'.tables.run? u = some p → ¬GoesOn p := by
  have hput : ∀ {q p' : WorkflowInstance}, s.tables.run? q.uid = some q → p'.uid = q.uid →
      (q.uid = u → ¬GoesOn q → ¬GoesOn p') →
        ∀ p, (s.tables.putRun p').run? u = some p → ¬GoesOn p := by
    intro q p' hq hpu hkeep p hp
    by_cases hqu : q.uid = u
    · subst hqu
      obtain rfl := Option.some.inj ((hs.keyed.run?_putRun hq hpu).symm.trans hp)
      exact hkeep rfl (hwaits q hq)
    · rw [Store.Tables.run?_putRun_of_ne (hpu.symm ▸ hqu)] at hp
      exact hwaits p hp
  have hended : ∀ {p : WorkflowInstance}, p.runStatus.isTerminal = true → ¬GoesOn p := by
    intro p hp hgoes
    have hno := hgoes.1
    rw [hp] at hno
    cases hno
  cases h with
  | idle | refuse | dispatch | cancel | outcome | launch | select | grant | record => exact hwaits
  | again q told s' _ _ _ htold => exact htold.tables.1 ▸ hwaits
  | make definition steps input parent parentStep run uids time instances new l s₁ _ _ _ hrun _ _
      hnew =>
    intro p hp
    have hne : u ≠ new.uid := by
      rintro rfl
      rw [hnew] at hu
      exact hrun hu
    have hold : (withRun s.tables new instances).run? u = s.tables.run? u :=
      Store.find?_append_of_ne fun r hr hru ↦ hne (hru.symm.trans (by rw [List.mem_singleton.1 hr]))
    exact hwaits p (hold.symm.trans hp)
  | startTime q time hq hnew =>
    exact hput hq rfl fun _ hno ↦ absurd ⟨by rw [hnew]; rfl, by rw [hnew]; decide⟩ hno
  | move q status expected hq hmove =>
    refine hput hq rfl fun _ hno ↦ absurd ?_ hno
    unfold GoesOn
    generalize q.runStatus = before at hmove
    cases hmove <;> exact ⟨rfl, by decide⟩
  | resume q rest hresume hq => exact hput hq rfl fun hqu ↦ absurd (hqu ▸ hresume) ho
  | hold q x hq hpaused => exact hput hq rfl fun _ _ hgoes ↦ hgoes.2 hpaused
  | finish q status failure output time rest told s' hq _ hends _ htold =>
    rw [htold.tables.1]
    exact hput hq rfl fun _ _ ↦ hended hends.isTerminal
  | quit q status failure time expected rest hquits hq =>
    refine hput hq rfl fun _ _ ↦ hended ?_
    cases hquits <;> rfl
  | remove uids =>
    intro p hp
    rw [run?_remove] at hp
    split at hp
    · cases hp
    · exact hwaits p hp

/-- Nothing has been done for a run that does not go on: none of its steps has been launched, and no
work has been dispatched for it. -/
structure StandsStill (setup : Setup) (u : Uid) (cs : List StepInstance) (s₀ : Scene)
    (log : List Moment) (s : Scene) : Prop where
  known : u ∈ s.issued ∧ ∀ x ∈ cs, x.uid ∈ s.issued
  waits : ∀ p, s.tables.run? u = some p → ¬GoesOn p
  own : ∀ x ∈ cs, ∀ y, s.tables.step? x.uid = some y → y.workflowInstanceUid = u
  launches : ∀ x ∈ cs, ∀ c ∈ log, c.launches x.uid = false
  work : ∃ ds : List Dispatch, s.handOvers = s₀.handOvers ++ ds.map setup.parcelOf ∧
    ∀ d ∈ ds, d.step.workflowInstanceUid ≠ u

theorem StandsStill.after {u : Uid} {cs : List StepInstance} {t₀ : Scene}
    (h : StandsStill setup u cs t₀ log s) (hs : Sound setup G s) (hs' : Sound setup G s')
    (deed : Deed setup G o s₀ log s l s') (ho : o ≠ .resume u) :
    StandsStill setup u cs t₀ (log ++ l) s' where
  known := ⟨deed.issued_subset h.known.1, fun x hx ↦ deed.issued_subset (h.known.2 x hx)⟩
  waits := deed.waits hs ho h.known.1 h.waits
  own := by
    intro x hx y hy
    obtain ⟨z, hz, hown⟩ := (deed.affects hs hs' x.uid).own (h.known.2 x hx) hy
    rw [hown]
    exact h.own x hx z hz
  launches := by
    intro x hx c hc
    rcases List.mem_append.1 hc with hc | hc
    · exact h.launches x hx c hc
    rcases deed.launches hs hs' x.uid with hl | ⟨y, q, hy, hq, hgoes⟩
    · exact hl c hc
    · rw [h.own x hx y hy] at hq
      exact absurd hgoes (h.waits q hq)
  work := by
    obtain ⟨ds, hds, hother⟩ := h.work
    rcases deed.handOvers with hsame | ⟨d, q, hd, hq, hgoes⟩
    · exact ⟨ds, hsame.trans hds, hother⟩
    · refine ⟨ds ++ [d], ?_, fun e he ↦ ?_⟩
      · rw [hd, hds, List.map_append, List.append_assoc]
        rfl
      · rcases List.mem_append.1 he with he | he
        · exact hother e he
        · rw [List.mem_singleton.1 he]
          rintro rfl
          exact h.waits q hq hgoes

/-- **A paused run stands still** in every operation but the one that resumes it. -/
theorem Reachable.standsStill (h : Reachable setup anyAnswer s)
    (hq : s.tables.run? q.uid = some q) (hpaused : q.runStatus = .paused) (ho : o ≠ .resume q.uid)
    (hlogs : Logs R (o.action setup) s log r s') :
    StandsStill setup q.uid (s.tables.chainOf q.uid) s log s' := by
  have hs := sound_of_reachable (guiding_nobody _) h
  obtain ⟨ds, hst, -⟩ := hs.standing
  have hbegin : StandsStill setup q.uid (s.tables.chainOf q.uid) s [] s :=
    { known := ⟨hst.runsIssued q (Store.Tables.mem_of_run? hq).1, fun x hx ↦
        hst.stepsIssued x (Store.Tables.mem_chainOf.1 hx).1⟩
      waits := by
        intro p hp hgoes
        obtain rfl := Option.some.inj (hq.symm.trans hp)
        exact hgoes.2 hpaused
      own := by
        intro x hx y hy
        obtain ⟨hmem, hown⟩ := Store.Tables.mem_chainOf.1 hx
        obtain rfl := Option.some.inj ((hs.keyed.step?_iff.2 ⟨hmem, rfl⟩).symm.trans hy)
        exact hown
      launches := fun _ _ c hc ↦ nomatch hc
      work := ⟨[], (List.append_nil _).symm, fun d hd ↦ nomatch hd⟩ }
  exact (deeds_of_logs (guiding_nobody _) hs hlogs).holds hbegin
    fun _ _ _ _ hs hs' deed hstill ↦ hstill.after hs hs' deed ho

/-! ## Pausing makes no difference -/

/-- **Pausing is transparent.** Whatever has happened before, to pause a run that is running, handle
a result of one of its steps and resume the run leads to the same scenes as to handle the result at
once, whatever the result says and however often it comes. And while a run is paused, no operation
but the one that resumes it launches a step of it or dispatches work for it, whatever fails. -/
theorem pausing_transparent (hR : Lenient R) (h : Reachable setup anyAnswer s)
    (hm : Concerns s m q) :
    (InTurn setup R [.pause q.uid, .result m, .resume q.uid] s s' ↔
      InTurn setup R [.result m] s s') ∧
    ∀ (s₁ : Scene) (p : WorkflowInstance), Reachable setup anyAnswer s₁ →
      s₁.tables.run? p.uid = some p → p.runStatus = .paused →
      ∀ (o : Operation) (log : List Moment) (r : Except EngineError Unit) (s₂ : Scene),
        o ≠ .resume p.uid → Logs anyAnswer (o.action setup) s₁ log r s₂ →
          (∀ q, s₂.tables.run? p.uid = some q → ¬GoesOn q) ∧
          (∀ x ∈ s₁.tables.chainOf p.uid, ∀ c ∈ log, c.launches x.uid = false) ∧
          ∃ ds : List Dispatch, s₂.handOvers = s₁.handOvers ++ ds.map setup.parcelOf ∧
            ∀ d ∈ ds, d.step.workflowInstanceUid ≠ p.uid := by
  refine ⟨⟨inTurn_of_detour hR h hm, detour_of_inTurn hR h hm⟩, ?_⟩
  intro s₁ p h₁ hp hpaused o log r s₂ ho hlogs
  have hstill := h₁.standsStill hp hpaused ho hlogs
  exact ⟨hstill.waits, hstill.launches, hstill.work⟩

/-- The first step of the run is answered at once. -/
def promptScene : Scene :=
  ((willing.perform (queueSetup.processResult firstAnswer).run underwayScene).get
    (by decide +kernel)).2

/-- The run is paused while its first step is under way. -/
def pausedScene : Scene :=
  (willing.performAll queueSetup [.start (.ofNat 1) [] none none, .pause (World.nthUid 0)] {}).get
    (by decide +kernel)

def pausedRun : WorkflowInstance :=
  (pausedScene.tables.run? (World.nthUid 0)).get (by decide +kernel)

/-- Its first step is answered while it is paused. -/
def patientHandling : Except EngineError Unit × List Moment × Scene :=
  (willing.record 0 (queueSetup.processResult firstAnswer).run pausedScene).get (by decide +kernel)

theorem pausing_transparent_underway :
    (Reachable queueSetup anyAnswer underwayScene ∧ Concerns underwayScene firstAnswer underwayRun ∧
      Reachable queueSetup anyAnswer pausedScene ∧
      pausedScene.tables.run? pausedRun.uid = some pausedRun ∧ pausedRun.runStatus = .paused ∧
      Operation.result firstAnswer ≠ .resume pausedRun.uid ∧
      Logs anyAnswer ((Operation.result firstAnswer).action queueSetup) pausedScene
        patientHandling.2.1 patientHandling.1 patientHandling.2.2) ∧
    InTurn queueSetup noFailure [.result firstAnswer] underwayScene promptScene ∧
    InTurn queueSetup noFailure
      [.pause underwayRun.uid, .result firstAnswer, .resume underwayRun.uid] underwayScene
      promptScene ∧
    (∀ q, patientHandling.2.2.tables.run? pausedRun.uid = some q → ¬GoesOn q) ∧
    (∀ x ∈ pausedScene.tables.chainOf pausedRun.uid, ∀ c ∈ patientHandling.2.1,
      c.launches x.uid = false) ∧
    ∃ ds : List Dispatch,
      patientHandling.2.2.handOvers = pausedScene.handOvers ++ ds.map queueSetup.parcelOf ∧
        ∀ d ∈ ds, d.step.workflowInstanceUid ≠ pausedRun.uid := by
  have hreach : Reachable queueSetup anyAnswer underwayScene :=
    (Collaborators.reachable_get _).weaken fun _ _ _ ↦ trivial
  have hpausedReach : Reachable queueSetup anyAnswer pausedScene :=
    (Collaborators.reachable_get _).weaken fun _ _ _ ↦ trivial
  have hconcerns : Concerns underwayScene firstAnswer underwayRun :=
    { run := by decide +kernel
      running := by decide +kernel
      step := ⟨underwayStep, by decide +kernel, by decide +kernel⟩ }
  have hpausedRun : pausedScene.tables.run? pausedRun.uid = some pausedRun := by decide +kernel
  have hpaused : pausedRun.runStatus = .paused := by decide +kernel
  have hother : Operation.result firstAnswer ≠ .resume pausedRun.uid := fun h ↦ nomatch h
  have hlogs : Logs anyAnswer ((Operation.result firstAnswer).action queueSetup) pausedScene
      patientHandling.2.1 patientHandling.1 patientHandling.2.2 :=
    (willing.logged_get _).weaken fun _ _ _ ↦ trivial
  have hprompt : InTurn queueSetup noFailure [.result firstAnswer] underwayScene promptScene :=
    inTurn_single.2 ⟨_, (Collaborators.leads_get _ _).weaken fun _ _ ↦
      Collaborators.noFailure_of_single⟩
  obtain ⟨⟨-, hdetour⟩, hstill⟩ := pausing_transparent lenient_noFailure hreach hconcerns
  exact ⟨⟨hreach, hconcerns, hpausedReach, hpausedRun, hpaused, hother, hlogs⟩, hprompt,
    hdetour hprompt, hstill _ _ hpausedReach hpausedRun hpaused _ _ _ _ hother hlogs⟩

end Engine

end Orchestration
