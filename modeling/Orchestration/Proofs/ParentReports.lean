import Orchestration.Proofs.Effects
import Orchestration.Proofs.Recording

/-!
# Reports to parent steps

A run of a sub-workflow reports how it ended to the step that has started it: when it ends, and
again whenever the last result of one of its steps is repeated. The first report is put together
from what ends the run, the others from its record, and a step may have been launched several times,
each time with a run of its own. All the same the reports agree: whatever is told about one attempt
of a step is told by one run, in the same words, and the run is the latest one that the step has
started (`reports_agree`).

Whether a run may report depends on times: a step waits for runs that were made after its launch. So
the clock has to go forward. Every run that was made below a step before its latest launch is then
older than the launch (`Tracked`), and a report that was made for the attempt in flight was made by
the latest run (`Heard`), because the attempt ends before the step is launched again.
-/

namespace Orchestration

namespace Engine

open Chain

variable {R : Rule} {setup : Setup} {G : Uid → Prop} {o : Operation} {s₀ s s' : Scene}
variable {log l L : List Moment} {p : Uid} {q : WorkflowInstance} {x : StepInstance}

/-! ## The clock -/

def Moment.reading? : Moment → Option Instant
  | ⟨_, .now, time⟩ => some time
  | _ => none

def readings (log : List Moment) : List Instant := log.filterMap Moment.reading?

/-- The clock goes forward. -/
def Forwards (log : List Moment) : Prop := (readings log).Pairwise fun a b ↦ a.before b = true

theorem Forwards.left (h : Forwards (L ++ l)) : Forwards L := by
  unfold Forwards readings at h
  rw [List.filterMap_append] at h
  exact (List.pairwise_append.1 h).1

/-- A time was read, and something was called afterwards. -/
def ReadBefore (L : List Moment) (time : Instant) : Prop :=
  ∃ m ∈ L.dropLast, m.reading? = some time

theorem ReadBefore.append {time : Instant} (h : ReadBefore L time) (l : List Moment) :
    ReadBefore (L ++ l) time := by
  obtain ⟨m, hm, htime⟩ := h
  refine ⟨m, ?_, htime⟩
  cases l with
  | nil => rwa [List.append_nil]
  | cons m' l =>
    rw [List.dropLast_append_of_ne_nil (List.cons_ne_nil m' l)]
    exact List.mem_append_left _ (List.dropLast_subset _ hm)

theorem ReadBefore.before_of_justRead {time read : Instant} {pre : List Moment}
    (h : ReadBefore (pre ++ log) read) (hjust : JustRead log s time)
    (hclock : Forwards (pre ++ log)) :
    read.before time = true := by
  obtain ⟨before, rfl⟩ := hjust
  rw [← List.append_assoc] at h hclock
  obtain ⟨m, hm, hread⟩ := h
  rw [List.dropLast_concat] at hm
  unfold Forwards readings at hclock
  rw [List.filterMap_append] at hclock
  exact (List.pairwise_append.1 hclock).2.2 read (List.mem_filterMap.2 ⟨m, hm, hread⟩) time
    (List.mem_filterMap.2 ⟨_, List.mem_singleton_self _, rfl⟩)

/-! ## The latest run below a step -/

/-- The latest run below a step since its latest launch, after one more call. -/
def childAfter (p : Uid) (child : Option Uid) (m : Moment) : Option Uid :=
  if m.launches p then none
  else
    match m.inserted? with
    | some run => if run.parentStepInstanceUid = some p then some run.uid else child
    | none => child

/-- The latest run that has been made below a step since its latest launch. -/
def latestChild (p : Uid) (log : List Moment) : Option Uid := log.foldl (childAfter p) none

theorem latestChild_append (L l : List Moment) :
    latestChild p (L ++ l) = l.foldl (childAfter p) (latestChild p L) := List.foldl_append

theorem foldl_childAfter_of_none {child : Option Uid}
    (h : ∀ m ∈ l, m.launches p = false ∧ m.inserted? = none) :
    l.foldl (childAfter p) child = child := by
  induction l generalizing child with
  | nil => rfl
  | cons m rest ih =>
    obtain ⟨hlaunch, hinsert⟩ := h m List.mem_cons_self
    have hm : childAfter p child m = child := by simp [childAfter, hlaunch, hinsert]
    rw [List.foldl_cons, hm]
    exact ih fun m hm ↦ h m (List.mem_cons_of_mem _ hm)

theorem latestChild_of_launched {before after : List Moment} {m : Moment}
    (hm : m.launches p = true) (hafter : ∀ m ∈ after, m.Idle) (pre : List Moment) :
    latestChild p (pre ++ (before ++ m :: after)) = none := by
  rw [← List.append_assoc, latestChild_append, List.foldl_cons,
    foldl_childAfter_of_none fun m hm ↦ ⟨(hafter m hm).launches, (hafter m hm).inserted?⟩]
  exact if_pos hm

/-- A new run is the latest one below its parent step, and below no other. -/
theorem Births.foldl_childAfter {new : WorkflowInstance} (h : Births o log s l s' new)
    (child : Option Uid) : l.foldl (childAfter p) child =
      if new.parentStepInstanceUid = some p then some new.uid else child := by
  obtain ⟨l₁, t, instances, rfl, hl₁⟩ := h.calls
  have hfirst : ∀ m ∈ l₁ ++ [⟨t, .now, new.createdAt⟩], m.launches p = false ∧ m.inserted? =
      none := by
    intro m hm
    rcases List.mem_append.1 hm with hm | hm
    · have hcall := hl₁ m hm
      exact ⟨(spares_of_call (fun _ _ _ h ↦ nomatch hcall.symm.trans h)
        fun _ h ↦ nomatch hcall.symm.trans h).2.2,
        Moment.inserted?_of_call fun _ _ h ↦ nomatch hcall.symm.trans h⟩
    · rw [List.mem_singleton.1 hm]
      exact ⟨rfl, rfl⟩
  rw [show l₁ ++ [⟨t, .now, new.createdAt⟩, ⟨t, .store (.insertRun new instances), .ok ()⟩] =
    (l₁ ++ [⟨t, .now, new.createdAt⟩]) ++ [⟨t, .store (.insertRun new instances), .ok ()⟩] by simp,
    List.foldl_append, foldl_childAfter_of_none hfirst]
  rfl

/-! ## What is known of a step and the runs below it -/

/-- Whether an operation starts a run below a step from outside. -/
def Operation.startsBelow (p : Uid) : Operation → Bool
  | .start _ _ _ parentStep => parentStep == some p
  | _ => false

/-- What is known of a step and of the runs below it, after some calls. -/
structure Tracked (p : Uid) (L : List Moment) (s : Scene) : Prop where
  /-- The clock was read when a run was made. -/
  read : ∀ q ∈ s.tables.runs, ReadBefore L q.createdAt
  launched : ∀ m ∈ L, m.launches p = true → p ∈ s.issued
  parent : ∀ q ∈ s.tables.runs, q.parentStepInstanceUid = some p → p ∈ s.issued
  started : ∀ x, s.tables.step? p = some x → x.runStatus = .running → x.startTime ≠ none
  /-- A run below the step is the latest one, or was made before the step was launched. -/
  child : ∀ q ∈ s.tables.runs, q.parentStepInstanceUid = some p → ∀ x, s.tables.step? p = some x →
    latestChild p L = some q.uid ∨ ∃ t, x.startTime = some t ∧ q.createdAt.before t = true

theorem tracked_empty (p : Uid) : Tracked p [] {} where
  read _ hq := nomatch hq
  launched _ hm := nomatch hm
  parent _ hq := nomatch hq
  started _ hx := nomatch hx
  child _ hq := nomatch hq

theorem Tracked.latest_of_awaits (h : Tracked p L s) (hq : q ∈ s.tables.runs)
    (hp : q.parentStepInstanceUid = some p) (hx : s.tables.step? p = some x)
    (hwaits : awaits x q = true) : latestChild p L = some q.uid := by
  refine (h.child q hq hp x hx).resolve_right ?_
  rintro ⟨t, ht, hbefore⟩
  simp [awaits, ht, hbefore] at hwaits

/-- A new run below a step belongs to its latest launch, and is the first one that does. -/
theorem Births.first {new : WorkflowInstance} (h : Births o log s l s' new)
    (ho : o.startsBelow p = false) (hp : new.parentStepInstanceUid = some p) (pre : List Moment) :
    latestChild p (pre ++ log) = none ∧ ∃ m ∈ log, m.launches p = true := by
  cases h.origin with
  | outside workflow input hstart =>
    rw [hstart, hp] at ho
    exact absurd (beq_self_eq_true (some p)) (Bool.eq_false_iff.1 ho)
  | launch x before after m hlog hm hafter _ hstep =>
    obtain rfl : p = x.uid := Option.some.inj (hp.symm.trans hstep)
    refine ⟨?_, m, ?_, hm⟩
    · rw [hlog]
      exact latestChild_of_launched hm hafter pre
    · rw [hlog]
      exact List.mem_append_right _ List.mem_cons_self

/-- A deed that does not launch a step leaves the latest run below it: there is none when a run is
made below the step. -/
theorem Deed.keepsChild (h : Deed setup G o s₀ log s l s') (ho : o.startsBelow p = false)
    (hl : ∀ m ∈ l, m.launches p = false) {pre : List Moment} {child : Uid}
    (hchild : latestChild p (pre ++ log) = some child) :
    latestChild p (pre ++ log ++ l) = some child := by
  rw [latestChild_append (pre ++ log)]
  rcases h.births with ⟨hnone, -⟩ | ⟨new, hnew⟩
  · rw [foldl_childAfter_of_none fun m hm ↦ ⟨hl m hm, hnone m hm⟩]
    exact hchild
  · rw [hnew.foldl_childAfter]
    by_cases hp : new.parentStepInstanceUid = some p
    · cases (hnew.first ho hp pre).1.symm.trans hchild
    · rw [if_neg hp]
      exact hchild

theorem Births.readBefore {new : WorkflowInstance} (h : Births o log s l s' new) (L : List Moment) :
    ReadBefore (L ++ l) new.createdAt := by
  obtain ⟨l₁, t, instances, rfl, -⟩ := h.calls
  refine ⟨⟨t, .now, new.createdAt⟩, ?_, rfl⟩
  rw [List.dropLast_append_of_ne_nil (by simp), List.dropLast_append_of_ne_nil (by simp)]
  exact List.mem_append_right _ (List.mem_append_right _ (List.mem_singleton_self _))

/-- A run below a step is the latest one after a deed if it was before or has just been made. If the
step has just been launched, the run is older than the launch. -/
theorem Tracked.child_after {pre : List Moment} (h : Tracked p (pre ++ log) s)
    (hs : Sound setup G s) (hs' : Sound setup G s') (deed : Deed setup G o s₀ log s l s')
    (ho : o.startsBelow p = false)
    (hclock : Forwards (pre ++ log)) (hq : q ∈ s'.tables.runs)
    (hp : q.parentStepInstanceUid = some p)
    {y : StepInstance} (hy : s'.tables.step? p = some y) :
    latestChild p (pre ++ log ++ l) = some q.uid ∨
      ∃ t, y.startTime = some t ∧ q.createdAt.before t = true := by
  rcases deed.same_or_born hq with ⟨q₀, hq₀, hsame⟩ | hborn
  · rw [hsame.parentStep] at hp
    rw [hsame.uid, hsame.createdAt]
    rcases (deed.affects hs hs' p).becomes hy with ⟨x, hx, hbecomes⟩ | ⟨rfl, hmade, -⟩
    · cases hbecomes with
      | launched input time _ hjust =>
        exact .inr ⟨time, rfl, (h.read q₀ hq₀).before_of_justRead hjust hclock⟩
      | answered m time hl => exact (h.child q₀ hq₀ hp x hx).imp_left (deed.keepsChild ho hl)
      | same _ hl _ _ hstart =>
        rw [hstart]
        exact (h.child q₀ hq₀ hp x hx).imp_left (deed.keepsChild ho hl)
    · exact absurd (h.parent q₀ hq₀ hp) hmade.unknown
  · rw [latestChild_append (pre ++ log), hborn.foldl_childAfter, if_pos hp]
    exact .inl rfl

theorem Tracked.after {pre : List Moment} (h : Tracked p (pre ++ log) s) (hs : Sound setup G s)
    (hs' : Sound setup G s') (deed : Deed setup G o s₀ log s l s') (ho : o.startsBelow p = false)
    (hclock : Forwards (pre ++ log)) : Tracked p (pre ++ log ++ l) s' where
  read q hq := by
    rcases deed.same_or_born hq with ⟨q₀, hq₀, hsame⟩ | hborn
    · exact hsame.createdAt ▸ (h.read q₀ hq₀).append l
    · exact hborn.readBefore (pre ++ log)
  launched m hm hlaunch := by
    rcases List.mem_append.1 hm with hm | hm
    · exact deed.issued_subset (h.launched m hm hlaunch)
    · by_contra hunknown
      have hspares := (deed.affects hs hs' p).spares_of_unknown hs
        fun hp ↦ hunknown (deed.issued_subset hp)
      rw [(hspares m hm).2.2] at hlaunch
      cases hlaunch
  parent q hq hp := by
    refine deed.issued_subset ?_
    rcases deed.same_or_born hq with ⟨q₀, hq₀, hsame⟩ | hborn
    · exact h.parent q₀ hq₀ (hsame.parentStep ▸ hp)
    · obtain ⟨-, m, hm, hlaunch⟩ := hborn.first ho hp pre
      exact h.launched m (List.mem_append_right _ hm) hlaunch
  started y hy hrunning := by
    rcases (deed.affects hs hs' p).becomes hy with ⟨x, hx, hbecomes⟩ | ⟨-, hmade, -⟩
    · cases hbecomes with
      | launched input time => exact Option.some_ne_none time
      | answered m time _ hrunning' => exact h.started x hx hrunning'
      | same _ _ hstatus _ hstart => exact hstart ▸ h.started x hx (hstatus ▸ hrunning)
    · -- A step that has just been made does not run.
      rw [hmade.status] at hrunning
      cases hrunning
  child q hq hp y hy := h.child_after hs hs' deed ho hclock hq hp hy

/-! ## Reports -/

/-- A finished run tells the step that has started it how it ended. -/
structure Reports (m : Moment) (q : WorkflowInstance) (parent : Uid) (x : StepInstance) : Prop where
  offered : m.offered? .results = some (recordedVerdict q parent x).toJson.text
  run : m.scene.tables.run? q.uid = some q
  ended : q.runStatus.isTerminal = true
  parent : q.parentInstanceUid = some parent
  parentStep : q.parentStepInstanceUid = some x.uid
  step : m.scene.tables.step? x.uid = some x
  waits : awaits x q = true

/-- Work that could not be handed over comes back as a canceled result. -/
structure Cancels (m : Moment) (x : StepInstance) (reason : String) : Prop where
  offered : m.offered? .results =
    some (StepResult.canceled x.workflowInstanceUid x.uid (attemptOf x) reason).toJson.text
  step : m.scene.tables.step? x.uid = some x
  running : x.runStatus = .running

theorem Moment.offered?_of_call {m : Moment}
    (h : ∀ payload, m.call ≠ .publish .results payload) : m.offered? .results = none :=
  Option.eq_none_iff_forall_ne_some.2 fun payload hp ↦ h payload (call_of_offered hp)

theorem offered?_of_isIdle {m : Moment} (h : m.call.isIdle = true) :
    m.offered? .results = none :=
  Moment.offered?_of_call fun _ hcall ↦ by rw [hcall] at h; cases h

theorem offered?_of_isEnding {m : Moment} {run : Uid} (h : m.call.isEnding run = true) :
    m.offered? .results = none :=
  Moment.offered?_of_call fun _ hcall ↦ by rw [hcall] at h; cases h

theorem Moment.Idle.offered? {m : Moment} (h : m.Idle) : m.offered? .results = none := by
  refine Moment.offered?_of_call fun payload hcall ↦ ?_
  obtain ⟨t, c, a⟩ := m
  obtain rfl : c = _ := hcall
  cases h

theorem Reports.spares {m : Moment} {parent : Uid} (h : Reports m q parent x) (u : Uid) :
    m.launches u = false ∧ m.inserted? = none := by
  have hcall := Moment.call_of_offered h.offered
  have hspares := spares_of_call (m := m) (u := u) (fun _ _ _ h ↦ nomatch hcall.symm.trans h)
    fun _ h ↦ nomatch hcall.symm.trans h
  exact ⟨hspares.2.2, Moment.inserted?_of_call fun _ _ h ↦ nomatch hcall.symm.trans h⟩

theorem Told.reports {m : Moment} (h : Told q s l s') (hq : s.tables.run? q.uid = some q)
    (hended : q.runStatus.isTerminal = true) (hm : m ∈ l) :
    l = [m] ∧ m.scene.tables = s'.tables ∧ ∃ parent x, Reports m q parent x := by
  cases h with
  | untold => cases hm
  | told parent step x a hparent hstep hx hwaits =>
    obtain rfl := List.mem_singleton.1 hm
    obtain ⟨-, rfl⟩ := Store.Tables.mem_of_step? hx
    exact ⟨rfl, rfl, parent, x, rfl, hq, hended, hparent, hstep, hx, hwaits⟩

/-- A result that a deed publishes is a report or that of a canceled attempt, and nothing follows
it. -/
theorem Deed.offered (h : Deed setup G o s₀ log s l s') (hs : Sound setup G s) {m : Moment}
    (hm : m ∈ l) {payload : String} (hoffered : m.offered? .results = some payload) :
    (∃ l₁, l = l₁ ++ [m] ∧ ∀ m' ∈ l₁, m'.offered? .results = none) ∧ m.scene.tables = s'.tables ∧
      ((∃ x reason, Cancels m x reason) ∨ ∃ q parent x, Reports m q parent x) := by
  have hcall := Moment.call_of_offered hoffered
  have hnone : m.offered? .results ≠ none := fun hno ↦ nomatch hno.symm.trans hoffered
  cases h with
  | idle l h => exact absurd (h m hm).2.offered? hnone
  | make _ _ _ _ _ _ _ time instances new l s₁ _ _ _ _ _ _ _ hl =>
    rcases call_of_making hl hm with h | h | h
    · cases h.symm.trans hcall
    · cases h.symm.trans hcall
    · cases h.symm.trans hcall
  | resume q rest _ _ _ hrest =>
    rcases List.mem_cons.1 hm with rfl | hm
    · cases hcall
    · rcases hrest m hm with hidle | htake
      · exact absurd (offered?_of_isIdle hidle) hnone
      · cases htake.symm.trans hcall
  | dispatch q d m' _ hc =>
    rw [← List.mem_singleton.1 hm] at hc
    rcases hc with hc | ⟨_, _, hc⟩
    · cases hc.symm.trans hcall
    · cases hc.symm.trans hcall
  | cancel x reason a hx hrunning =>
    obtain rfl := List.mem_singleton.1 hm
    exact ⟨⟨[], rfl, fun _ h ↦ nomatch h⟩, rfl, .inl ⟨x, reason, rfl, hx, hrunning⟩⟩
  | finish q status failure output time rest told s' hq hgoes hends hrest htold =>
    -- Only the report comes after the end of the run has been noted.
    have hquiet : ∀ m' ∈ (⟨s, .store (.updateRunStatus q.uid status none), .ok true⟩ :: rest :
        List Moment), m'.offered? .results = none :=
      List.forall_mem_cons.2 ⟨rfl, fun m' hm' ↦ offered?_of_isEnding (hrest m' hm')⟩
    rw [← List.cons_append] at hm ⊢
    rcases List.mem_append.1 hm with hm | hm
    · exact absurd (hquiet m hm) hnone
    · obtain ⟨rfl, htables, hreports⟩ := htold.reports (hs.keyed.run?_putRun hq rfl)
        hends.isTerminal hm
      exact ⟨⟨_, rfl, hquiet⟩, htables, .inr ⟨_, hreports⟩⟩
  | quit q status failure time expected rest _ _ _ hrest =>
    rcases List.mem_cons.1 hm with rfl | hm
    · cases hcall
    · exact absurd (offered?_of_isEnding (hrest m hm)) hnone
  | again q told s' hq hended _ htold =>
    obtain ⟨rfl, htables, hreports⟩ := htold.reports hq hended hm
    exact ⟨⟨[], rfl, fun _ h ↦ nomatch h⟩, htables, .inr ⟨q, hreports⟩⟩
  | remove uids m' _ hc =>
    rw [← List.mem_singleton.1 hm] at hc
    cases hc.symm.trans hcall
  | _ =>
    rw [List.mem_singleton.1 hm] at hcall
    cases hcall

/-- What is known of a run after it has reported about an attempt of a step. -/
structure Heard (p : Uid) (L : List Moment) (s : Scene) (q : WorkflowInstance) (x : StepInstance) :
    Prop where
  step : p ∈ s.issued
  run : q.uid ∈ s.issued
  ended : q.runStatus.isTerminal = true
  /-- The run stays as it is, or goes. -/
  kept : s.tables.run? q.uid = some q ∨ s.tables.run? q.uid = none
  /-- The attempt is over, or in flight still, and then the run is the latest one. -/
  attempt : ∀ y, s.tables.step? p = some y → x.runCount < y.runCount ∨
    y.runCount = x.runCount ∧ y.runStatus = .running ∧ latestChild p L = some q.uid

/-- An attempt that has been reported about is over before the step is launched again. -/
theorem Heard.after {pre : List Moment} (h : Heard p (pre ++ log) s q x) (hs : Sound setup G s)
    (hs' : Sound setup G s') (deed : Deed setup G o s₀ log s l s') (ho : o.startsBelow p = false)
    (hG : ∀ run, G run) : Heard p (pre ++ log ++ l) s' q x := by
  have hkept : s'.tables.run? q.uid = some q ∨ s'.tables.run? q.uid = none := by
    have hend : ∀ r, s.tables.run? q.uid = some r → r.runStatus.isTerminal = true := by
      intro r hr
      rcases h.kept with hsome | hnone
      · exact Option.some.inj (hsome.symm.trans hr) ▸ h.ended
      · cases hnone.symm.trans hr
    rcases deed.changes.run?_of_ended h.run hend with hsame | hnone
    · exact hsame ▸ h.kept
    · exact .inr hnone
  refine ⟨deed.issued_subset h.step, deed.issued_subset h.run, h.ended, hkept, fun y hy ↦ ?_⟩
  rcases (deed.affects hs hs' p).becomes hy with ⟨z, hz, hbecomes⟩ | ⟨rfl, hmade, -⟩
  · cases hbecomes with
    | launched input time hready =>
      -- A step that is launched is not running.
      obtain ⟨hzm, rfl⟩ := Store.Tables.mem_of_step? hz
      have hidle := (hready z hzm rfl (hG _)).1.idle z (Store.Tables.mem_chainOf.2 ⟨hzm, rfl⟩) rfl
      exact .inl ((h.attempt z hz).resolve_right fun hrunning ↦ hidle hrunning.2.1)
    | answered m time =>
      refine .inl ?_
      show x.runCount < z.runCount + 1
      rcases h.attempt z hz with hlt | ⟨heq, -⟩
      · omega
      · omega
    | same _ hl hstatus hcount =>
      rw [hcount, hstatus]
      exact (h.attempt z hz).imp_right fun ⟨heq, hrunning, hlatest⟩ ↦
        ⟨heq, hrunning, deed.keepsChild ho hl hlatest⟩
  · exact absurd h.step hmade.unknown

/-! ## Whole histories -/

/-- What is known of the reports to a step, after some calls. -/
structure Consistent (p : Uid) (L : List Moment) (s : Scene) : Prop where
  tracked : Tracked p L s
  heard : ∀ m ∈ L, ∀ q parent x, Reports m q parent x → x.uid = p → Heard p L s q x
  latest : ∀ before m after, L = before ++ m :: after → ∀ q parent x, Reports m q parent x →
    x.uid = p → latestChild p before = some q.uid
  agree : ∀ m ∈ L, ∀ m' ∈ L, ∀ q parent x q' parent' x', Reports m q parent x →
    Reports m' q' parent' x' → x.uid = p → x'.uid = p → x'.runCount = x.runCount → q' = q

theorem consistent_empty (p : Uid) : Consistent p [] {} where
  tracked := tracked_empty p
  heard _ hm := nomatch hm
  latest _ _ _ hL := by simp at hL
  agree _ hm := nomatch hm

/-- A run that has reported about the attempt in flight is the one that reports now. -/
theorem Heard.eq_of_reports {m : Moment} {q' : WorkflowInstance} {x' : StepInstance} {parent : Uid}
    (h : Heard p L s q' x') (hm : Reports m q parent x) (hp : x.uid = p)
    (htables : m.scene.tables = s.tables) (hlatest : latestChild p L = some q.uid)
    (hcount : x'.runCount = x.runCount) : q' = q := by
  have hx : s.tables.step? p = some x := htables ▸ hp ▸ hm.step
  have hq : s.tables.run? q.uid = some q := htables ▸ hm.run
  rcases h.attempt x hx with hlt | ⟨-, -, hlatest'⟩
  · omega
  · have hu : q'.uid = q.uid := Option.some.inj (hlatest'.symm.trans hlatest)
    rcases h.kept with hsome | hnone
    · exact Option.some.inj (hsome.symm.trans (hu ▸ hq))
    · cases hnone.symm.trans (hu ▸ hq)

/-- Whoever has just reported is the latest run below the step, which waits for it. -/
theorem Tracked.heard {L : List Moment} {m : Moment} {parent : Uid} (h : Tracked p L s)
    (hs : Sound setup G s) (hm : Reports m q parent x) (hp : x.uid = p)
    (htables : m.scene.tables = s.tables) : latestChild p L = some q.uid ∧ Heard p L s q x := by
  have hx : s.tables.step? p = some x := htables ▸ hp ▸ hm.step
  have hq : s.tables.run? q.uid = some q := htables ▸ hm.run
  have hrun := (Store.Tables.mem_of_run? hq).1
  have hlatest := h.latest_of_awaits hrun (hp ▸ hm.parentStep) hx hm.waits
  have hwaits := hm.waits
  simp only [awaits, Bool.and_eq_true, beq_iff_eq] at hwaits
  obtain ⟨ds, hst, -⟩ := hs.standing
  refine ⟨hlatest, issued_of_step? hs hx, hst.runsIssued q hrun, hm.ended, .inl hq, fun y hy ↦ ?_⟩
  obtain rfl := Option.some.inj (hx.symm.trans hy)
  exact .inr ⟨rfl, hwaits.1, hlatest⟩

theorem Deed.eq_nil_of_reports (h : Deed setup G o s₀ log s l s') (hs : Sound setup G s)
    {before after : List Moment} {m : Moment} {parent : Uid} (hl : l = before ++ m :: after)
    (hm : Reports m q parent x) : after = [] := by
  obtain ⟨⟨l₁, hl₁, hquiet⟩, -⟩ :=
    h.offered hs (hl ▸ List.mem_append_right _ List.mem_cons_self) hm.offered
  rcases List.eq_nil_or_concat after with hnil | ⟨init, last, rfl⟩
  · exact hnil
  · rw [hl, List.concat_eq_append, ← List.cons_append, ← List.append_assoc] at hl₁
    have hinit := (List.append_inj' hl₁ rfl).1
    have hno := hquiet m (hinit ▸ List.mem_append_right _ List.mem_cons_self)
    cases hno.symm.trans hm.offered

theorem Consistent.after {pre : List Moment} (h : Consistent p (pre ++ log) s)
    (hs : Sound setup G s) (hs' : Sound setup G s') (deed : Deed setup G o s₀ log s l s')
    (ho : o.startsBelow p = false)
    (hG : ∀ run, G run) (hclock : Forwards (pre ++ log)) : Consistent p (pre ++ log ++ l) s' := by
  have htracked := h.tracked.after hs hs' deed ho hclock
  have hnow : ∀ {m q parent x}, m ∈ l → Reports m q parent x → x.uid = p →
      m.scene.tables = s'.tables ∧ latestChild p (pre ++ log ++ l) = some q.uid ∧
        Heard p (pre ++ log ++ l) s' q x := by
    intro m q parent x hml hm hp
    obtain ⟨-, htables, -⟩ := deed.offered hs hml hm.offered
    exact ⟨htables, htracked.heard hs' hm hp htables⟩
  have hheard : ∀ m ∈ pre ++ log ++ l, ∀ q parent x, Reports m q parent x → x.uid = p →
      Heard p (pre ++ log ++ l) s' q x := by
    intro m hm q parent x hreports hp
    rcases List.mem_append.1 hm with hm | hm
    · exact (h.heard m hm q parent x hreports hp).after hs hs' deed ho hG
    · exact (hnow hm hreports hp).2.2
  -- Nothing follows a report, so the run was the latest one before it, too.
  have hlast : ∀ before {m after q parent x}, l = before ++ m :: after → Reports m q parent x →
      x.uid = p → latestChild p (pre ++ log ++ before) = some q.uid := by
    intro before m after q parent x hl hm hp
    have hlatest := (hnow (hl ▸ List.mem_append_right _ List.mem_cons_self) hm hp).2.1
    rw [hl, deed.eq_nil_of_reports hs hl hm, ← List.append_assoc, latestChild_append,
      foldl_childAfter_of_none] at hlatest
    · exact hlatest
    · intro m' hm'
      rw [List.mem_singleton.1 hm']
      exact hm.spares p
  refine ⟨htracked, hheard, fun before m after hsplit q parent x hm hp ↦ ?_,
    fun m hm m' hm' q parent x q' parent' x' hreports hreports' hp hp' hcount ↦ ?_⟩
  · rcases split_of_append hsplit with ⟨mid, hL, -⟩ | ⟨mid, rfl, hl⟩
    · exact h.latest before m mid hL q parent x hm hp
    · exact hlast mid hl hm hp
  · -- Two old reports agree already; a new one is compared with what is known after the other.
    rcases List.mem_append.1 hm' with hold' | hnew'
    · rcases List.mem_append.1 hm with hold | hnew
      · exact h.agree m hold m' hold' q parent x q' parent' x' hreports hreports' hp hp' hcount
      · obtain ⟨htables, hlatest, -⟩ := hnow hnew hreports hp
        exact (hheard m' hm' q' parent' x' hreports' hp').eq_of_reports hreports hp htables hlatest
          hcount
    · obtain ⟨htables, hlatest, -⟩ := hnow hnew' hreports' hp'
      exact ((hheard m hm q parent x hreports hp).eq_of_reports hreports' hp' htables hlatest
        hcount.symm).symm

/-- A result is published for work that could not be handed over, or to report to a parent step. -/
theorem History.offered {past : List Done} (h : History setup R past s) {m : Moment}
    (hm : m ∈ logOf past) {payload : String} (hoffered : m.offered? .results = some payload) :
    (∃ x reason, Cancels m x reason) ∨ ∃ q parent x, Reports m q parent x := by
  have hall := h.holds (A := fun _ ↦ True)
    (P := fun past log _ ↦ ∀ m ∈ logOf past ++ log, ∀ payload, m.offered? .results = some payload →
      (∃ x reason, Cancels m x reason) ∨ ∃ q parent x, Reports m q parent x) (guiding_nobody R)
    (fun _ _ ↦ trivial) (fun _ hm ↦ nomatch hm) (fun past o s₀ log s l s' _ hs _ deed hP m hm => by
      rw [← List.append_assoc] at hm
      rcases List.mem_append.1 hm with hm | hm
      · exact hP m hm
      · exact fun payload hoffered ↦ (deed.offered hs hm hoffered).2.2)
    fun past d s hP ↦ by rwa [logOf_concat, List.append_nil]
  rw [List.append_nil] at hall
  exact hall m hm payload hoffered

/-- **The reports about an attempt of a step agree.** Suppose that the clock goes forward, that all
stop conditions are about the loop itself and say the same whenever they are evaluated, and that
nobody but the launches of a step starts runs below it. Whoever reports to the step is then the
latest run that has been made below it since its latest launch, and any two reports about one
attempt come from one run and tell the same. -/
theorem reports_agree {past : List Done} (h : History setup anyAnswer past s)
    (hguided : ∀ m ∈ s.made, ∀ x ∈ m.2, StepInstance.SelfGuided x.shape)
    (hclock : Forwards (logOf past)) (p : Uid)
    (hstart : ∀ d ∈ past, d.operation.startsBelow p = false) :
    (∀ m ∈ logOf past, ∀ payload, m.offered? .results = some payload →
      (∃ x reason, Cancels m x reason) ∨ ∃ q parent x, Reports m q parent x) ∧
    (∀ before m after, logOf past = before ++ m :: after → ∀ q parent x, Reports m q parent x →
      x.uid = p → latestChild p before = some q.uid) ∧
    ∀ m ∈ logOf past, ∀ m' ∈ logOf past, ∀ q parent x q' parent' x', Reports m q parent x →
      Reports m' q' parent' x' → x.uid = p → x'.uid = p → attemptOf x' = attemptOf x →
        q' = q ∧ recordedVerdict q' parent' x' = recordedVerdict q parent x := by
  have hR : Guiding (making fun m ↦ ∀ x ∈ m.2, StepInstance.SelfGuided x.shape) fun _ ↦ True :=
    fun q steps _ hmade _ ↦ hmade (q, steps) (List.mem_singleton_self _)
  have hconsistent : Consistent p (logOf past ++ []) s := by
    refine (h.making_of_made hguided).holds hR (A := fun o ↦ o.startsBelow p = false)
      (P := fun past log s ↦ Forwards (logOf past ++ log) → Consistent p (logOf past ++ log) s)
      hstart (fun _ ↦ consistent_empty p) ?_ ?_ (by rwa [List.append_nil])
    · intro past o s₀ log s l s' ho hs hs' deed hP hclock
      rw [← List.append_assoc] at hclock ⊢
      exact (hP hclock.left).after hs hs' deed ho (fun _ ↦ trivial) hclock.left
    · intro past d s hP hclock
      rw [logOf_concat, List.append_nil] at hclock ⊢
      exact hP hclock
  rw [List.append_nil] at hconsistent
  refine ⟨fun m hm payload ↦ h.offered hm, hconsistent.latest,
    fun m hm m' hm' q parent x q' parent' x' hreports hreports' hp hp' hattempt ↦ ?_⟩
  have hcount : x'.runCount = x.runCount := by
    unfold attemptOf at hattempt
    omega
  obtain rfl := hconsistent.agree m hm m' hm' q parent x q' parent' x' hreports
    hreports' hp hp' hcount
  obtain rfl := Option.some.inj (hreports.parent.symm.trans hreports'.parent)
  refine ⟨rfl, ?_⟩
  unfold recordedVerdict verdict
  rw [hattempt, hp, hp']

/-! ## Runs that report -/

/-- The step of a run is done with its first attempt. -/
def answeredBy (run step : Nat) : StepResult :=
  { stepInstanceId := World.nthUid step
    workflowInstanceId := World.nthUid run
    runStatus := .completed
    attempt := some 1 }

/-- The same collaborators for all operations of a history of `delegation`. -/
def delegatingHistory (ops : List Operation) : Option (List Done × Scene) :=
  recordAll queueSetup (ops.map fun o ↦ (.delegating deployedFunction, o)) [] {}

/-- What the log of a history offers on the channel of the results. -/
def reportsOf (past : List Done) : List Moment :=
  (logOf past).filter fun m ↦ (m.offered? .results).isSome

/-- The run below the step of `delegation` ends, and the result that has ended it is repeated. -/
def repeatedReports : List Done × Scene :=
  (delegatingHistory [.start (.ofNat 1) [] none none, .result (answeredBy 2 3),
    .result (answeredBy 2 3)]).get (by decide +kernel)

theorem reports_agree_of_repeated :
    (History queueSetup anyAnswer repeatedReports.1 repeatedReports.2 ∧
      (∀ m ∈ repeatedReports.2.made, ∀ x ∈ m.2, StepInstance.SelfGuided x.shape) ∧
      Forwards (logOf repeatedReports.1) ∧
      (∀ d ∈ repeatedReports.1, d.operation.startsBelow (World.nthUid 1) = false)) ∧
    (reportsOf repeatedReports.1).length = 2 ∧
    (∀ m ∈ logOf repeatedReports.1, ∀ payload, m.offered? .results = some payload →
      (∃ x reason, Cancels m x reason) ∨ ∃ q parent x, Reports m q parent x) ∧
    (∀ before m after, logOf repeatedReports.1 = before ++ m :: after →
      ∀ q parent x, Reports m q parent x → x.uid = World.nthUid 1 →
        latestChild (World.nthUid 1) before = some q.uid) ∧
    ∀ m ∈ logOf repeatedReports.1, ∀ m' ∈ logOf repeatedReports.1, ∀ q parent x q' parent' x',
      Reports m q parent x → Reports m' q' parent' x' → x.uid = World.nthUid 1 →
        x'.uid = World.nthUid 1 → attemptOf x' = attemptOf x →
          q' = q ∧ recordedVerdict q' parent' x' = recordedVerdict q parent x := by
  have hhistory : History queueSetup anyAnswer repeatedReports.1 repeatedReports.2 :=
    history_get_any _
  have hguided : ∀ m ∈ repeatedReports.2.made, ∀ x ∈ m.2, StepInstance.SelfGuided x.shape :=
    guided_of_isPlainlyGuided (by decide +kernel)
  have hclock : Forwards (logOf repeatedReports.1) := by
    unfold Forwards
    decide +kernel
  have hstart : ∀ d ∈ repeatedReports.1, d.operation.startsBelow (World.nthUid 1) = false := by
    decide +kernel
  exact ⟨⟨hhistory, hguided, hclock, hstart⟩, by decide +kernel,
    reports_agree hhistory hguided hclock (World.nthUid 1) hstart⟩

/-- A second run is started from outside below the step of `delegation`, and both runs end. -/
def rivalReports : List Done × Scene :=
  (delegatingHistory [.start (.ofNat 1) [] none none,
    .start (.ofNat 5) [] (some (World.nthUid 0)) (some (World.nthUid 1)),
    .result (answeredBy 4 5), .result (answeredBy 2 3)]).get (by decide +kernel)

/-- The call by which the run from outside reports. -/
def rivalReport : Moment := (reportsOf rivalReports.1).get ⟨0, by decide +kernel⟩

/-- The call by which the other run reports. -/
def secondReport : Moment := (reportsOf rivalReports.1).get ⟨1, by decide +kernel⟩

/-- The run from outside, as it has ended. -/
def rivalRun : WorkflowInstance :=
  (rivalReport.scene.tables.run? (World.nthUid 4)).get (by decide +kernel)

def launchedRun : WorkflowInstance :=
  (secondReport.scene.tables.run? (World.nthUid 2)).get (by decide +kernel)

def sharedStep : StepInstance :=
  (rivalReport.scene.tables.step? (World.nthUid 1)).get (by decide +kernel)

/-- Two runs report about one attempt of a step if one of them was put there from outside. -/
theorem reports_differ_of_outsideStart :
    ¬ ∀ past s, History queueSetup anyAnswer past s →
      (∀ m ∈ s.made, ∀ x ∈ m.2, StepInstance.SelfGuided x.shape) → Forwards (logOf past) →
      ∀ m ∈ logOf past, ∀ m' ∈ logOf past, ∀ q parent x q' parent' x', Reports m q parent x →
        Reports m' q' parent' x' → x'.uid = x.uid → attemptOf x' = attemptOf x → q' = q := by
  intro h
  have hrival : Reports rivalReport rivalRun (World.nthUid 0) sharedStep :=
    { offered := by decide +kernel
      run := by decide +kernel
      ended := by decide +kernel
      parent := by decide +kernel
      parentStep := by decide +kernel
      step := by decide +kernel
      waits := by decide +kernel }
  have hsecond : Reports secondReport launchedRun (World.nthUid 0) sharedStep :=
    { offered := by decide +kernel
      run := by decide +kernel
      ended := by decide +kernel
      parent := by decide +kernel
      parentStep := by decide +kernel
      step := by decide +kernel
      waits := by decide +kernel }
  have hclock : Forwards (logOf rivalReports.1) := by
    unfold Forwards
    decide +kernel
  have hin : ∀ m ∈ reportsOf rivalReports.1, m ∈ logOf rivalReports.1 :=
    fun _ hm ↦ List.mem_of_mem_filter hm
  have hone : launchedRun = rivalRun :=
    h _ _ (history_get_any _) (guided_of_isPlainlyGuided (by decide +kernel)) hclock rivalReport
      (hin _ (List.get_mem _ _)) secondReport (hin _ (List.get_mem _ _)) _ _ _ _ _ _
      hrival hsecond rfl rfl
  have hother : launchedRun.uid ≠ rivalRun.uid := by decide +kernel
  exact hother (congrArg WorkflowInstance.uid hone)

end Engine

end Orchestration
