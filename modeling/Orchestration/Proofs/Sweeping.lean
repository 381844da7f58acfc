import Mathlib.Data.List.Perm.Basic
import Orchestration.Engine.Retention
import Orchestration.Proofs.Execution
import Orchestration.Proofs.Trees

/-!
# Which runs a sweep removes

A sweep chooses among the runs at the top of a tree, and what is below a chosen one goes with it. It
takes the runs in the order of their age, passes over those that are not old enough, and takes as
many of the others as there are runs too many. So there are two reasons to stop, and one of them
holds when it has stopped: either no old run is left at the top, or no more are left there than may
be kept. That is why a second sweep at the same time finds nothing to do (`sweeps_exactly`).

Runs of the same age are in no order among themselves, and which of them goes is left open here: it
is only said that no run goes that is younger than an old one that stays.
-/

namespace Orchestration

namespace Instant

variable {a b c : Instant}

theorem before_iff : a.before b = true ↔
    a.seconds < b.seconds ∨ a.seconds = b.seconds ∧ a.nanos < b.nanos := by
  simp [before]

theorem not_before_total (a b : Instant) : (!b.before a) = true ∨ (!a.before b) = true := by
  simp only [Bool.not_eq_true', Bool.eq_false_iff, ne_eq, before_iff]
  omega

theorem not_before_trans (hab : (!b.before a) = true) (hbc : (!c.before b) = true) :
    (!c.before a) = true := by
  simp only [Bool.not_eq_true', Bool.eq_false_iff, ne_eq, before_iff] at *
  omega

end Instant

namespace Store.Tables

open Engine (Under TopOf not_childOf_of_parentless)

variable {t : Tables} {r : WorkflowInstance}

/-- The runs that no other run has started. -/
def tops (t : Tables) : List WorkflowInstance := t.runs.filter fun r ↦ r.parentInstanceUid.isNone

theorem mem_tops : r ∈ t.tops ↔ r ∈ t.runs ∧ r.parentInstanceUid = none := by
  simp [tops]

theorem nodup_tops (h : (t.runs.map (·.uid)).Nodup) : (t.tops.map (·.uid)).Nodup :=
  h.sublist (List.filter_sublist.map _)

/-- What is read of a run for a sweep. -/
def summary (r : WorkflowInstance) : TopLevelRun := ⟨r.uid, r.createdAt⟩

theorem topLevelRuns_perm (t : Tables) :
    t.topLevelRuns.Perm (t.tops.map summary) := ordered_perm _ _

theorem pairwise_topLevelRuns (t : Tables) :
    t.topLevelRuns.Pairwise fun a b ↦ (!b.createdAt.before a.createdAt) = true :=
  pairwise_ordered (fun a b : TopLevelRun ↦ Instant.not_before_total a.createdAt b.createdAt)
    (fun _ _ _ ↦ Instant.not_before_trans) _

theorem topOf_of_mem_tops (h : (t.runs.map (·.uid)).Nodup) (hr : r ∈ t.tops) {u : Uid}
    (hu : Under t u r.uid) : TopOf t u r.uid := by
  obtain ⟨hmem, hnone⟩ := mem_tops.1 hr
  refine ⟨hu, not_childOf_of_parentless fun q hq hqr ↦ ?_⟩
  rw [List.inj_on_of_nodup_map h hq hmem hqr, hnone]

end Store.Tables

namespace Engine

open Store.Tables (summary mem_tops nodup_tops topLevelRuns_perm pairwise_topLevelRuns
  topOf_of_mem_tops remove_below length_remove)

variable {t : Store.Tables} {cutoff time : Instant} {maxCount : Nat} {keepDays : Int} {s s' : Scene}
  {r q : WorkflowInstance}

/-! ## The choice -/

/-- As many of the old runs are to go, from the oldest one on, as there are runs too many. -/
theorem doomed_eq (cutoff : Instant) (maxCount survivors : Nat) (runs : List Store.TopLevelRun) :
    doomed cutoff maxCount survivors runs =
      ((runs.filter fun r ↦ r.createdAt.before cutoff).take (survivors - maxCount)).map
        (·.uid) := by
  induction runs generalizing survivors with
  | nil => simp [doomed]
  | cons r rest ih =>
    unfold doomed
    split
    · next hfew => rw [Nat.sub_eq_zero_of_le hfew, List.take_zero, List.map_nil]
    · next hmany =>
      split
      · next hold =>
        -- one more goes, and one fewer survives
        obtain ⟨spare, hspare⟩ : ∃ spare, survivors - maxCount = spare + 1 :=
          ⟨survivors - maxCount - 1, by omega⟩
        have hspare' : survivors - 1 - maxCount = spare := by omega
        have hfilter : (r :: rest).filter (fun r ↦ r.createdAt.before cutoff) =
            r :: rest.filter fun r ↦ r.createdAt.before cutoff := List.filter_cons_of_pos hold
        rw [ih, hspare', hfilter, hspare, List.take_succ_cons, List.map_cons]
      · next hyoung =>
        have hfilter : (r :: rest).filter (fun r ↦ r.createdAt.before cutoff) =
            rest.filter fun r ↦ r.createdAt.before cutoff := List.filter_cons_of_neg hyoung
        rw [ih, hfilter]

def chosen (t : Store.Tables) (cutoff : Instant) (maxCount : Nat) : List Uid :=
  doomed cutoff maxCount t.topLevelRuns.length t.topLevelRuns

theorem chosen_eq (t : Store.Tables) (cutoff : Instant) (maxCount : Nat) :
    chosen t cutoff maxCount = ((t.topLevelRuns.filter fun r ↦ r.createdAt.before cutoff).take
      (t.topLevelRuns.length - maxCount)).map (·.uid) :=
  doomed_eq cutoff maxCount _ _

theorem length_chosen (t : Store.Tables) (cutoff : Instant) (maxCount : Nat) :
    (chosen t cutoff maxCount).length =
    min (t.tops.countP fun r ↦ r.createdAt.before cutoff) (t.tops.length - maxCount) := by
  rw [chosen_eq, List.length_map, List.length_take, ← List.countP_eq_length_filter, Nat.min_comm,
    (topLevelRuns_perm t).countP_eq, (topLevelRuns_perm t).length_eq,
      List.length_map, List.countP_map]
  rfl

theorem chosen_subperm (t : Store.Tables) (cutoff : Instant) (maxCount : Nat) :
    ∃ l, (chosen t cutoff maxCount).Sublist l ∧ l.Perm (t.tops.map (·.uid)) := by
  refine ⟨t.topLevelRuns.map (·.uid), ?_, ?_⟩
  · rw [chosen_eq]
    exact ((List.take_sublist _ _).trans List.filter_sublist).map _
  · simpa [Function.comp_def, summary] using (topLevelRuns_perm t).map (·.uid)

theorem nodup_chosen (h : (t.runs.map (·.uid)).Nodup) : (chosen t cutoff maxCount).Nodup := by
  obtain ⟨l, hsub, hperm⟩ := chosen_subperm t cutoff maxCount
  exact (hperm.nodup_iff.2 (nodup_tops h)).sublist hsub

/-- A list has as many items of another one as that other one has, if nothing stands twice in
either. -/
theorem countP_mem_eq_length {l : List WorkflowInstance} {uids : List Uid}
    (hl : (l.map (·.uid)).Nodup) (huids : uids.Nodup) (hsub : uids ⊆ l.map (·.uid)) :
    (l.countP fun r ↦ r.uid ∈ uids) = uids.length := by
  have hperm : ((l.map (·.uid)).filter (· ∈ uids)).Perm uids := by
    refine (List.perm_ext_iff_of_nodup (hl.filter _) huids).2 fun u ↦ ?_
    rw [List.mem_filter, decide_eq_true_iff]
    exact ⟨fun h ↦ h.2, fun h ↦ ⟨hsub h, h⟩⟩
  rw [← hperm.length_eq, ← List.countP_eq_length_filter, List.countP_map]
  rfl

theorem countP_chosen (h : (t.runs.map (·.uid)).Nodup) :
    (t.tops.countP fun r ↦ r.uid ∈ chosen t cutoff maxCount) =
      (chosen t cutoff maxCount).length := by
  obtain ⟨l, hsub, hperm⟩ := chosen_subperm t cutoff maxCount
  exact countP_mem_eq_length (nodup_tops h) (nodup_chosen h) fun u hu ↦
    hperm.subset (hsub.subset hu)

/-- A run at the top is chosen if it is among the first of the old ones. -/
theorem mem_chosen (h : (t.runs.map (·.uid)).Nodup) (hr : r ∈ t.tops) :
    r.uid ∈ chosen t cutoff maxCount ↔ summary r ∈
      (t.topLevelRuns.filter fun r ↦ r.createdAt.before cutoff).take
        (t.topLevelRuns.length - maxCount) := by
  rw [chosen_eq, List.mem_map]
  constructor
  · rintro ⟨a, ha, hau⟩
    have hmem := (topLevelRuns_perm t).subset (List.mem_filter.1 (List.mem_of_mem_take ha)).1
    obtain ⟨q, hq, rfl⟩ := List.mem_map.1 hmem
    obtain rfl := List.inj_on_of_nodup_map (nodup_tops h) hq hr hau
    exact ha
  · exact fun hmem ↦ ⟨_, hmem, rfl⟩

theorem before_of_mem_chosen (h : (t.runs.map (·.uid)).Nodup) (hr : r ∈ t.tops)
    (hchosen : r.uid ∈ chosen t cutoff maxCount) : r.createdAt.before cutoff = true :=
  (List.mem_filter.1 (List.mem_of_mem_take ((mem_chosen h hr).1 hchosen))).2

/-- No run is chosen that is younger than an old one that is not. -/
theorem not_before_of_mem_chosen (h : (t.runs.map (·.uid)).Nodup) (hr : r ∈ t.tops)
    (hchosen : r.uid ∈ chosen t cutoff maxCount) (hq : q ∈ t.tops)
    (hkept : q.uid ∉ chosen t cutoff maxCount) (hold : q.createdAt.before cutoff = true) :
    q.createdAt.before r.createdAt = false := by
  have hpairs := (pairwise_topLevelRuns t).filter fun r ↦ r.createdAt.before cutoff
  rw [← List.take_append_drop (t.topLevelRuns.length - maxCount)
    (t.topLevelRuns.filter fun r ↦ r.createdAt.before cutoff)] at hpairs
  have hlisted : summary q ∈ t.topLevelRuns.filter fun r ↦ r.createdAt.before cutoff :=
    List.mem_filter.2 ⟨(topLevelRuns_perm t).symm.subset (List.mem_map_of_mem hq), hold⟩
  rw [← List.take_append_drop (t.topLevelRuns.length - maxCount)
    (t.topLevelRuns.filter fun r ↦ r.createdAt.before cutoff), List.mem_append] at hlisted
  have hlater := hlisted.resolve_left fun hmem ↦ hkept ((mem_chosen h hq).2 hmem)
  have hpair := (List.pairwise_append.1 hpairs).2.2 _ ((mem_chosen h hr).1 hchosen) _ hlater
  exact Bool.not_eq_true' _ ▸ hpair

theorem exists_top_of_mem_chosen {u : Uid} (hu : u ∈ chosen t cutoff maxCount) :
    ∃ a ∈ t.tops, a.uid = u := by
  obtain ⟨l, hsub, hperm⟩ := chosen_subperm t cutoff maxCount
  exact List.mem_map.1 (hperm.subset (hsub.subset hu))

theorem exists_run_of_underAny {u : Uid} (h : t.UnderAny (chosen t cutoff maxCount) u) :
    ∃ r ∈ t.runs, r.uid = u := by
  obtain ⟨v, hv, huv⟩ := h
  rcases Relation.ReflTransGen.cases_head huv with rfl | ⟨p, ⟨r, hr, hru, -⟩, -⟩
  · obtain ⟨a, ha, rfl⟩ := exists_top_of_mem_chosen hv
    exact ⟨a, (mem_tops.1 ha).1, rfl⟩
  · exact ⟨r, hr, hru⟩

/-- A run is below a chosen one exactly if the run at the top of its tree is chosen. -/
theorem underAny_chosen_iff (h : (t.runs.map (·.uid)).Nodup) {u : Uid} (hq : q ∈ t.tops)
    (hu : Under t u q.uid) :
    t.UnderAny (chosen t cutoff maxCount) u ↔ q.uid ∈ chosen t cutoff maxCount := by
  constructor
  · rintro ⟨v, hv, huv⟩
    obtain ⟨a, ha, rfl⟩ := exists_top_of_mem_chosen hv
    rwa [(topOf_of_mem_tops h hq hu).unique h (topOf_of_mem_tops h ha huv)]
  · exact fun hchosen ↦ ⟨q.uid, hchosen, hu⟩

/-! ## What is left -/

/-- What a sweep does to the records of runs and of steps. -/
structure Sweeps (t t' : Store.Tables) (cutoff : Instant) (maxCount removed : Nat) : Prop where
  /-- Of the runs at the top, as many go as are old, but no more than there are too many. -/
  count : (t.tops.countP fun r ↦ r ∉ t'.runs) =
    min (t.tops.countP fun r ↦ r.createdAt.before cutoff) (t.tops.length - maxCount)
  old : ∀ r ∈ t.tops, r ∉ t'.runs → r.createdAt.before cutoff = true
  /-- None of them is younger than an old run at the top that stays. -/
  oldest : ∀ r ∈ t.tops, r ∉ t'.runs → ∀ q ∈ t.tops, q ∈ t'.runs →
    q.createdAt.before cutoff = true → q.createdAt.before r.createdAt = false
  /-- Every run is in the tree of a run at the top, and stays or goes with it. -/
  family : ∀ r ∈ t.runs, (∃ a ∈ t.tops, Under t r.uid a.uid) ∧
    ∀ a ∈ t.tops, Under t r.uid a.uid → (r ∈ t'.runs ↔ a ∈ t'.runs)
  /-- The runs that stay are as they were and where they were. -/
  runs : t'.runs.Sublist t.runs
  /-- The steps of the runs that go are removed, and no others. -/
  steps : t'.steps = t.steps.filter fun x ↦ ¬ ∃ r ∈ t.runs, r ∉ t'.runs ∧ r.uid =
    x.workflowInstanceUid
  survivors : min t.tops.length maxCount ≤ t'.tops.length
  removed : removed + t'.runs.length = t.runs.length

def swept (t : Store.Tables) (cutoff : Instant) (maxCount : Nat) : Store.Tables :=
  t.remove (t.below (chosen t cutoff maxCount))

theorem mem_swept : r ∈ (swept t cutoff maxCount).runs ↔
    r ∈ t.runs ∧ ¬ t.UnderAny (chosen t cutoff maxCount) r.uid := by
  simp [swept, remove_below]

theorem mem_swept_of_top (h : (t.runs.map (·.uid)).Nodup) (hr : r ∈ t.tops) :
    r ∈ (swept t cutoff maxCount).runs ↔ r.uid ∉ chosen t cutoff maxCount := by
  rw [mem_swept, underAny_chosen_iff h hr .refl]
  exact and_iff_right (mem_tops.1 hr).1

theorem tops_swept (h : (t.runs.map (·.uid)).Nodup) : (swept t cutoff maxCount).tops =
    t.tops.filter fun r ↦ r.uid ∉ chosen t cutoff maxCount := by
  rw [Store.Tables.tops, Store.Tables.tops, swept, (remove_below t _).1, List.filter_filter,
    List.filter_filter]
  refine List.filter_congr fun r hr ↦ ?_
  by_cases htop : r.parentInstanceUid = none
  · simp [htop, underAny_chosen_iff h (mem_tops.2 ⟨hr, htop⟩) .refl]
  · simp [Option.isNone_iff_eq_none.not.2 htop]

theorem length_tops_swept (h : (t.runs.map (·.uid)).Nodup) (cutoff : Instant) (maxCount : Nat) :
    (chosen t cutoff maxCount).length + (swept t cutoff maxCount).tops.length = t.tops.length := by
  rw [tops_swept h, ← countP_chosen h, ← List.countP_eq_length_filter]
  simpa using (List.length_eq_countP_add_countP
    (fun r : WorkflowInstance ↦ decide (r.uid ∈ chosen t cutoff maxCount)) (l := t.tops)).symm

theorem countP_before_swept (h : (t.runs.map (·.uid)).Nodup) (cutoff : Instant) (maxCount : Nat) :
    (chosen t cutoff maxCount).length +
      (swept t cutoff maxCount).tops.countP (fun r ↦ r.createdAt.before cutoff) =
    t.tops.countP fun r ↦ r.createdAt.before cutoff := by
  rw [tops_swept h, ← countP_chosen h, List.countP_eq_countP_filter_add t.tops
    (fun r ↦ r.createdAt.before cutoff) (fun r ↦ r.uid ∈ chosen t cutoff maxCount)]
  congr 1
  · rw [List.countP_filter]
    refine List.countP_congr fun r hr ↦ ?_
    simp only [decide_eq_true_eq, Bool.and_eq_true, iff_and_self]
    exact before_of_mem_chosen h hr
  · simp

/-- After a sweep no more runs at the top are too many, or none of them is old. -/
theorem chosen_swept (h : (t.runs.map (·.uid)).Nodup) :
    chosen (swept t cutoff maxCount) cutoff maxCount = [] := by
  rw [← List.length_eq_zero_iff, length_chosen]
  have hlength := length_chosen t cutoff maxCount
  have htops := length_tops_swept h cutoff maxCount
  have hold := countP_before_swept h cutoff maxCount
  omega

theorem sweeps_swept (h : (t.runs.map (·.uid)).Nodup) (hforest : Forest t) :
    Sweeps t (swept t cutoff maxCount) cutoff maxCount
      (t.runs.countP fun r ↦ (t.below (chosen t cutoff maxCount)).contains r.uid) where
  count := by
    rw [← length_chosen, ← countP_chosen h]
    exact List.countP_congr fun r hr ↦ by simp [mem_swept_of_top h hr]
  old r hr hgone := by
    rw [mem_swept_of_top h hr, not_not] at hgone
    exact before_of_mem_chosen h hr hgone
  oldest r hr hgone q hq hkept hold := by
    rw [mem_swept_of_top h hr, not_not] at hgone
    exact not_before_of_mem_chosen h hr hgone hq ((mem_swept_of_top h hq).1 hkept) hold
  family r hr := by
    obtain ⟨a, ha, hnone, htop⟩ := hforest.exists_top h hr
    refine ⟨⟨a, mem_tops.2 ⟨ha, hnone⟩, htop.under⟩, fun b hb hrb ↦ ?_⟩
    rw [mem_swept_of_top h hb, mem_swept, and_iff_right hr, underAny_chosen_iff h hb hrb]
  runs := List.filter_sublist
  steps := by
    rw [swept, (remove_below t _).2]
    refine List.filter_congr fun x _ ↦ decide_eq_decide.2 (not_congr ?_)
    constructor
    · intro hx
      obtain ⟨r, hr, hrx⟩ := exists_run_of_underAny hx
      exact ⟨r, hr, fun hkept ↦ (mem_swept.1 hkept).2 (hrx ▸ hx), hrx⟩
    · rintro ⟨r, hr, hgone, hrx⟩
      by_contra hx
      exact hgone (mem_swept.2 ⟨hr, hrx ▸ hx⟩)
  survivors := by
    have hlength := length_chosen t cutoff maxCount
    have htops := length_tops_swept h cutoff maxCount
    omega
  removed := length_remove t _

/-! ## The sweep -/

/-- The rule that the clock shows a given time. -/
def clockAt (time : Instant) : Rule
  | .now, shown => shown = time
  | _, _ => True

/-- Runs that were made before this time are old. -/
def cutoffOf (time : Instant) (keepDays : Int) : Instant :=
  time.addSeconds (-(keepDays * Instant.daySeconds))

theorem run_deleteRuns {uids : List Uid} {r : Except EngineError Nat} :
    Runs (clockAt time) (Action.store (.deleteRuns uids)) s r s' ↔
      r = .ok (s.tables.runs.countP fun q ↦ (s.tables.below uids).contains q.uid) ∧
        s' = { s with tables := s.tables.remove (s.tables.below uids) } := by
  rw [runs_store]
  have hscene : s.afterStore (.deleteRuns uids) =
      { s with tables := s.tables.remove (s.tables.below uids) } := by
    simp [Scene.afterStore, Scene.madeBy, Store.Tables.answer]
  rw [hscene]
  exact and_congr_right fun _ ↦ and_iff_right trivial

/-- Where nothing is chosen, nothing is asked of the store, and it would do nothing either. -/
theorem remove_below_nil (t : Store.Tables) : t.remove (t.below []) = t ∧
    (t.runs.countP fun q ↦ (t.below []).contains q.uid) = 0 := by
  have hbelow : t.below [] = [] := by
    rw [Store.Tables.below, Store.Tables.searchFrom]
    exact dif_neg (Nat.not_lt_zero 0)
  simp [hbelow, Store.Tables.remove]

theorem runs_deleteOldRuns {r : Except EngineError Nat} :
    Runs (clockAt time) (deleteOldRuns keepDays maxCount) s r s' ↔
      r = .ok (s.tables.runs.countP fun q ↦
          (s.tables.below (chosen s.tables (cutoffOf time keepDays) maxCount)).contains q.uid) ∧
        s' = { s with tables := swept s.tables (cutoffOf time keepDays) maxCount } := by
  have hdelete : Runs (clockAt time)
      (if (chosen s.tables (cutoffOf time keepDays) maxCount).isEmpty then pure 0
        else Action.store (.deleteRuns (chosen s.tables (cutoffOf time keepDays) maxCount)))
          s r s' ↔
      r = .ok (s.tables.runs.countP fun q ↦
          (s.tables.below (chosen s.tables (cutoffOf time keepDays) maxCount)).contains q.uid) ∧
        s' = { s with tables := swept s.tables (cutoffOf time keepDays) maxCount } := by
    split
    · next hempty =>
      rw [runs_pure, swept, List.isEmpty_iff.1 hempty, (remove_below_nil s.tables).1,
        (remove_below_nil s.tables).2]
    · exact run_deleteRuns
  rw [← hdelete]
  have hlisted : s = s.afterStore .listTopLevelRuns := by
    simp [Scene.afterStore, Scene.madeBy, Store.Tables.answer]
  constructor
  · intro hrun
    rcases runs_bind.1 hrun with ⟨e, hlist, -⟩ | ⟨runs, s₁, hlist, hrun⟩
    · cases (runs_store.1 hlist).1
    · obtain ⟨hruns, -, hs₁⟩ := runs_store.1 hlist
      obtain rfl := Except.ok.inj hruns
      obtain rfl := hs₁.trans hlisted.symm
      rcases runs_bind.1 hrun with ⟨e, hnow, -⟩ | ⟨shown, s₂, hnow, hrun⟩
      · obtain ⟨_, -, he, -⟩ := runs_now.1 hnow
        cases he
      · obtain ⟨shown', hshown, hok, rfl⟩ := runs_now.1 hnow
        obtain rfl : shown' = time := hshown
        obtain rfl := Except.ok.inj hok
        exact hrun
  · intro hrun
    refine runs_bind.2 (.inr ⟨_, s, runs_store.2 ⟨rfl, trivial, hlisted⟩, ?_⟩)
    exact runs_bind.2 (.inr ⟨time, s, runs_now.2 ⟨time, rfl, rfl, rfl⟩, hrun⟩)

theorem swept_swept (h : (t.runs.map (·.uid)).Nodup) :
    swept (swept t cutoff maxCount) cutoff maxCount = swept t cutoff maxCount := by
  rw [swept, chosen_swept h]
  exact (remove_below_nil _).1

/-- **A sweep removes what is old and too many, and nothing else.** Whatever runs there are, if
their links form a forest, a sweep at a given time comes to an end; of the runs at the top it
removes as many as are old, but no more than there are too many, the oldest first, and with each of
them all that is below it and all steps of that; and a second sweep at the same time removes
nothing. -/
theorem sweeps_exactly (h : (s.tables.runs.map (·.uid)).Nodup) (hforest : Forest s.tables)
    (time : Instant) (keepDays : Int) (maxCount : Nat) : ∃ n s',
    (∀ r s₁, Runs (clockAt time) (deleteOldRuns keepDays maxCount) s r s₁ ↔ r = .ok n ∧ s₁ = s') ∧
    Sweeps s.tables s'.tables (cutoffOf time keepDays) maxCount n ∧
    ∀ r s₁, Runs (clockAt time) (deleteOldRuns keepDays maxCount) s' r s₁ ↔
      r = .ok 0 ∧ s₁ = s' := by
  refine ⟨_, _, fun r s₁ ↦ runs_deleteOldRuns, sweeps_swept h hforest, fun r s₁ ↦ ?_⟩
  refine runs_deleteOldRuns.trans ?_
  dsimp only
  rw [swept_swept h, chosen_swept h, (remove_below_nil _).2]

/-- A run with a number, made at a time. -/
def agedRun (n : Nat) (parent : Option Nat) (seconds : Int) : WorkflowInstance :=
  { uid := .ofNat n
    workflowUid := .ofNat 0
    name := "w"
    runStatus := .completed
    parentInstanceUid := parent.map .ofNat
    stepInstanceIds := []
    createdAt := ⟨seconds, 0⟩ }

/-- Three runs at the top, two of them old. Those below the oldest one are young. -/
def threeTrees : Scene where
  tables.runs :=
    [agedRun 1 none 7, agedRun 2 (some 1) 500000, agedRun 3 (some 2) 600000, agedRun 4 none 5,
      agedRun 5 (some 4) 800000, agedRun 6 (some 5) 800001, agedRun 7 none 500000]

theorem forest_threeTrees : Forest threeTrees.tables where
  parent r hr p hp := by
    have hall : ∀ r ∈ threeTrees.tables.runs, ∀ p ∈ r.parentInstanceUid.toList,
        ∃ q ∈ threeTrees.tables.runs, q.uid = p := by decide +kernel
    exact hall r hr p (by simp [hp])
  acyclic := acyclic_of_rank (fun u ↦ u.bits.toNat) fun u p ⟨q, hq, hqu, hp⟩ ↦ by
    have hall : ∀ q ∈ threeTrees.tables.runs, ∀ p ∈ q.parentInstanceUid.toList,
        p.bits.toNat < q.uid.bits.toNat := by decide +kernel
    exact hqu ▸ hall q hq p (by simp [hp])

theorem sweeps_exactly_of_threeTrees :
    ((threeTrees.tables.runs.map (·.uid)).Nodup ∧ Forest threeTrees.tables) ∧ ∃ n s',
    n = 3 ∧ s'.tables.runs.map (·.uid) = [.ofNat 1, .ofNat 2, .ofNat 3, .ofNat 7] ∧
    (∀ r s₁, Runs (clockAt ⟨864000, 0⟩) (deleteOldRuns 7 2) threeTrees r s₁ ↔ r = .ok n ∧ s₁ = s') ∧
    Sweeps threeTrees.tables s'.tables (cutoffOf ⟨864000, 0⟩ 7) 2 n ∧
    ∀ r s₁, Runs (clockAt ⟨864000, 0⟩) (deleteOldRuns 7 2) s' r s₁ ↔ r = .ok 0 ∧ s₁ = s' := by
  have hruns : (threeTrees.tables.runs.map (·.uid)).Nodup := by decide +kernel
  obtain ⟨n, s', hrun, hsweeps, hagain⟩ := sweeps_exactly hruns forest_threeTrees ⟨864000, 0⟩ 7 2
  obtain ⟨hn, hs⟩ := (hrun _ _).1 (runs_deleteOldRuns.2 ⟨rfl, rfl⟩)
  refine ⟨⟨hruns, forest_threeTrees⟩, n, s', ?_, ?_, hrun, hsweeps, hagain⟩
  · rw [← Except.ok.inj hn]
    decide +kernel
  · rw [← hs]
    decide +kernel

end Engine

end Orchestration
