import Mathlib.Data.Fintype.Card
import Mathlib.Data.List.Nodup
import Mathlib.Data.Set.Finite.Basic
import Mathlib.Logic.Relation
import Orchestration.Store.Tables

/-!
# Trees of runs

The run of a sub-workflow names the run that it is a part of, and so runs form trees (`ChildOf`,
`Under`). Nothing in the store sees to it: whoever puts a record in may name a parent that is not
there, or let the links go round in a circle. Deleting copes with all of that (`deletes_all_below`).
The search for what is below some runs goes through a list that grows under it. Whatever is in the
list is below one of the runs that it began with, and the children of all that has been gone through
are in the list (`Searched`). So when the end is reached, the list is closed under the links and
holds all that is below (`mem_below`). The end is reached, since only runs are appended, and each of
them once.

Where the links do form a forest (`Forest`), every run has exactly one run at the top of its tree.
-/

namespace Orchestration

namespace Engine

variable {t : Store.Tables} {runs : List WorkflowInstance} {uids : List Uid} {u v w p top : Uid}

/-! ## Parents and children -/

/-- A run has been started by a step of another one. -/
def ChildOf (t : Store.Tables) (u p : Uid) : Prop :=
  ∃ q ∈ t.runs, q.uid = u ∧ q.parentInstanceUid = some p

/-- A run is the same as another one, or below it. -/
def Under (t : Store.Tables) : Uid → Uid → Prop := Relation.ReflTransGen (ChildOf t)

/-- A run is at the top of the tree that another one is in. -/
structure TopOf (t : Store.Tables) (u top : Uid) : Prop where
  under : Under t u top
  top : ∀ p, ¬ ChildOf t top p

theorem ChildOf.unique (ht : (t.runs.map (·.uid)).Nodup) (h : ChildOf t u v) (h' : ChildOf t u w) :
    v = w := by
  obtain ⟨q, hq, rfl, hparent⟩ := h
  obtain ⟨r, hr, hu, hparent'⟩ := h'
  obtain rfl := List.inj_on_of_nodup_map ht hr hq hu
  exact Option.some.inj (hparent.symm.trans hparent')

theorem not_childOf_of_parentless
    (h : ∀ q ∈ t.runs, q.uid = u → q.parentInstanceUid = none) (p : Uid) : ¬ ChildOf t u p := by
  rintro ⟨q, hq, hqu, hparent⟩
  cases (h q hq hqu).symm.trans hparent

theorem TopOf.of_under (ht : (t.runs.map (·.uid)).Nodup) (h : TopOf t u top) (hu : Under t u v) :
    TopOf t v top := by
  induction hu with
  | refl => exact h
  | @tail x y _ hxy ih =>
    rcases Relation.ReflTransGen.cases_head ih.under with rfl | ⟨z, hxz, hz⟩
    · exact absurd hxy (ih.top y)
    · exact ⟨hxy.unique ht hxz ▸ hz, ih.top⟩

theorem TopOf.unique {top' : Uid} (ht : (t.runs.map (·.uid)).Nodup) (h : TopOf t u top)
    (h' : TopOf t u top') : top = top' := by
  rcases Relation.ReflTransGen.cases_head (h.of_under ht h'.under).under with rfl | ⟨p, hp, -⟩
  · rfl
  · exact absurd hp (h'.top p)

/-! ## Forests -/

/-- The links from runs to their parents form a forest: every parent that is named is there, and no
run is below itself. -/
structure Forest (t : Store.Tables) : Prop where
  parent : ∀ r ∈ t.runs, ∀ p, r.parentInstanceUid = some p → ∃ q ∈ t.runs, q.uid = p
  acyclic : ∀ u, ¬ Relation.TransGen (ChildOf t) u u

/-- Whatever shrinks from each run to its parent rules out circles. -/
theorem acyclic_of_rank (rank : Uid → Nat) (h : ∀ u p, ChildOf t u p → rank p < rank u) (u : Uid) :
    ¬ Relation.TransGen (ChildOf t) u u := by
  have hlt : ∀ v, Relation.TransGen (ChildOf t) u v → rank v < rank u := by
    intro v hv
    induction hv with
    | single huv => exact h _ _ huv
    | tail _ hvw ih => exact (h _ _ hvw).trans ih
  exact fun huu ↦ (hlt u huu).false

theorem Forest.exists_top (h : Forest t) (ht : (t.runs.map (·.uid)).Nodup) {r : WorkflowInstance}
    (hr : r ∈ t.runs) : ∃ a ∈ t.runs, a.parentInstanceUid = none ∧ TopOf t r.uid a.uid := by
  -- there are finitely many runs, so that without circles no way upwards goes on for ever
  let above : {r // r ∈ t.runs} → {r // r ∈ t.runs} → Prop :=
    fun q r ↦ Relation.TransGen (ChildOf t) r.1.uid q.1.uid
  have : Finite {r // r ∈ t.runs} := (List.finite_toSet t.runs).to_subtype
  have : IsTrans _ above := ⟨fun _ _ _ hxy hyz ↦ hyz.trans hxy⟩
  have : Std.Irrefl above := ⟨fun x ↦ h.acyclic x.1.uid⟩
  have hwf : WellFounded above := Finite.wellFounded_of_trans_of_irrefl above
  obtain ⟨a, ha⟩ : ∃ x : {r // r ∈ t.runs}, x.1 = r := ⟨⟨r, hr⟩, rfl⟩
  subst ha
  induction a using hwf.induction with
  | _ x ih =>
    cases hparent : x.1.parentInstanceUid with
    | none =>
      refine ⟨x.1, x.2, hparent, .refl, not_childOf_of_parentless fun q hq hu ↦ ?_⟩
      rw [List.inj_on_of_nodup_map ht hq x.2 hu, hparent]
    | some p =>
      obtain ⟨q, hq, rfl⟩ := h.parent x.1 x.2 p hparent
      have hchild : ChildOf t x.1.uid q.uid := ⟨x.1, x.2, rfl, hparent⟩
      obtain ⟨a, ha, hnone, htop⟩ := ih ⟨q, hq⟩ (.single hchild) hq
      exact ⟨a, ha, hnone, htop.under.head hchild, htop.top⟩

end Engine

namespace Store

namespace Tables

open Engine (ChildOf Under)

variable {t : Tables} {uids found : List Uid} {u v p : Uid}

/-- A run is one of some runs, or below one of them. -/
def UnderAny (t : Tables) (uids : List Uid) (v : Uid) : Prop := ∃ u ∈ uids, Under t v u

/-! ## Looking for what is below -/

theorem mem_childrenOf : v ∈ childrenOf t.runs p ↔ ChildOf t v p := by
  rw [childrenOf, List.mem_map]
  constructor
  · rintro ⟨r, hr, rfl⟩
    obtain ⟨hmem, hparent⟩ := List.mem_filter.1 hr
    exact ⟨r, hmem, rfl, of_decide_eq_true hparent⟩
  · rintro ⟨r, hr, rfl, hparent⟩
    exact ⟨r, List.mem_filter.2 ⟨hr, decide_eq_true hparent⟩, rfl⟩

theorem prefix_addNew (found uids : List Uid) : found <+: addNew found uids := by
  induction uids generalizing found with
  | nil => exact List.prefix_refl found
  | cons uid rest ih =>
    rw [addNew]
    split
    · exact ih found
    · exact (List.prefix_append found [uid]).trans (ih _)

theorem mem_addNew : v ∈ addNew found uids ↔ v ∈ found ∨ v ∈ uids := by
  induction uids generalizing found with
  | nil => simp [addNew]
  | cons uid rest ih =>
    rw [addNew, ih, List.mem_cons]
    split
    · next hfound =>
      have hmem : uid ∈ found := List.contains_iff_mem.1 hfound
      constructor
      · exact Or.imp_right .inr
      · rintro (hv | rfl | hv)
        · exact .inl hv
        · exact .inl hmem
        · exact .inr hv
    · rw [List.mem_append, List.mem_singleton, or_assoc]

/-- A search that began with some runs has come to a position. -/
structure Searched (t : Tables) (uids found : List Uid) (position : Nat) : Prop where
  begun : uids ⊆ found
  sound : ∀ v ∈ found, t.UnderAny uids v
  /-- The children of what has been gone through have been found. -/
  closed : ∀ p ∈ found.take position, ∀ v, ChildOf t v p → v ∈ found

theorem Searched.step {position : Nat} (h : Searched t uids found position)
    (hlt : position < found.length) :
    Searched t uids (addNew found (childrenOf t.runs found[position])) (position + 1) where
  begun := List.Subset.trans h.begun (prefix_addNew _ _).subset
  sound v hv := by
    rcases mem_addNew.1 hv with hv | hv
    · exact h.sound v hv
    · obtain ⟨u, hu, hup⟩ := h.sound _ (List.getElem_mem hlt)
      exact ⟨u, hu, hup.head (mem_childrenOf.1 hv)⟩
  closed p hp v hv := by
    -- what has been gone through is what it was, and the run at the position
    obtain ⟨more, hmore⟩ := prefix_addNew found (childrenOf t.runs found[position])
    rw [← hmore, List.take_append_of_le_length hlt, List.take_succ_eq_append_getElem hlt,
      List.mem_append, List.mem_singleton] at hp
    rcases hp with hp | rfl
    · exact mem_addNew.2 (.inl (h.closed p hp v hv))
    · exact mem_addNew.2 (.inr (mem_childrenOf.2 hv))

/-- At the end of a search everything that has been found has been gone through. -/
theorem Searched.searchFrom {position : Nat} (h : Searched t uids found position) :
    Searched t uids (searchFrom t.runs found position)
      (searchFrom t.runs found position).length := by
  fun_induction Tables.searchFrom t.runs found position with
  | case1 found position hlt ih => exact ih (h.step hlt)
  | case2 found position hend =>
    have hall : found.take position = found := List.take_of_length_le (Nat.not_lt.1 hend)
    have hclosed := h.closed
    rw [hall] at hclosed
    refine ⟨h.begun, h.sound, ?_⟩
    rwa [List.take_length]

theorem searched_below (t : Tables) (uids : List Uid) :
    Searched t uids (t.below uids) (t.below uids).length := by
  refine Searched.searchFrom ⟨List.Subset.refl uids, fun v hv ↦ ⟨v, hv, .refl⟩, fun p hp ↦ ?_⟩
  rw [List.take_zero] at hp
  cases hp

/-- A search goes through no more than what it begins with and the runs that are missing there. -/
theorem length_searchFrom_le (runs : List WorkflowInstance) (found : List Uid) (position : Nat) :
    (searchFrom runs found position).length ≤ found.length + missing runs found := by
  fun_induction searchFrom runs found position with
  | case1 found position hlt ih =>
    exact Nat.le_trans ih
      (length_addNew_le (exists_run_of_mem_childrenOf runs found[position]) found)
  | case2 => exact Nat.le_add_right _ _

/-- The search finds exactly what is below the runs that it begins with. -/
theorem mem_below : v ∈ t.below uids ↔ t.UnderAny uids v := by
  have hsearched := searched_below t uids
  constructor
  · exact hsearched.sound v
  · rintro ⟨u, hu, hvu⟩
    induction hvu using Relation.ReflTransGen.head_induction_on with
    | refl => exact hsearched.begun hu
    | @head x y hxy _ hy =>
      have hclosed := hsearched.closed
      rw [List.take_length] at hclosed
      exact hclosed y hy x hxy

instance (t : Tables) (uids : List Uid) : DecidablePred (t.UnderAny uids) := fun v ↦
  decidable_of_iff (v ∈ t.below uids) mem_below

/-! ## Deleting -/

theorem remove_below (t : Tables) (uids : List Uid) :
    (t.remove (t.below uids)).runs = t.runs.filter (fun r ↦ ¬ t.UnderAny uids r.uid) ∧
    (t.remove (t.below uids)).steps =
      t.steps.filter fun s ↦ ¬ t.UnderAny uids s.workflowInstanceUid := by
  constructor
  · refine List.filter_congr fun r _ ↦ ?_
    simp [← mem_below]
  · refine List.filter_congr fun s _ ↦ ?_
    simp [← mem_below]

theorem length_remove (t : Tables) (doomed : List Uid) :
    (t.runs.countP fun r ↦ doomed.contains r.uid) + (t.remove doomed).runs.length =
      t.runs.length := by
  rw [remove, ← List.countP_eq_length_filter]
  simpa using (List.length_eq_countP_add_countP
    (fun r : WorkflowInstance ↦ doomed.contains r.uid)).symm

/-- **Deleting removes what is below, and nothing else.** Whatever links there are between the runs,
and whatever identifiers are named, the search comes to an end after no more turns than there are
identifiers named and runs; the runs that are named or below a named one are removed with all steps
of theirs, every other record stays as it is and where it is, and the answer is the number of runs
that have been removed. -/
theorem deletes_all_below (t : Tables) (uids : List Uid) :
    (t.below uids).length ≤ uids.length + t.runs.length ∧
    ∃ n t', t.answer (.deleteRuns uids) = (.ok n, t') ∧
      t'.runs = t.runs.filter (fun r ↦ ¬ t.UnderAny uids r.uid) ∧
      t'.steps = t.steps.filter (fun s ↦ ¬ t.UnderAny uids s.workflowInstanceUid) ∧
      n + t'.runs.length = t.runs.length := by
  constructor
  · exact Nat.le_trans (length_searchFrom_le t.runs uids 0)
      (Nat.add_le_add_left List.countP_le_length _)
  · exact ⟨_, _, rfl, (remove_below t uids).1, (remove_below t uids).2, length_remove t _⟩

end Tables

end Store

end Orchestration
