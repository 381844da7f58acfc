import Orchestration.Chain
import Orchestration.Proofs.ChainShape

/-!
# The chain of a new run

The steps of a new run are made from their definitions in the order of execution, with identifiers
that are handed out first and linked afterwards. If the identifiers differ, what comes out is a
chain of the shape that a run needs at its start: linked, headed, and fresh throughout.
-/

namespace Orchestration

namespace OrderLabel

variable {i n : Nat}

theorem forPosition_eq_first_iff : forPosition i n = .first ↔ i = 0 := by
  unfold forPosition
  grind

theorem forPosition_eq_last_iff : forPosition i n = .last ↔ 0 < i ∧ i + 1 = n := by
  unfold forPosition
  grind

theorem forPosition_eq_intermediate_iff (hi : i < n) :
    forPosition i n = .intermediate ↔ 0 < i ∧ i + 1 < n := by
  unfold forPosition
  grind

end OrderLabel

namespace StepGraph

/-- In a row without repetitions, what follows an identifier is the one after it. -/
theorem links_next {order : List Uid} (h : order.Nodup) {i : Nat} (hi : i < order.length) :
    ((linear order).links order[i]).next = order[i + 1]? := by
  unfold links edges linear
  induction order generalizing i with
  | nil => cases hi
  | cons a rest ih =>
    obtain ⟨ha, hrest⟩ := List.nodup_cons.1 h
    cases rest with
    | nil =>
      obtain rfl : i = 0 := by simpa using hi
      rfl
    | cons b rest =>
      simp only [List.tail_cons, List.zip_cons_cons] at ih ⊢
      cases i with
      | zero =>
        have hnone : ((b :: rest).zip rest).filter (fun e ↦ decide (e.1 = a)) = [] := by
          refine List.filter_eq_nil_iff.2 fun e he hea ↦ ha ?_
          rw [← of_decide_eq_true hea]
          exact (List.of_mem_zip (a := e.1) (b := e.2) he).1
        simp [hnone]
      | succ j =>
        have hj : j < (b :: rest).length := Nat.lt_of_succ_lt_succ hi
        have hne : a ≠ (b :: rest)[j] := fun he ↦ ha (he ▸ List.getElem_mem hj)
        have := ih hrest hj
        simpa [List.filter_cons, hne] using this

end StepGraph

namespace Chain

/-- A chain is linked if each of its steps names the one at the next place. -/
theorem linked_of_getElem {cs : List StepInstance}
    (h : ∀ i (hi : i < cs.length), cs[i].nextStepId = cs[i + 1]?.map (·.uid)) : Linked cs := by
  induction cs with
  | nil => trivial
  | cons s rest ih =>
    refine ⟨?_, ih fun i hi ↦ h (i + 1) (Nat.succ_lt_succ hi)⟩
    rw [List.head?_eq_getElem?]
    exact h 0 (Nat.succ_pos _)

section Building

variable (run : Uid) {definitions : List StepDefinition} (input : Json.Object) {uids : List Uid}

theorem length_sortDefinitions : (sortDefinitions definitions).length = definitions.length :=
  length_ordered _ _

theorem length_buildStepInstances (hlen : uids.length = definitions.length) :
    (buildStepInstances run definitions input uids).length = uids.length := by
  simp [buildStepInstances, length_sortDefinitions, hlen]

/-- The step at a place is made from the definition and the identifier at that place. -/
theorem getElem_buildStepInstances (hlen : uids.length = definitions.length) {i : Nat}
    (hi : i < (buildStepInstances run definitions input uids).length) (hu : i < uids.length)
    (hd : i < (sortDefinitions definitions).length) :
    (buildStepInstances run definitions input uids)[i] =
      newStepInstance run uids[i] (OrderLabel.forPosition i (sortDefinitions definitions).length)
        ((StepGraph.linear uids).links uids[i]) input (sortDefinitions definitions)[i] := by
  have htake : uids.take (sortDefinitions definitions).length = uids := by
    rw [length_sortDefinitions, ← hlen, List.take_length]
  simp [buildStepInstances, htake]

/-- The steps of a new run carry the identifiers that were handed out, in their order. -/
theorem map_uid_buildStepInstances (hlen : uids.length = definitions.length) :
    (buildStepInstances run definitions input uids).map (·.uid) = uids := by
  have hlength := length_buildStepInstances run input hlen
  refine List.ext_getElem (by rw [List.length_map, hlength]) fun i hi hu ↦ ?_
  have hb : i < (buildStepInstances run definitions input uids).length := hlength ▸ hu
  have hd : i < (sortDefinitions definitions).length := by
    rw [length_sortDefinitions, ← hlen]
    exact hu
  rw [List.getElem_map, getElem_buildStepInstances run input hlen hb hu hd]
  rfl

theorem exists_of_mem_buildStepInstances (hlen : uids.length = definitions.length)
    {s : StepInstance} (hs : s ∈ buildStepInstances run definitions input uids) :
    ∃ uid label links, ∃ d ∈ definitions, s = newStepInstance run uid label links input d := by
  obtain ⟨i, hi, rfl⟩ := List.getElem_of_mem hs
  have hu : i < uids.length := length_buildStepInstances run input hlen ▸ hi
  have hd : i < (sortDefinitions definitions).length := by
    rw [length_sortDefinitions, ← hlen]
    exact hu
  exact ⟨_, _, _, _, (mem_ordered _).1 (List.getElem_mem hd),
    getElem_buildStepInstances run input hlen hi hu hd⟩

theorem of_mem_buildStepInstances (hlen : uids.length = definitions.length) {s : StepInstance}
    (hs : s ∈ buildStepInstances run definitions input uids) :
    s.Fresh ∧ s.workflowInstanceUid = run ∧ ∃ d ∈ definitions, s.shape = d.shape := by
  obtain ⟨uid, label, links, d, hd, rfl⟩ := exists_of_mem_buildStepInstances run input hlen hs
  exact ⟨⟨rfl, rfl⟩, rfl, d, hd, rfl⟩

theorem linked_buildStepInstances (hlen : uids.length = definitions.length) (hnd : uids.Nodup) :
    Linked (buildStepInstances run definitions input uids) := by
  refine linked_of_getElem fun i hi ↦ ?_
  have hu : i < uids.length := length_buildStepInstances run input hlen ▸ hi
  have hd : i < (sortDefinitions definitions).length := by
    rw [length_sortDefinitions, ← hlen]
    exact hu
  rw [getElem_buildStepInstances run input hlen hi hu hd, ← List.getElem?_map,
    map_uid_buildStepInstances run input hlen]
  exact StepGraph.links_next hnd hu

theorem label_buildStepInstances (hlen : uids.length = definitions.length) {i : Nat}
    (hi : i < (buildStepInstances run definitions input uids).length) :
    (buildStepInstances run definitions input uids)[i].runOrderLabel =
      OrderLabel.forPosition i (buildStepInstances run definitions input uids).length := by
  have hlength := length_buildStepInstances run input hlen
  have hu : i < uids.length := hlength ▸ hi
  have hd : i < (sortDefinitions definitions).length := by
    rw [length_sortDefinitions, ← hlen]
    exact hu
  rw [getElem_buildStepInstances run input hlen hi hu hd, hlength, hlen, length_sortDefinitions]
  rfl

theorem headed_buildStepInstances (hlen : uids.length = definitions.length)
    (hne : definitions ≠ []) : Headed (buildStepInstances run definitions input uids) := by
  have hlabel : ∀ i (hi : i < (buildStepInstances run definitions input uids).length),
      (buildStepInstances run definitions input uids)[i].runOrderLabel =
        OrderLabel.forPosition i (buildStepInstances run definitions input uids).length :=
    fun i hi ↦ label_buildStepInstances run input hlen hi
  have hpos : 0 < (buildStepInstances run definitions input uids).length := by
    rw [length_buildStepInstances run input hlen, hlen]
    exact List.length_pos_iff.2 hne
  cases hcs : buildStepInstances run definitions input uids with
  | nil => simp [hcs] at hpos
  | cons s rest =>
    simp only [hcs] at hlabel
    refine ⟨hlabel 0 (by simp), fun x hx hx' ↦ ?_⟩
    obtain ⟨i, hi, rfl⟩ := List.getElem_of_mem hx
    have hfirst := (hlabel (i + 1) (Nat.succ_lt_succ hi)).symm.trans hx'
    exact Nat.succ_ne_zero i (OrderLabel.forPosition_eq_first_iff.1 hfirst)

end Building

end Chain

end Orchestration
