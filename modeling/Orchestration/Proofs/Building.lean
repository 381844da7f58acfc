import Mathlib.Data.List.Basic
import Orchestration.Proofs.NewChain
import Orchestration.Proofs.Spelling

/-!
# How the steps of a new run are linked

Sorting, labelling and linking look at definitions, at places and at identifiers, each for itself.
What ties them together is that the step at a place is made from the definition and the identifier
at that place.

The identifiers are handed out in a row, and two that stand next to each other in the row are a
link. As no identifier stands there twice, each begins one link at most and ends one at most, so
that a step names its successor exactly if its successor names it (`StepGraph.next_iff_previous`).
From the first step the links lead through all of them (`Chain.walks_iff`), and what they end at is
the step that its label or its missing link shows to be the last
(`Chain.wellBuilt_buildStepInstances`).
-/

namespace Orchestration

/-! ## The order of execution -/

/-- Definitions in the order of execution; those of one order are in the order in which they
were. -/
structure InExecutionOrder (definitions sorted : List StepDefinition) : Prop where
  perm : sorted.Perm definitions
  ascending : sorted.Pairwise fun a b ↦ a.executionOrder ≤ b.executionOrder
  stable : ∀ order : Int, sorted.filter (fun d ↦ d.executionOrder = order) =
    definitions.filter fun d ↦ d.executionOrder = order

theorem inExecutionOrder_sortDefinitions (definitions : List StepDefinition) :
    InExecutionOrder definitions (sortDefinitions definitions) where
  perm := ordered_perm _ _
  ascending := by
    refine (pairwise_ordered ?_ ?_ definitions).imp fun h ↦ of_decide_eq_true h
    · intro a b
      simpa using Int.le_total a.executionOrder b.executionOrder
    · intro a b c hab hbc
      exact decide_eq_true (Int.le_trans (of_decide_eq_true hab) (of_decide_eq_true hbc))
  stable order := by
    refine filter_ordered (fun a b ha hb ↦ ?_) definitions
    rw [of_decide_eq_true ha, of_decide_eq_true hb]
    exact decide_eq_true (Int.le_refl order)

/-! ## Links -/

namespace StepGraph

variable {order : List Uid} {u v : Uid}

theorem map_fst_zip_sublist (l m : List Uid) : ((l.zip m).map Prod.fst).Sublist l := by
  induction l generalizing m with
  | nil => exact List.Sublist.refl _
  | cons a l ih =>
    cases m with
    | nil => exact List.nil_sublist _
    | cons b m => exact (ih m).cons_cons a

theorem getLast?_filter_eq_some_iff {edges : List (Uid × Uid)} {key : Uid × Uid → Uid}
    (h : (edges.map key).Nodup) {e : Uid × Uid} :
    (edges.filter fun e ↦ key e = u).getLast? = some e ↔ e ∈ edges ∧ key e = u := by
  constructor
  · intro he
    simpa using List.mem_filter.1 (List.mem_of_getLast? he)
  · rintro ⟨he, rfl⟩
    rw [Store.filter_eq_singleton h he]
    rfl

theorem next_eq_some_iff (h : order.Nodup) :
    ((linear order).links u).next = some v ↔ (u, v) ∈ (linear order).edges := by
  have hedges : ((linear order).edges.map Prod.fst).Nodup := h.sublist (map_fst_zip_sublist _ _)
  rw [links, Option.map_eq_some_iff]
  constructor
  · rintro ⟨e, he, rfl⟩
    obtain ⟨hmem, rfl⟩ := (getLast?_filter_eq_some_iff hedges).1 he
    exact hmem
  · intro hmem
    exact ⟨(u, v), (getLast?_filter_eq_some_iff hedges).2 ⟨hmem, rfl⟩, rfl⟩

theorem previous_eq_some_iff (h : order.Nodup) :
    ((linear order).links v).previous = some u ↔ (u, v) ∈ (linear order).edges := by
  have hedges : ((linear order).edges.map Prod.snd).Nodup := by
    rw [edges, List.map_snd_zip (by simp)]
    exact h.sublist (List.tail_sublist _)
  rw [links, Option.map_eq_some_iff]
  constructor
  · rintro ⟨e, he, rfl⟩
    obtain ⟨hmem, rfl⟩ := (getLast?_filter_eq_some_iff hedges).1 he
    exact hmem
  · intro hmem
    exact ⟨(u, v), (getLast?_filter_eq_some_iff hedges).2 ⟨hmem, rfl⟩, rfl⟩

theorem next_iff_previous (h : order.Nodup) :
    ((linear order).links u).next = some v ↔ ((linear order).links v).previous = some u := by
  rw [next_eq_some_iff h, previous_eq_some_iff h]

theorem mem_of_mem_edges (h : (u, v) ∈ (linear order).edges) : u ∈ order ∧ v ∈ order :=
  ⟨(List.of_mem_zip h).1, List.mem_of_mem_tail (List.of_mem_zip h).2⟩

end StepGraph

namespace Chain

variable {steps rest walk : List StepInstance} {s : StepInstance}

/-- A walk from a step along the links to the next steps, as far as they lead. -/
inductive Walks (steps : List StepInstance) : StepInstance → List StepInstance → Prop where
  | stop {s : StepInstance} (hnone : s.nextStepId = none) : Walks steps s [s]
  | go {s n : StepInstance} {rest : List StepInstance} (hn : n ∈ steps)
      (hnext : s.nextStepId = some n.uid) (hrest : Walks steps n rest) : Walks steps s (s :: rest)

theorem walks_iff (hsteps : (steps.map (·.uid)).Nodup) (hlinked : Linked (s :: rest))
    (hsub : s :: rest ⊆ steps) : Walks steps s walk ↔ walk = s :: rest := by
  induction rest generalizing s walk with
  | nil =>
    have hnone : s.nextStepId = none := hlinked.1
    constructor
    · intro h
      cases h with
      | stop => rfl
      | go _ hnext _ => cases hnone.symm.trans hnext
    · rintro rfl
      exact .stop hnone
  | cons n rest ih =>
    have hnext : s.nextStepId = some n.uid := hlinked.1
    have hsub' : n :: rest ⊆ steps := (List.cons_subset.1 hsub).2
    have hn : n ∈ steps := hsub' List.mem_cons_self
    constructor
    · intro h
      cases h with
      | stop hnone => cases hnone.symm.trans hnext
      | @go _ n' walk hn' hnext' hrest =>
        -- no other step has the identifier that the link names
        obtain rfl := List.inj_on_of_nodup_map hsteps hn' hn
          (Option.some.inj (hnext'.symm.trans hnext))
        rw [(ih hlinked.2 hsub').1 hrest]
    · rintro rfl
      exact .go hn hnext ((ih hlinked.2 hsub').2 rfl)

/-! ## What a run begins with -/

/-- A step is as it is made from a definition, its place and its input apart. -/
structure MadeFrom (run : Uid) (s : StepInstance) (d : StepDefinition) : Prop where
  run : s.workflowInstanceUid = run
  definition : s.stepDefinitionUid = d.uid
  name : s.name = d.name
  shape : s.shape = d.shape
  order : s.executionOrder = d.executionOrder
  retries : s.retryCount = max d.retryCount 0
  status : s.runStatus = .new
  count : s.runCount = 0
  unused : s.selectedCaseName = none ∧ s.outputData = [] ∧ s.failureReason = none ∧
    s.startTime = none ∧ s.endTime = none

/-- The steps of a new run: one for each definition in the order of execution, labelled by their
places and linked to one chain. -/
structure WellBuilt (run : Uid) (sorted : List StepDefinition) (input : Json.Object)
    (steps : List StepInstance) : Prop where
  made : List.Forall₂ (MadeFrom run) steps sorted
  first : ∀ i (hi : i < steps.length), steps[i].runOrderLabel = .first ↔ i = 0
  last : ∀ i (hi : i < steps.length), steps[i].runOrderLabel = .last ↔ 0 < i ∧ i + 1 = steps.length
  intermediate : ∀ i (hi : i < steps.length),
    steps[i].runOrderLabel = .intermediate ↔ 0 < i ∧ i + 1 < steps.length
  /-- From the first step the links lead through all of them, in their order and once through
  each. -/
  path : ∀ s ∈ steps, s.runOrderLabel = .first → ∀ walk, Walks steps s walk ↔ walk = steps
  distinct : (steps.map (·.uid)).Nodup
  /-- No step but the one that the way ends at is a last one. -/
  ending : ∀ i (hi : i < steps.length), steps[i].isLast = true ↔ i + 1 = steps.length
  next : ∀ a ∈ steps, ∀ v,
    a.nextStepId = some v ↔ ∃ b ∈ steps, b.uid = v ∧ b.previousStepId = some a.uid
  previous : ∀ b ∈ steps, ∀ u,
    b.previousStepId = some u ↔ ∃ a ∈ steps, a.uid = u ∧ a.nextStepId = some b.uid
  /-- The first step has the input of the workflow, with its own template laid over it. -/
  overlaid : ∀ (hi : 0 < steps.length) (hd : 0 < sorted.length), steps[0].inputData.Sorted ∧
    ∀ key, steps[0].inputData.get? key = (sorted[0].inputData.get? key).or (input.get? key)
  template : ∀ i (hi : i < steps.length) (hd : i < sorted.length), 0 < i →
    steps[i].inputData = sorted[i].inputData

section Building

variable (run : Uid) {definitions : List StepDefinition} (input : Json.Object) {uids : List Uid}

theorem length_buildStepInstances_sorted (hlen : uids.length = definitions.length) :
    (buildStepInstances run definitions input uids).length =
      (sortDefinitions definitions).length := by
  rw [length_buildStepInstances run input hlen, length_sortDefinitions, hlen]

/-- The step at a place is made from the definition at that place. -/
theorem exists_getElem_buildStepInstances (hlen : uids.length = definitions.length) {i : Nat}
    (hi : i < (buildStepInstances run definitions input uids).length)
    (hd : i < (sortDefinitions definitions).length) :
    ∃ uid, (buildStepInstances run definitions input uids)[i] =
      newStepInstance run uid (OrderLabel.forPosition i (sortDefinitions definitions).length)
        ((StepGraph.linear uids).links uid) input (sortDefinitions definitions)[i] :=
  ⟨_, getElem_buildStepInstances run input hlen hi
    (length_buildStepInstances run input hlen ▸ hi) hd⟩

theorem madeFrom_buildStepInstances (hlen : uids.length = definitions.length) :
    List.Forall₂ (MadeFrom run) (buildStepInstances run definitions input uids)
      (sortDefinitions definitions) := by
  refine List.forall₂_iff_get.2
    ⟨length_buildStepInstances_sorted run input hlen, fun i hi hd ↦ ?_⟩
  obtain ⟨uid, hs⟩ := exists_getElem_buildStepInstances run input hlen hi hd
  rw [List.get_eq_getElem, List.get_eq_getElem, hs]
  exact ⟨rfl, rfl, rfl, rfl, rfl, rfl, rfl, rfl, rfl, rfl, rfl, rfl, rfl⟩

theorem links_of_mem_buildStepInstances (hlen : uids.length = definitions.length) {s : StepInstance}
    (hs : s ∈ buildStepInstances run definitions input uids) :
    s.nextStepId = ((StepGraph.linear uids).links s.uid).next ∧
      s.previousStepId = ((StepGraph.linear uids).links s.uid).previous := by
  obtain ⟨i, hi, rfl⟩ := List.getElem_of_mem hs
  obtain ⟨uid, hs⟩ := exists_getElem_buildStepInstances run input hlen hi
    (length_buildStepInstances_sorted run input hlen ▸ hi)
  rw [hs]
  exact ⟨rfl, rfl⟩

theorem mem_uids_iff (hlen : uids.length = definitions.length) {u : Uid} :
    u ∈ uids ↔ ∃ s ∈ buildStepInstances run definitions input uids, s.uid = u := by
  rw [← List.mem_map, map_uid_buildStepInstances run input hlen]

theorem next_iff_buildStepInstances (hlen : uids.length = definitions.length) (hnd : uids.Nodup)
    {a : StepInstance} (ha : a ∈ buildStepInstances run definitions input uids) (v : Uid) :
    a.nextStepId = some v ↔ ∃ b ∈ buildStepInstances run definitions input uids,
      b.uid = v ∧ b.previousStepId = some a.uid := by
  rw [(links_of_mem_buildStepInstances run input hlen ha).1]
  constructor
  · intro h
    have hv := (StepGraph.mem_of_mem_edges ((StepGraph.next_eq_some_iff hnd).1 h)).2
    obtain ⟨b, hb, rfl⟩ := (mem_uids_iff run input hlen).1 hv
    refine ⟨b, hb, rfl, ?_⟩
    rw [(links_of_mem_buildStepInstances run input hlen hb).2]
    exact (StepGraph.next_iff_previous hnd).1 h
  · rintro ⟨b, hb, rfl, h⟩
    rw [(links_of_mem_buildStepInstances run input hlen hb).2] at h
    exact (StepGraph.next_iff_previous hnd).2 h

theorem previous_iff_buildStepInstances (hlen : uids.length = definitions.length) (hnd : uids.Nodup)
    {b : StepInstance} (hb : b ∈ buildStepInstances run definitions input uids) (u : Uid) :
    b.previousStepId = some u ↔ ∃ a ∈ buildStepInstances run definitions input uids,
      a.uid = u ∧ a.nextStepId = some b.uid := by
  rw [(links_of_mem_buildStepInstances run input hlen hb).2]
  constructor
  · intro h
    have hu := (StepGraph.mem_of_mem_edges ((StepGraph.previous_eq_some_iff hnd).1 h)).1
    obtain ⟨a, ha, rfl⟩ := (mem_uids_iff run input hlen).1 hu
    refine ⟨a, ha, rfl, ?_⟩
    rw [(links_of_mem_buildStepInstances run input hlen ha).1]
    exact (StepGraph.next_iff_previous hnd).2 h
  · rintro ⟨a, ha, rfl, h⟩
    rw [(links_of_mem_buildStepInstances run input hlen ha).1] at h
    exact (StepGraph.next_iff_previous hnd).1 h

/-- A step is a last one by its label or for want of a next one, which comes to the same. -/
theorem isLast_buildStepInstances (hlen : uids.length = definitions.length) (hnd : uids.Nodup)
    {i : Nat} (hi : i < (buildStepInstances run definitions input uids).length) :
    (buildStepInstances run definitions input uids)[i].isLast = true ↔
      i + 1 = (buildStepInstances run definitions input uids).length := by
  have hlength := length_buildStepInstances run input hlen
  have hu : i < uids.length := hlength ▸ hi
  have huid : (buildStepInstances run definitions input uids)[i].uid = uids[i] := by
    rw [getElem_buildStepInstances run input hlen hi hu
      (length_buildStepInstances_sorted run input hlen ▸ hi)]
    rfl
  have hnext : (buildStepInstances run definitions input uids)[i].nextStepId = uids[i + 1]? := by
    rw [(links_of_mem_buildStepInstances run input hlen (List.getElem_mem hi)).1, huid]
    exact StepGraph.links_next hnd hu
  rw [StepInstance.isLast, Bool.or_eq_true, beq_iff_eq, hnext, Option.isNone_iff_eq_none,
    List.getElem?_eq_none_iff, label_buildStepInstances run input hlen hi,
    OrderLabel.forPosition_eq_last_iff, hlength]
  omega

/-- The way along the links from the first step leads through all of them. -/
theorem walks_buildStepInstances (hlen : uids.length = definitions.length) (hnd : uids.Nodup)
    (hne : definitions ≠ []) {s : StepInstance}
    (hs : s ∈ buildStepInstances run definitions input uids) (hfirst : s.runOrderLabel = .first)
    (walk : List StepInstance) : Walks (buildStepInstances run definitions input uids) s walk ↔
      walk = buildStepInstances run definitions input uids := by
  have hdistinct : ((buildStepInstances run definitions input uids).map (·.uid)).Nodup := by
    rw [map_uid_buildStepInstances run input hlen]
    exact hnd
  have hlinked := linked_buildStepInstances run input hlen hnd
  have hheaded := headed_buildStepInstances run input hlen hne
  cases hsteps : buildStepInstances run definitions input uids with
  | nil => simp [hsteps] at hs
  | cons head rest =>
    rw [hsteps] at hs hdistinct hlinked hheaded
    rcases List.mem_cons.1 hs with rfl | hs
    · exact walks_iff hdistinct hlinked (List.Subset.refl _)
    · exact absurd hfirst (hheaded.2 s hs)

/-- **The steps of a new run are one chain.** Whatever the definitions are, and whatever the input
of the workflow, there is one step for each definition in the order of execution, definitions of one
order in the order in which they were given; the steps are labelled by their places, the links lead
from the first one through all of them to the only one that is a last one, and each step starts from
its template, the first one with the input of the workflow under it. -/
theorem wellBuilt_buildStepInstances (hne : definitions ≠ [])
    (htemplates : ∀ d ∈ definitions, d.inputData.Sorted) (hinput : input.Sorted)
    (hlen : uids.length = definitions.length) (hnd : uids.Nodup) :
    ∃ sorted, InExecutionOrder definitions sorted ∧
      WellBuilt run sorted input (buildStepInstances run definitions input uids) := by
  have hlength := length_buildStepInstances_sorted run input hlen
  refine ⟨sortDefinitions definitions, inExecutionOrder_sortDefinitions definitions, ?_⟩
  constructor
  case made => exact madeFrom_buildStepInstances run input hlen
  case first =>
    intro i hi
    rw [label_buildStepInstances run input hlen hi, OrderLabel.forPosition_eq_first_iff]
  case last =>
    intro i hi
    rw [label_buildStepInstances run input hlen hi, OrderLabel.forPosition_eq_last_iff]
  case intermediate =>
    intro i hi
    rw [label_buildStepInstances run input hlen hi, OrderLabel.forPosition_eq_intermediate_iff hi]
  case path =>
    intro s hs hfirst walk
    exact walks_buildStepInstances run input hlen hnd hne hs hfirst walk
  case distinct =>
    rw [map_uid_buildStepInstances run input hlen]
    exact hnd
  case ending =>
    intro i hi
    exact isLast_buildStepInstances run input hlen hnd hi
  case next =>
    intro a ha v
    exact next_iff_buildStepInstances run input hlen hnd ha v
  case previous =>
    intro b hb u
    exact previous_iff_buildStepInstances run input hlen hnd hb u
  case overlaid =>
    intro hi hd
    obtain ⟨uid, hs⟩ := exists_getElem_buildStepInstances run input hlen hi hd
    have hsorted : (sortDefinitions definitions)[0].inputData.Sorted :=
      htemplates _ ((mem_ordered _).1 (List.getElem_mem hd))
    have hdata : (buildStepInstances run definitions input uids)[0].inputData =
        Dict.overlay input (sortDefinitions definitions)[0].inputData := by
      rw [hs]
      rfl
    rw [hdata]
    refine ⟨hinput.overlay _, fun key ↦ ?_⟩
    rw [Dict.get?_overlay, Dict.get?_eq_of_perm (List.reverse_perm _) fun v w hv hw ↦
      Dict.eq_of_mem_of_nodup hsorted.nodup (List.mem_reverse.1 hv) (List.mem_reverse.1 hw)]
  case template =>
    intro i hi hd hpos
    obtain ⟨uid, hs⟩ := exists_getElem_buildStepInstances run input hlen hi hd
    rw [hs]
    exact if_neg fun hfirst ↦ Nat.ne_of_gt hpos (OrderLabel.forPosition_eq_first_iff.1 hfirst)

end Building

/-- Four definitions, of which two have the greatest order and two the same one below zero. -/
def tiedDefinitions : List StepDefinition :=
  [{ uid := .ofNat 1, name := "d", executionOrder := 2147483647, retryCount := 2147483647,
     inputData := [("x", .int 1)], shape := .simple (.ofNat 9) },
    { uid := .ofNat 2, name := "b", executionOrder := -5, retryCount := -2147483648,
      inputData := [("x", .int 2), ("y", .str "[d.output.k]")], shape := .subWorkflow (.ofNat 8) },
    { uid := .ofNat 3, name := "a", executionOrder := 2147483647, retryCount := 3,
      shape := .doWhile (.ofNat 9) "runCount > 2" },
    { uid := .ofNat 4, name := "c", executionOrder := -5, shape := .simple (.ofNat 9) }]

theorem wellBuilt_of_tiedDefinitions :
    let input : Json.Object := [("w", .null), ("x", .int 0)]
    let uids : List Uid := [.ofNat 20, .ofNat 21, .ofNat 22, .ofNat 23]
    let steps := buildStepInstances (.ofNat 7) tiedDefinitions input uids
    (uids.length = tiedDefinitions.length ∧ uids.Nodup) ∧
    steps.map (·.name) = ["b", "c", "d", "a"] ∧
    ∃ sorted, InExecutionOrder tiedDefinitions sorted ∧
      WellBuilt (.ofNat 7) sorted input steps := by
  have hlen : [Uid.ofNat 20, .ofNat 21, .ofNat 22, .ofNat 23].length = tiedDefinitions.length := rfl
  have hnd : [Uid.ofNat 20, .ofNat 21, .ofNat 22, .ofNat 23].Nodup := by decide
  have hinput : Dict.Sorted [("w", Json.null), ("x", .int 0)] := by
    unfold Dict.Sorted
    decide
  have htemplates : ∀ d ∈ tiedDefinitions, d.inputData.Sorted := by
    unfold Dict.Sorted
    decide
  refine ⟨⟨hlen, hnd⟩, by decide +kernel, ?_⟩
  exact wellBuilt_buildStepInstances (.ofNat 7) _ (by decide) htemplates hinput hlen hnd

end Chain

end Orchestration
