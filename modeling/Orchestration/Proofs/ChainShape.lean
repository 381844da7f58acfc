import Orchestration.Proofs.OrderFree
import Orchestration.Proofs.Records
import Orchestration.Proofs.StopCondition

/-!
# The shape of a chain

A run works its way along its chain. What lies behind it has been left for good: every step there is
completed or skipped, and if it is a loop its stop condition holds. What lies before it is as it was
made. In between stands one step, and only that one ever changes.

The chain is read along the links: each step names the next one (`Linked`), and only the first one
is labelled so (`Headed`). A run stands at a step (`StandsAt`) if everything before it has been left
and everything after it is fresh. A step may be gone on from (`Open`) if the run stands at it, or if
the run stands at its successor, which has no attempt under way that would be doubled.

All of this is about one list of steps; nothing here knows of the store.
-/

namespace Orchestration

open Engine (RefersToSelf stopValue)
open Expression (OrderFree Source isPlainSource orderFree_of_isPlain)
open Store (overwrite)

namespace StepInstance

/-- A step is as it was made. -/
def Fresh (s : StepInstance) : Prop := s.runStatus = .new ∧ s.runCount = 0

/-- A step, if it is a loop, is to stop. -/
def Stops (s : StepInstance) : Prop :=
  ∀ f text, s.shape = .doWhile f text → stopValue s text = .ok true

/-- A step has been left for good. -/
structure Left (s : StepInstance) : Prop where
  status : s.runStatus = .completed ∨ s.runStatus = .skipped
  stops : s.Stops

/-- A step, if it is a loop, has a stop condition over itself alone, which says the same whenever it
is evaluated over the same data. -/
def SelfGuided (shape : StepStructure) : Prop :=
  ∀ f text, shape = .doWhile f text → RefersToSelf text ∧ OrderFree text

/-- A step, if it is a loop, has a stop condition that names no step but its own and cannot tell the
order of members. -/
def isPlainlyGuided : StepStructure → Bool
  | .doWhile _ text => decide (RefersToSelf text) && (Source.parse? text).all isPlainSource
  | .simple _ | .switch .. | .subWorkflow _ => true

theorem selfGuided_of_isPlainlyGuided {shape : StepStructure} (h : isPlainlyGuided shape = true) :
    SelfGuided shape := by
  rintro f text rfl
  obtain ⟨hself, hplain⟩ := Bool.and_eq_true_iff.1 h
  exact ⟨of_decide_eq_true hself, orderFree_of_isPlain hplain⟩

theorem Fresh.not_left {s : StepInstance} (h : s.Fresh) : ¬s.Left := by
  intro hl
  rcases hl.status with hs | hs
  · exact absurd (h.1.symm.trans hs) (by decide)
  · exact absurd (h.1.symm.trans hs) (by decide)

theorem Fresh.ne_running {s : StepInstance} (h : s.Fresh) : s.runStatus ≠ .running := by
  rw [h.1]
  decide

theorem Left.ne_running {s : StepInstance} (h : s.Left) : s.runStatus ≠ .running := by
  rcases h.status with hs | hs
  · rw [hs]
    decide
  · rw [hs]
    decide

theorem Left.ne_new {s : StepInstance} (h : s.Left) : s.runStatus ≠ .new := by
  rcases h.status with hs | hs
  · rw [hs]
    decide
  · rw [hs]
    decide

end StepInstance

namespace Chain

variable {cs before after : List StepInstance} {c s x : StepInstance} {u v : Uid}

/-! ## Links -/

/-- Each step names the next one, and the last one names none. -/
def Linked : List StepInstance → Prop
  | [] => True
  | s :: rest => s.nextStepId = rest.head?.map (·.uid) ∧ Linked rest

/-- The first step is labelled so, and no other one is. -/
def Headed : List StepInstance → Prop
  | [] => False
  | s :: rest => s.runOrderLabel = .first ∧ ∀ x ∈ rest, x.runOrderLabel ≠ .first

theorem Linked.next (h : Linked (before ++ c :: after)) :
    c.nextStepId = after.head?.map (·.uid) := by
  induction before with
  | nil => exact h.1
  | cons b before ih => exact ih h.2

theorem Linked.exists_next (h : Linked cs) (hs : s ∈ cs) (hv : s.nextStepId = some v) :
    ∃ n ∈ cs, n.uid = v := by
  obtain ⟨before, after, rfl⟩ := List.append_of_mem hs
  have hnext := h.next.symm.trans hv
  cases after with
  | nil => cases hnext
  | cons n after => exact ⟨n, by simp, Option.some.inj hnext⟩

theorem Linked.next_ne (h : Linked cs) (hcs : (cs.map (·.uid)).Nodup) (hs : s ∈ cs) :
    s.nextStepId ≠ some s.uid := by
  obtain ⟨before, after, rfl⟩ := List.append_of_mem hs
  rw [h.next]
  cases after with
  | nil => simp
  | cons n after =>
    intro hn
    have hu : n.uid = s.uid := Option.some.inj hn
    rw [List.map_append, List.nodup_append] at hcs
    simp [hu] at hcs

theorem Linked.congr {cs' : List StepInstance}
    (h : cs'.map (fun s ↦ (s.uid, s.nextStepId)) = cs.map fun s ↦ (s.uid, s.nextStepId))
    (hl : Linked cs) : Linked cs' := by
  induction cs' generalizing cs with
  | nil => trivial
  | cons s' rest' ih =>
    cases cs with
    | nil => cases h
    | cons s rest =>
      rw [List.map_cons, List.map_cons, List.cons.injEq, Prod.mk.injEq] at h
      obtain ⟨⟨-, hnext⟩, hrest⟩ := h
      have hhead : rest'.head?.map (·.uid) = rest.head?.map (·.uid) := by
        have := congrArg (fun l ↦ (l.map Prod.fst).head?) hrest
        simpa [Function.comp_def] using this
      refine ⟨?_, ih hrest hl.2⟩
      rw [hnext, hl.1, hhead]

theorem Headed.congr {cs' : List StepInstance}
    (h : cs'.map (·.runOrderLabel) = cs.map (·.runOrderLabel)) (hh : Headed cs) : Headed cs' := by
  cases cs' with
  | nil => cases cs with
    | nil => exact hh
    | cons s rest => cases h
  | cons s' rest' => cases cs with
    | nil => cases h
    | cons s rest =>
      rw [List.map_cons, List.map_cons, List.cons.injEq] at h
      refine ⟨h.1.trans hh.1, fun x hx hl ↦ ?_⟩
      have hmem : x.runOrderLabel ∈ rest.map (·.runOrderLabel) := h.2 ▸ List.mem_map_of_mem hx
      obtain ⟨y, hy, hlabel⟩ := List.mem_map.1 hmem
      exact hh.2 y hy (hlabel.trans hl)

theorem Headed.eq_cons (h : Headed cs) (hs : s ∈ cs) (hl : s.runOrderLabel = .first) :
    ∃ rest, cs = s :: rest := by
  cases cs with
  | nil => cases hs
  | cons c rest =>
    rcases List.mem_cons.1 hs with rfl | hs
    · exact ⟨rest, rfl⟩
    · exact absurd hl (h.2 s hs)

/-! ## Where a run stands -/

/-- A run stands at a step of its chain. -/
def StandsAt (cs : List StepInstance) (u : Uid) : Prop :=
  ∃ before c after, cs = before ++ c :: after ∧ c.uid = u ∧ (∀ b ∈ before, b.Left) ∧
    ∀ a ∈ after, a.Fresh

theorem StandsAt.left_or_fresh (h : StandsAt cs u) (hs : s ∈ cs) (hu : s.uid ≠ u) :
    s.Left ∨ s.Fresh := by
  obtain ⟨before, c, after, rfl, rfl, hb, ha⟩ := h
  rcases List.mem_append.1 hs with hs | hs
  · exact .inl (hb s hs)
  · rcases List.mem_cons.1 hs with rfl | hs
    · exact absurd rfl hu
    · exact .inr (ha s hs)

/-- A step that has neither been left nor is fresh is where the run stands. -/
theorem StandsAt.eq_of_not (h : StandsAt cs u) (hs : s ∈ cs) (hl : ¬s.Left) (hf : ¬s.Fresh) :
    s.uid = u := by
  by_contra hu
  exact (h.left_or_fresh hs hu).elim hl hf

theorem StandsAt.eq_of_running (h : StandsAt cs u) (hs : s ∈ cs) (hr : s.runStatus = .running) :
    s.uid = u :=
  h.eq_of_not hs (fun hl ↦ hl.ne_running hr) fun hf ↦ hf.ne_running hr

theorem overwrite_middle (hcs : ((before ++ c :: after).map (·.uid)).Nodup) (hx : x.uid = c.uid) :
    overwrite (·.uid) x (before ++ c :: after) = before ++ x :: after := by
  rw [List.map_append, List.map_cons, List.nodup_middle, List.nodup_cons] at hcs
  have hne : ∀ y ∈ before ++ after, y.uid ≠ x.uid := by
    intro y hy hyx
    rw [← List.map_append] at hcs
    exact hcs.1 (List.mem_map.2 ⟨y, hy, hyx.trans hx⟩)
  have hcx : c.uid = x.uid := hx.symm
  rw [Store.overwrite_append,
    Store.overwrite_of_forall_ne fun y hy ↦ hne y (List.mem_append_left _ hy)]
  show before ++ (if c.uid = x.uid then x else c) :: Store.overwrite (·.uid) x after = _
  rw [if_pos hcx, Store.overwrite_of_forall_ne fun y hy ↦ hne y (List.mem_append_right _ hy)]

/-- The step where a run stands may become anything: the run stands there still. -/
theorem StandsAt.overwrite (h : StandsAt cs u) (hcs : (cs.map (·.uid)).Nodup) (hx : x.uid = u) :
    StandsAt (overwrite (·.uid) x cs) u := by
  obtain ⟨before, c, after, rfl, rfl, hb, ha⟩ := h
  exact ⟨before, x, after, overwrite_middle hcs hx, hx, hb, ha⟩

theorem StandsAt.of_fresh (h : ∀ s ∈ c :: cs, s.Fresh) : StandsAt (c :: cs) c.uid :=
  ⟨[], c, cs, rfl, rfl, by simp, fun a ha ↦ h a (List.mem_cons_of_mem _ ha)⟩

theorem StandsAt.eq_first (h : StandsAt cs u) (hh : Headed cs) (hs : s ∈ cs)
    (hl : s.runOrderLabel = .first) (hleft : ¬s.Left) : s.uid = u := by
  obtain ⟨rest, hcs⟩ := hh.eq_cons hs hl
  obtain ⟨before, c, after, rfl, rfl, hb, -⟩ := h
  cases before with
  | nil => rw [(List.cons.inj hcs).1]
  | cons b before =>
    rw [List.cons_append] at hcs
    exact absurd ((List.cons.inj hcs).1 ▸ hb b List.mem_cons_self) hleft

/-- Once the step where a run stands has been left, the run stands at the next one. -/
theorem StandsAt.next (h : StandsAt cs s.uid) (hs : s ∈ cs) (hcs : (cs.map (·.uid)).Nodup)
    (hlinked : Linked cs) (hl : s.Left) (hnext : s.nextStepId = some v) :
    StandsAt cs v ∧ ∀ n ∈ cs, n.uid = v → n.Fresh := by
  obtain ⟨before, c, after, rfl, hc, hb, ha⟩ := h
  obtain rfl : c = s := List.inj_on_of_nodup_map hcs (by simp) hs hc
  have hv := hlinked.next.symm.trans hnext
  cases after with
  | nil => cases hv
  | cons n rest =>
    obtain rfl : n.uid = v := Option.some.inj hv
    refine ⟨⟨before ++ [c], n, rest, by simp, rfl, ?_, fun a hra ↦ ?_⟩, fun m hm hu ↦ ?_⟩
    · intro b hbc
      rcases List.mem_append.1 hbc with hbb | hbc
      · exact hb b hbb
      · exact List.mem_singleton.1 hbc ▸ hl
    · exact ha a (List.mem_cons_of_mem _ hra)
    · obtain rfl : m = n := List.inj_on_of_nodup_map hcs hm (by simp) hu
      exact ha m List.mem_cons_self

/-- A step behind the one where a run stands names a step that is not beyond that one. -/
theorem Linked.next_of_mem_before (h : Linked (before ++ c :: after)) (hs : s ∈ before) :
    ∃ n ∈ before ++ [c], s.nextStepId = some n.uid := by
  obtain ⟨before, between, rfl⟩ := List.append_of_mem hs
  rw [List.append_assoc, List.cons_append] at h
  have hnext := h.next
  cases between with
  | nil => exact ⟨c, by simp, hnext⟩
  | cons n between => exact ⟨n, by simp, hnext⟩

theorem StandsAt.eq_of_no_next (h : StandsAt cs u) (hlinked : Linked cs) (hs : s ∈ cs)
    (hl : s.Left) (hnone : s.nextStepId = none) : s.uid = u := by
  obtain ⟨before, c, after, rfl, rfl, -, ha⟩ := h
  rcases List.mem_append.1 hs with hs | hs
  · obtain ⟨n, -, hn⟩ := hlinked.next_of_mem_before hs
    rw [hnone] at hn
    cases hn
  · rcases List.mem_cons.1 hs with rfl | hs
    · rfl
    · exact absurd hl (ha s hs).not_left

/-! ## Going on -/

/-- A step may be launched: the run stands at it, and it has no attempt under way. -/
structure Ready (cs : List StepInstance) (u : Uid) : Prop where
  stands : StandsAt cs u
  idle : ∀ s ∈ cs, s.uid = u → s.runStatus ≠ .running

/-- A run may go on from a step: it stands there, or at the successor of the step, which is new. -/
def Open (cs : List StepInstance) (u : Uid) : Prop :=
  StandsAt cs u ∨
    ∃ s ∈ cs, ∃ n ∈ cs, s.uid = u ∧ s.Left ∧ s.nextStepId = some n.uid ∧ StandsAt cs n.uid ∧
      n.runStatus = .new

/-- A run may go on from a step that has been left if the step that it names is new. -/
theorem StandsAt.open_of_next_new (h : StandsAt cs u) (hcs : (cs.map (·.uid)).Nodup)
    (hlinked : Linked cs) (hs : s ∈ cs) (hl : s.Left) {n : StepInstance} (hn : n ∈ cs)
    (hnext : s.nextStepId = some n.uid) (hnew : n.runStatus = .new) : Open cs s.uid := by
  by_cases hu : s.uid = u
  · exact .inl (hu ▸ h)
  refine .inr ⟨s, hs, n, hn, rfl, hl, hnext, ?_, hnew⟩
  obtain ⟨before, c, after, rfl, rfl, hb, ha⟩ := h
  have hsb : s ∈ before := by
    rcases List.mem_append.1 hs with hs | hs
    · exact hs
    · rcases List.mem_cons.1 hs with rfl | hs
      · exact absurd rfl hu
      · exact absurd hl (ha s hs).not_left
  obtain ⟨m, hm, hsm⟩ := hlinked.next_of_mem_before hsb
  obtain rfl : m = n := by
    refine List.inj_on_of_nodup_map hcs ?_ hn (Option.some.inj (hsm.symm.trans hnext))
    exact List.append_subset.2 ⟨List.subset_append_left _ _, by simp⟩ hm
  rcases List.mem_append.1 hm with hm | hm
  · exact absurd hnew (hb m hm).ne_new
  · obtain rfl := List.mem_singleton.1 hm
    exact ⟨before, m, after, rfl, rfl, hb, ha⟩

/-- A run that stands at a step with an attempt under way may go on from no other step. -/
theorem Open.standsAt_of_running (h : Open cs u) (hs : s ∈ cs) (hr : s.runStatus = .running)
    (hcs : (cs.map (·.uid)).Nodup) : u = s.uid := by
  rcases h with h | ⟨p, hp, n, hn, rfl, hleft, hnext, hstands, hnew⟩
  · exact (h.eq_of_running hs hr).symm
  · have hsn : s = n := List.inj_on_of_nodup_map hcs hs hn (hstands.eq_of_running hs hr)
    rw [hsn, hnew] at hr
    cases hr

/-- From where a run may go on, the successor of a step that has been left may be launched. -/
theorem Open.ready_next (h : Open cs s.uid) (hs : s ∈ cs) (hcs : (cs.map (·.uid)).Nodup)
    (hlinked : Linked cs) (hl : s.Left) (hnext : s.nextStepId = some v) : Ready cs v := by
  rcases h with h | ⟨p, hp, n, hn, hu, -, hpn, hstands, hnew⟩
  · obtain ⟨hstands, hfresh⟩ := h.next hs hcs hlinked hl hnext
    exact ⟨hstands, fun n hn hu ↦ (hfresh n hn hu).ne_running⟩
  · obtain rfl : p = s := List.inj_on_of_nodup_map hcs hp hs hu
    obtain rfl : n.uid = v := Option.some.inj (hpn.symm.trans hnext)
    refine ⟨hstands, fun m hm hmu ↦ ?_⟩
    obtain rfl : m = n := List.inj_on_of_nodup_map hcs hm hn hmu
    rw [hnew]
    decide

/-- From where a run may go on, the successor of a step that has been left is new. -/
theorem Open.new_next (h : Open cs s.uid) (hs : s ∈ cs) (hcs : (cs.map (·.uid)).Nodup)
    (hlinked : Linked cs) (hl : s.Left) {n : StepInstance} (hn : n ∈ cs)
    (hnext : s.nextStepId = some n.uid) : n.runStatus = .new := by
  rcases h with h | ⟨p, hp, m, hm, hu, -, hpm, -, hnew⟩
  · exact ((h.next hs hcs hlinked hl hnext).2 n hn rfl).1
  · obtain rfl : p = s := List.inj_on_of_nodup_map hcs hp hs hu
    have hmn : m.uid = n.uid := Option.some.inj (hpm.symm.trans hnext)
    rw [← List.inj_on_of_nodup_map hcs hm hn hmn]
    exact hnew

/-- From where a run may go on, a step that has not been left is where the run stands. -/
theorem Open.standsAt (h : Open cs s.uid) (hs : s ∈ cs) (hcs : (cs.map (·.uid)).Nodup)
    (hl : ¬s.Left) : StandsAt cs s.uid := by
  rcases h with h | ⟨p, hp, n, hn, hu, hleft, -⟩
  · exact h
  · obtain rfl : p = s := List.inj_on_of_nodup_map hcs hp hs hu
    exact absurd hleft hl

end Chain

end Orchestration
