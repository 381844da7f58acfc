import Orchestration.Proofs.OperationDeeds

/-!
# Histories

A history is a series of operations with their logs and outcomes, from the empty store on. Every
reachable scene has a history (`reachable_iff_history`), and what every operation does it does by
deeds. So there are two ways to show something of everything that has happened: by induction on the
operations of a history, and within an operation by induction on its deeds.
-/

namespace Orchestration

namespace Engine

variable {R : Rule} {setup : Setup} {G : Uid → Prop} {s s' : Scene}

/-- An operation that has been carried out, with its log and its outcome. -/
structure Done where
  operation : Operation
  log : List Moment
  outcome : Except EngineError Unit

/-- A series of operations that leads from the empty store to a scene, while there is room for the
results of every step. -/
inductive History (setup : Setup) (R : Rule) : List Done → Scene → Prop where
  | empty : History setup R [] {}
  | more {past : List Done} {s s' : Scene} (d : Done) (before : History setup R past s)
      (logs : Logs R (d.operation.action setup) s d.log d.outcome s') (room : s'.HasRoom) :
      History setup R (past ++ [d]) s'

/-- All calls of a series of operations. -/
def logOf (past : List Done) : List Moment := past.flatMap (·.log)

theorem logOf_concat (past : List Done) (d : Done) : logOf (past ++ [d]) = logOf past ++ d.log := by
  simp [logOf]

theorem reachable_iff_history : Reachable setup R s ↔ ∃ past, History setup R past s := by
  constructor
  · intro h
    induction h with
    | empty => exact ⟨[], .empty⟩
    | step o _ hrun room ih =>
      obtain ⟨past, hpast⟩ := ih
      obtain ⟨log, hlog⟩ := runs_iff_logs.1 hrun
      exact ⟨_, .more ⟨o, log, _⟩ hpast hlog room⟩
  · rintro ⟨past, h⟩
    induction h with
    | empty => exact .empty
    | more d _ hlogs room ih => exact .step d.operation ih hlogs.runs room

variable {past : List Done}

theorem History.sound (hR : Guiding R G) (h : History setup R past s) : Sound setup G s := by
  induction h with
  | empty => exact ⟨standing_empty setup G, fun q hq ↦ (nomatch hq), fun q hq ↦ nomatch hq⟩
  | more d _ hlogs _ ih => exact (deeds_of_logs hR ih hlogs).sound

theorem sound_of_reachable (hR : Guiding R G) (h : Reachable setup R s) : Sound setup G s := by
  obtain ⟨past, hpast⟩ := reachable_iff_history.1 h
  exact hpast.sound hR

theorem guiding_nobody (R : Rule) : Guiding R fun _ ↦ False := fun _ _ _ _ h ↦ h.elim

theorem Sound.deeds (hR : Guiding R G) (hs : Sound setup G s) {o : Operation}
    {r : Except EngineError Unit} (hrun : Runs R (o.action setup) s r s') :
    ∃ log, Logs R (o.action setup) s log r s' ∧ Deeds setup G o s log s' := by
  obtain ⟨log, hlog⟩ := runs_iff_logs.1 hrun
  exact ⟨log, hlog, deeds_of_logs hR hs hlog⟩

theorem Reachable.deeds (hR : Guiding R G) (h : Reachable setup R s) {o : Operation}
    {r : Except EngineError Unit} (hrun : Runs R (o.action setup) s r s') :
    ∃ log, Logs R (o.action setup) s log r s' ∧ Deeds setup G o s log s' :=
  (sound_of_reachable hR h).deeds hR hrun

/-! ## Induction -/

theorem Deeds.holds {o : Operation} {s₀ : Scene} {log : List Moment}
    {P : List Moment → Scene → Prop} (h : Deeds setup G o s₀ log s) (hbegin : P [] s₀)
    (hdeed : ∀ ⦃log s l s'⦄, Sound setup G s → Sound setup G s' →
      Deed setup G o s₀ log s l s' → P log s → P (log ++ l) s') : P log s := by
  induction h with
  | none _ => exact hbegin
  | more before deed hs' ih => exact hdeed before.sound hs' deed ih

/-- What every deed keeps and the end of an operation does not end holds after every history. -/
theorem History.holds (hR : Guiding R G) {A : Operation → Prop}
    {P : List Done → List Moment → Scene → Prop} (h : History setup R past s)
    (hall : ∀ d ∈ past, A d.operation) (hempty : P [] [] {})
    (hdeed : ∀ ⦃past o s₀ log s l s'⦄, A o → Sound setup G s → Sound setup G s' →
      Deed setup G o s₀ log s l s' → P past log s → P past (log ++ l) s')
    (hdone : ∀ ⦃past d s⦄, P past d.log s → P (past ++ [d]) [] s) : P past [] s := by
  induction h with
  | empty => exact hempty
  | more d before hlogs _ ih =>
    have hbegin := ih fun e he ↦ hall e (List.mem_append_left _ he)
    have hd := hall d (List.mem_append_right _ (List.mem_singleton_self d))
    exact hdone ((deeds_of_logs hR (before.sound hR) hlogs).holds hbegin
      fun _ _ _ _ hs hs' deed hP ↦ hdeed hd hs hs' deed hP)

/-! ## Parts of a history -/

/-- A history that is cut at one of its operations; what had been made by then is never
forgotten. -/
theorem History.cut {earlier later : List Done} {d : Done}
    (h : History setup R (earlier ++ d :: later) s) : ∃ s₁ s₂, History setup R earlier s₁ ∧
      Logs R (d.operation.action setup) s₁ d.log d.outcome s₂ ∧ s₂.made ⊆ s.made := by
  generalize hpast : earlier ++ d :: later = past at h
  induction h generalizing later with
  | empty => simp at hpast
  | @more past s₁ s₂ e before hlogs _ ih =>
    rcases List.eq_nil_or_concat later with rfl | ⟨init, last, rfl⟩
    · obtain ⟨rfl, he⟩ := List.append_inj' hpast rfl
      obtain rfl := (List.cons.inj he).1
      exact ⟨s₁, s₂, before, hlogs, List.Subset.refl _⟩
    · rw [List.concat_eq_append, ← List.cons_append, ← List.append_assoc] at hpast
      obtain ⟨t₁, t₂, hearlier, hlogs', hmade⟩ := ih (List.append_inj' hpast rfl).1
      exact ⟨t₁, t₂, hearlier, hlogs', List.Subset.trans hmade hlogs.runs.made_subset⟩

/-- Where all runs that were made have a property in the end, each had it when it was made. -/
theorem History.making_of_made {P : WorkflowInstance × List StepInstance → Prop}
    (h : History setup R past s) (hP : ∀ m ∈ s.made, P m) : History setup (making P) past s := by
  induction h with
  | empty => exact .empty
  | more d _ hlogs room ih =>
    exact .more d (ih fun m hm ↦ hP m (hlogs.runs.made_subset hm)) (hlogs.making_of_made hP) room

end Engine

end Orchestration
