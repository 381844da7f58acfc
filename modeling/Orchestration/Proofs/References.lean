import Orchestration.Engine.Launch

/-!
# The functions that steps refer to

A list of references has one entry for each function that some step may call, in the order of the
functions.
-/

namespace Orchestration

namespace Uid

theorem lt_iff {a b : Uid} : a.lt b = true ↔ a.bits.toNat < b.bits.toNat := decide_eq_true_iff

theorem lt_trans {a b c : Uid} (h : a.lt b = true) (h' : b.lt c = true) : a.lt c = true :=
  lt_iff.2 (Nat.lt_trans (lt_iff.1 h) (lt_iff.1 h'))

theorem lt_of_not_lt {a b : Uid} (hne : a ≠ b) (h : ¬a.lt b = true) : b.lt a = true := by
  rw [lt_iff] at h ⊢
  refine Nat.lt_of_le_of_ne (Nat.not_lt.1 h) fun hbits ↦ hne ?_
  exact congrArg Uid.mk (BitVec.eq_of_toNat_eq hbits.symm)

end Uid

namespace Engine

theorem mem_keys_addReference {f g : Uid} {name : String} {refs : List (Uid × String)} :
    f ∈ (Setup.addReference g name refs).map (·.1) ↔ f = g ∨ f ∈ refs.map (·.1) := by
  induction refs with
  | nil => simp [Setup.addReference]
  | cons entry rest ih =>
    rw [Setup.addReference]
    split
    · next h => simp [h]
    · split
      · simp
      · simp [ih, or_left_comm]

theorem mem_keys_foldl_addReference {f : Uid} {name : String} {fs : List Uid}
    {refs : List (Uid × String)} :
    f ∈ (fs.foldl (fun refs g ↦ Setup.addReference g name refs) refs).map (·.1) ↔
      f ∈ fs ∨ f ∈ refs.map (·.1) := by
  induction fs generalizing refs with
  | nil => simp
  | cons g rest ih => rw [List.foldl_cons, ih, mem_keys_addReference, List.mem_cons, or_left_comm,
      or_assoc]

/-- **The functions that are looked up are those that the steps may call.** -/
theorem mem_keys_referencedFunctions {f : Uid} {steps : List StepDefinition} :
    f ∈ (Setup.referencedFunctions steps).map (·.1) ↔ ∃ d ∈ steps, f ∈ d.shape.functionRefs := by
  have hall : ∀ (ds : List StepDefinition) (refs : List (Uid × String)),
      f ∈ (ds.foldl (fun refs d ↦ d.shape.functionRefs.foldl
        (fun refs g ↦ Setup.addReference g d.name refs) refs) refs).map (·.1) ↔
      (∃ d ∈ ds, f ∈ d.shape.functionRefs) ∨ f ∈ refs.map (·.1) := by
    intro ds
    induction ds with
    | nil => simp
    | cons d rest ih =>
      intro refs
      simp only [List.foldl_cons, ih, mem_keys_foldl_addReference, List.mem_cons, exists_eq_or_imp,
        or_left_comm, or_assoc]
  exact (hall steps []).trans (by simp)

/-! ## No function twice -/

/-- References in ascending order of the functions. -/
def Ascends (refs : List (Uid × String)) : Prop := refs.Pairwise fun a b ↦ a.1.lt b.1 = true

theorem mem_of_mem_addReference {g : Uid} {name : String} {refs : List (Uid × String)}
    {ref : Uid × String} (h : ref ∈ Setup.addReference g name refs) :
    ref = (g, name) ∨ ref ∈ refs := by
  induction refs with
  | nil => exact .inl (List.mem_singleton.1 h)
  | cons entry rest ih =>
    rw [Setup.addReference] at h
    split at h
    · exact .inr h
    · split at h
      · exact List.mem_cons.1 h
      · rcases List.mem_cons.1 h with rfl | h
        · exact .inr List.mem_cons_self
        · exact (ih h).imp_right (List.mem_cons_of_mem _)

theorem Ascends.addReference {g : Uid} {name : String} {refs : List (Uid × String)}
    (h : Ascends refs) : Ascends (Setup.addReference g name refs) := by
  induction refs with
  | nil => exact List.pairwise_singleton _ _
  | cons entry rest ih =>
    obtain ⟨hentry, hrest⟩ := List.pairwise_cons.1 h
    rw [Setup.addReference]
    split
    · exact h
    · next hne =>
      split
      · next hlt =>
        refine List.pairwise_cons.2 ⟨fun ref href ↦ ?_, h⟩
        rcases List.mem_cons.1 href with rfl | href
        · exact hlt
        · exact Uid.lt_trans hlt (hentry ref href)
      · next hlt =>
        refine List.pairwise_cons.2 ⟨fun ref href ↦ ?_, ih hrest⟩
        rcases mem_of_mem_addReference href with rfl | href
        · exact Uid.lt_of_not_lt hne hlt
        · exact hentry ref href

/-- What is kept by adding the references of one step is kept by all of them. -/
theorem referencedFunctions_induction {P : List (Uid × String) → Prop} {steps : List StepDefinition}
    (hnil : P []) (hadd : ∀ d ∈ steps, ∀ f ∈ d.shape.functionRefs, ∀ refs, P refs →
      P (Setup.addReference f d.name refs)) : P (Setup.referencedFunctions steps) := by
  have hstep : ∀ (d : StepDefinition) (fs : List Uid) (refs : List (Uid × String)),
      (∀ f ∈ fs, ∀ refs, P refs → P (Setup.addReference f d.name refs)) → P refs →
        P (fs.foldl (fun refs f ↦ Setup.addReference f d.name refs) refs) := by
    intro d fs
    induction fs with
    | nil => exact fun _ _ h ↦ h
    | cons f rest ih =>
      exact fun refs hf h ↦ ih _ (fun g hg ↦ hf g (List.mem_cons_of_mem _ hg))
        (hf f List.mem_cons_self refs h)
  have hall : ∀ (ds : List StepDefinition) (refs : List (Uid × String)), ds ⊆ steps → P refs →
      P (ds.foldl (fun refs d ↦ d.shape.functionRefs.foldl
        (fun refs f ↦ Setup.addReference f d.name refs) refs) refs) := by
    intro ds
    induction ds with
    | nil => exact fun _ _ h ↦ h
    | cons d rest ih =>
      intro refs hds h
      obtain ⟨hd, hrest⟩ := List.cons_subset.1 hds
      exact ih _ hrest (hstep d _ refs (hadd d hd) h)
  exact hall steps [] (List.Subset.refl _) hnil

/-- No function is looked up twice, however many steps may call it. -/
theorem nodup_keys_referencedFunctions (steps : List StepDefinition) :
    ((Setup.referencedFunctions steps).map (·.1)).Nodup := by
  have hascends : Ascends (Setup.referencedFunctions steps) :=
    referencedFunctions_induction .nil fun _ _ _ _ _ h ↦ h.addReference
  refine List.pairwise_map.2 (hascends.imp fun h heq ↦ ?_)
  rw [heq] at h
  exact Nat.lt_irrefl _ (Uid.lt_iff.1 h)

/-- Each function stands beside the name of a step that may call it. -/
theorem exists_of_mem_referencedFunctions {steps : List StepDefinition} {ref : Uid × String}
    (h : ref ∈ Setup.referencedFunctions steps) :
    ∃ d ∈ steps, d.name = ref.2 ∧ ref.1 ∈ d.shape.functionRefs := by
  refine referencedFunctions_induction
    (P := fun refs ↦ ∀ ref ∈ refs, ∃ d ∈ steps, d.name = ref.2 ∧ ref.1 ∈ d.shape.functionRefs)
    nofun (fun d hd f hf refs hrefs ref href ↦ ?_) ref h
  rcases mem_of_mem_addReference href with rfl | href
  · exact ⟨d, hd, rfl, hf⟩
  · exact hrefs ref href

end Engine

end Orchestration
