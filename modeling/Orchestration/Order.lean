/-!
# Sorting

Steps are taken in the order of their execution and runs in the order of their age, and those of
equal order stay as they are. The sort here is by insertion from the right: an item goes in front of
the first one that it may stand before. What comes out is ordered and has the same items. It comes
to what the library's stable sort comes to (`ordered_eq_mergeSort`).
-/

namespace Orchestration

variable {α : Type u}

/-- Puts an item in front of the first one that it may stand before. -/
def insertOrdered (before : α → α → Bool) (a : α) : List α → List α
  | [] => [a]
  | b :: rest => if before a b then a :: b :: rest else b :: insertOrdered before a rest

/-- The items of a list in their order; those of equal order keep theirs. -/
def ordered (before : α → α → Bool) : List α → List α
  | [] => []
  | a :: rest => insertOrdered before a (ordered before rest)

variable (before : α → α → Bool)

theorem insertOrdered_perm (a : α) (l : List α) : (insertOrdered before a l).Perm (a :: l) := by
  induction l with
  | nil => exact .refl _
  | cons b rest ih =>
    unfold insertOrdered
    split
    · exact .refl _
    · exact (ih.cons b).trans (.swap a b rest)

theorem ordered_perm (l : List α) : (ordered before l).Perm l := by
  induction l with
  | nil => exact .refl _
  | cons a rest ih => exact (insertOrdered_perm before a _).trans (ih.cons a)

theorem length_ordered (l : List α) : (ordered before l).length = l.length :=
  (ordered_perm before l).length_eq

theorem mem_ordered {l : List α} {a : α} : a ∈ ordered before l ↔ a ∈ l :=
  (ordered_perm before l).mem_iff

variable {before}

/-- What comes out is ordered, if the order is total and transitive. -/
theorem pairwise_ordered (htotal : ∀ a b, before a b = true ∨ before b a = true)
    (htrans : ∀ a b c, before a b = true → before b c = true → before a c = true) (l : List α) :
    (ordered before l).Pairwise fun a b => before a b = true := by
  have hinsert : ∀ (a : α) (l : List α), (l.Pairwise fun a b => before a b = true) →
      (insertOrdered before a l).Pairwise fun a b => before a b = true := by
    intro a l h
    induction l with
    | nil => exact List.pairwise_singleton _ _
    | cons b rest ih =>
      obtain ⟨hb, hrest⟩ := List.pairwise_cons.1 h
      unfold insertOrdered
      split
      · next hab =>
        refine List.pairwise_cons.2 ⟨fun c hc => ?_, h⟩
        rcases List.mem_cons.1 hc with rfl | hc
        · exact hab
        · exact htrans a b c hab (hb c hc)
      · next hab =>
        refine List.pairwise_cons.2 ⟨fun c hc => ?_, ih hrest⟩
        rcases List.mem_cons.1 ((insertOrdered_perm before a rest).mem_iff.1 hc) with rfl | hc
        · exact (htotal c b).resolve_left hab
        · exact hb c hc
  induction l with
  | nil => exact .nil
  | cons a rest ih => exact hinsert a _ ih

/-- Items that may all stand before one another stay in the order in which they were. -/
theorem filter_ordered {p : α → Bool} (h : ∀ a b, p a = true → p b = true → before a b = true)
    (l : List α) : (ordered before l).filter p = l.filter p := by
  have hinsert : ∀ (a : α) (l : List α), (insertOrdered before a l).filter p =
      (a :: l).filter p := by
    intro a l
    induction l with
    | nil => rfl
    | cons b rest ih =>
      unfold insertOrdered
      split
      · rfl
      · next hab =>
        -- the item that is passed is not one of those that are looked at, or the new one is not
        rw [List.filter_cons, ih]
        by_cases ha : p a = true
        · have hb : ¬ p b = true := fun hb => hab (h a b ha hb)
          simp [ha, hb]
        · simp [List.filter_cons, ha]
  induction l with
  | nil => rfl
  | cons a rest ih => rw [ordered, hinsert, List.filter_cons, List.filter_cons, ih]

/-- An item is put behind those that it may not stand before, in front of the others. -/
private theorem insertOrdered_append {a : α} {l₁ l₂ : List α} (h₁ : ∀ b ∈ l₁, before a b = false)
    (h₂ : ∀ b ∈ l₂, before a b = true) : insertOrdered before a (l₁ ++ l₂) = l₁ ++ a :: l₂ := by
  induction l₁ with
  | nil =>
    cases l₂ with
    | nil => rfl
    | cons b rest => exact if_pos (h₂ b List.mem_cons_self)
  | cons b rest ih =>
    have hb := h₁ b List.mem_cons_self
    rw [List.cons_append, insertOrdered, if_neg (by simp [hb]),
      ih fun c hc => h₁ c (List.mem_cons_of_mem _ hc)]
    rfl

/-- The sort is the stable one: any other that keeps the order of equals comes to the same. -/
theorem ordered_eq_mergeSort (htotal : ∀ a b, before a b = true ∨ before b a = true)
    (htrans : ∀ a b c, before a b = true → before b c = true → before a c = true) (l : List α) :
    ordered before l = l.mergeSort before := by
  have htotal' : ∀ a b, (before a b || before b a) = true := fun a b => by
    rw [Bool.or_eq_true]
    exact htotal a b
  induction l with
  | nil => simp [ordered]
  | cons a rest ih =>
    obtain ⟨l₁, l₂, hcons, hrest, hbehind⟩ := List.mergeSort_cons htrans htotal' a rest
    have hpairs := List.pairwise_mergeSort htrans htotal' (a :: rest)
    rw [hcons] at hpairs ⊢
    rw [ordered, ih, hrest]
    refine insertOrdered_append (fun b hb => by simpa using hbehind b hb) ?_
    exact (List.pairwise_cons.1 (List.pairwise_append.1 hpairs).2.1).1

end Orchestration
