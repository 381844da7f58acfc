/-!
# Dictionaries keyed by text

A dictionary is a list of entries in ascending order of their keys, one entry a key. The order is
that of Unicode scalar values, which is also the byte order of the keys' UTF-8 form, so that
whatever is printed from a dictionary comes out in one fixed order.

Nothing below assumes that its argument is sorted: `get?_insert` holds of every list of entries,
and `insert` keeps a sorted list sorted (`Sorted.insert`).
-/

namespace Orchestration

/-- A dictionary: its entries in ascending order of their keys. -/
abbrev Dict (α : Type u) := List (String × α)

namespace Dict

variable {α β : Type u}

/-- The value of the first entry under a key. -/
def get? : Dict α → String → Option α
  | [], _ => none
  | (k, v) :: rest, key => if k = key then some v else get? rest key

def contains (d : Dict α) (key : String) : Bool := (d.get? key).isSome

/-- Puts a value under a key, in place of the value it had. -/
def insert (key : String) (value : α) : Dict α → Dict α
  | [] => [(key, value)]
  | (k, v) :: rest =>
    if key = k then (key, value) :: rest
    else if key < k then (key, value) :: (k, v) :: rest
    else (k, v) :: insert key value rest

def erase (d : Dict α) (key : String) : Dict α := d.filter fun e => e.1 ≠ key

/-- The entries of `top` laid over those of `base`: where both have a key, `top` wins. -/
def overlay (base top : Dict α) : Dict α := top.foldl (fun d e => insert e.1 e.2 d) base

/-- The dictionary of a list of entries; of two entries under one key the later wins. -/
def ofList (entries : List (String × α)) : Dict α := overlay [] entries

/-- Applies a function to every value. -/
def mapValues (f : α → β) (d : Dict α) : Dict β := d.map fun e => (e.1, f e.2)

def Sorted (d : Dict α) : Prop := d.Pairwise fun a b => a.1 < b.1

/-! ## What each operation does to the view `get?` -/

@[simp] theorem get?_nil (key : String) : get? ([] : Dict α) key = none := rfl

theorem mem_of_get? {d : Dict α} {key : String} {value : α} (h : d.get? key = some value) :
    (key, value) ∈ d := by
  induction d with
  | nil => cases h
  | cons entry rest ih =>
    unfold get? at h
    split at h
    · next hk =>
      obtain rfl := Option.some.inj h
      exact hk ▸ List.mem_cons_self
    · exact List.mem_cons_of_mem _ (ih h)

theorem get?_insert (d : Dict α) (key key' : String) (value : α) :
    get? (insert key value d) key' = if key = key' then some value else get? d key' := by
  induction d with
  | nil => simp [insert, get?]
  | cons e rest ih =>
    obtain ⟨k, v⟩ := e
    simp only [insert]
    split
    · next hk => subst hk; by_cases hk' : key = key' <;> simp [get?, hk']
    · next hk =>
      split
      · by_cases hk' : key = key'
        · subst hk'; simp [get?]
        · simp [get?, hk']
      · by_cases hk' : k = key'
        · subst hk'; simp [get?, hk]
        · simp [get?, hk', ih]

theorem get?_overlay (base top : Dict α) (key : String) :
    get? (overlay base top) key = (get? top.reverse key).or (get? base key) := by
  have hsnoc : ∀ (xs : Dict α) (e : String × α),
      get? (xs ++ [e]) key = (get? xs key).or (if e.1 = key then some e.2 else none) := by
    intro xs e
    induction xs with
    | nil => simp [get?]
    | cons x xs ih => by_cases hx : x.1 = key <;> simp [get?, hx, ih]
  induction top generalizing base with
  | nil => simp [overlay]
  | cons e rest ih =>
    have hstep : overlay base (e :: rest) = overlay (insert e.1 e.2 base) rest := rfl
    rw [hstep, ih, get?_insert, List.reverse_cons, hsnoc]
    cases get? rest.reverse key <;> by_cases he : e.1 = key <;> simp [he]

theorem mem_keys_insert {d : Dict α} {key : String} {value : α} {e : String × α}
    (h : e ∈ insert key value d) : e.1 = key ∨ e ∈ d := by
  induction d with
  | nil => simp_all [insert]
  | cons x rest ih =>
    simp only [insert] at h
    split at h
    · rcases List.mem_cons.mp h with rfl | h
      · exact .inl rfl
      · exact .inr (List.mem_cons_of_mem _ h)
    · split at h
      · rcases List.mem_cons.mp h with rfl | h
        · exact .inl rfl
        · exact .inr h
      · rcases List.mem_cons.mp h with rfl | h
        · exact .inr List.mem_cons_self
        · exact (ih h).imp_right (List.mem_cons_of_mem _)

theorem Sorted.insert {d : Dict α} (h : Sorted d) (key : String) (value : α) :
    Sorted (insert key value d) := by
  induction d with
  | nil => simp [Dict.insert, Sorted]
  | cons x rest ih =>
    have hx := List.pairwise_cons.mp h
    simp only [Dict.insert]
    split
    · next hk => exact List.pairwise_cons.mpr ⟨fun y hy => hk ▸ hx.1 y hy, hx.2⟩
    · next hk =>
      split
      · next hlt =>
        refine List.pairwise_cons.mpr ⟨fun y hy => ?_, h⟩
        rcases List.mem_cons.mp hy with rfl | hy
        · exact hlt
        · exact String.lt_trans hlt (hx.1 y hy)
      · next hlt =>
        refine List.pairwise_cons.mpr ⟨fun y hy => ?_, ih hx.2⟩
        rcases mem_keys_insert hy with hkey | hy
        · have hle : x.1 ≤ key := String.not_lt.mp hlt
          have hne : x.1 ≠ key := fun he => hk he.symm
          exact hkey ▸ Std.lt_of_le_of_ne hle hne
        · exact hx.1 y hy

theorem Sorted.overlay {base : Dict α} (h : Sorted base) (top : Dict α) :
    Sorted (overlay base top) := by
  induction top generalizing base with
  | nil => exact h
  | cons e rest ih => exact ih (h.insert e.1 e.2)

end Dict

end Orchestration
