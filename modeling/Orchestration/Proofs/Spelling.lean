import Mathlib.Data.List.Nodup
import Mathlib.Data.List.Perm.Basic
import Orchestration.Json.Decoder
import Orchestration.Proofs.Texts

/-!
# Documents that say the same

A type says which names the members of its documents have a meaning under, and what the types of
these members are (`Schema`). In a tagged record this depends on the text of the tag. A document
spells another one if it differs in the order of members, or has members of other names added, at
any depth (`Spells`). Where all names mean something, as in nested data, nothing can be added.

A way to write values and to read them is faithful if each value is read off every spelling of its
document (`Faithful`). For this, what is read must not depend on the order of members, so that
nested data has to be canonical (`canonicalMembers_eq_self_iff`), and records must be read by the
names of their fields (`Record.Holds`).
-/

namespace Orchestration

/-! ## Lookups and order -/

namespace Dict

variable {α β : Type} {d e l : Dict α} {key : String} {v : α}

@[simp] theorem get?_cons (x : String × α) (d : Dict α) (key : String) :
    get? (x :: d) key = if x.1 = key then some x.2 else get? d key := rfl

@[simp] theorem get?_append (d e : Dict α) (key : String) :
    get? (d ++ e) key = (get? d key).or (get? e key) := by
  induction d with
  | nil => simp
  | cons x rest ih =>
    by_cases hx : x.1 = key
    · simp [get?, hx]
    · simp [get?, hx, ih]

@[simp] theorem get?_ofList (l : List (String × α)) (key : String) :
    get? (ofList l) key = get? l.reverse key := by simp [ofList, get?_overlay]

theorem get?_eq_none_iff : get? d key = none ↔ ∀ x ∈ d, x.1 ≠ key := by
  induction d with
  | nil => simp
  | cons x rest ih =>
    by_cases hx : x.1 = key
    · simp [get?, hx]
    · simp [get?, hx, ih]

/-- The order of entries does not matter for a key that has one value. -/
theorem get?_eq_of_perm (h : d.Perm e) (hone : ∀ v w, (key, v) ∈ d → (key, w) ∈ d → v = w) :
    get? d key = get? e key := by
  cases hd : get? d key with
  | none =>
    exact (get?_eq_none_iff.2 fun x hx ↦ get?_eq_none_iff.1 hd x (h.mem_iff.2 hx)).symm
  | some v =>
    have hv := mem_of_get? hd
    cases he : get? e key with
    | none => exact absurd rfl (get?_eq_none_iff.1 he _ (h.mem_iff.1 hv))
    | some w => rw [hone v w hv (h.mem_iff.2 (mem_of_get? he))]

theorem eq_of_mem_of_nodup {w : α} (h : (d.map Prod.fst).Nodup) (hv : (key, v) ∈ d)
    (hw : (key, w) ∈ d) : v = w :=
  (Prod.mk.inj (List.inj_on_of_nodup_map h hv hw rfl)).2

theorem get?_filter {p : String → Bool} (d : Dict α) (hp : p key = true) :
    get? (d.filter fun x ↦ p x.1) key = get? d key := by
  induction d with
  | nil => rfl
  | cons x rest ih =>
    by_cases hx : x.1 = key
    · simp [get?, hx, hp]
    · by_cases hpx : p x.1 = true
      · simp [get?, hx, hpx, ih]
      · simp [get?, hx, hpx, ih]

theorem filter_eq_singleton (h : (d.map Prod.fst).Nodup) (hv : get? d key = some v) :
    d.filter (fun x ↦ x.1 = key) = [(key, v)] := by
  induction d with
  | nil => cases hv
  | cons x rest ih =>
    obtain ⟨hx, hrest⟩ := List.nodup_cons.1 h
    unfold get? at hv
    split at hv
    · next hkey =>
      obtain rfl := Option.some.inj hv
      obtain rfl := hkey
      have hnone : rest.filter (fun y ↦ y.1 = x.1) = [] := List.filter_eq_nil_iff.2 fun y hy hkey ↦
        hx (List.mem_map.2 ⟨y, hy, of_decide_eq_true hkey⟩)
      rw [List.filter_cons_of_pos (by simp), hnone]
    · next hkey => rw [List.filter_cons_of_neg (by simpa using hkey), ih hrest hv]

theorem Sorted.nodup (h : Sorted d) : (d.map Prod.fst).Nodup :=
  List.pairwise_map.2 (h.imp fun hlt ↦ String.ne_of_lt hlt)

theorem eq_or_mem_of_mem_insert {x : String × α} (h : x ∈ insert key v d) :
    x = (key, v) ∨ x ∈ d := by
  induction d with
  | nil => exact .inl (List.mem_singleton.1 h)
  | cons y rest ih =>
    unfold insert at h
    split at h
    · exact (List.mem_cons.1 h).imp_right (List.mem_cons_of_mem _)
    · split at h
      · exact List.mem_cons.1 h
      · rcases List.mem_cons.1 h with rfl | h
        · exact .inr List.mem_cons_self
        · exact (ih h).imp_right (List.mem_cons_of_mem _)

theorem sorted_ofList (l : List (String × α)) : Sorted (ofList l) :=
  Sorted.overlay List.Pairwise.nil l

theorem Sorted.ext (hd : Sorted d) (he : Sorted e) (h : ∀ key, get? d key = get? e key) :
    d = e := by
  have hmem : ∀ {a b : Dict α}, Sorted a → (∀ key, get? a key = get? b key) → ∀ x ∈ a, x ∈ b := by
    intro a b ha hab x hx
    cases hfound : get? a x.1 with
    | none => exact absurd rfl (get?_eq_none_iff.1 hfound x hx)
    | some v =>
      have hx' : (x.1, x.2) ∈ a := hx
      have hv : x = (x.1, v) := Prod.ext rfl (eq_of_mem_of_nodup ha.nodup hx' (mem_of_get? hfound))
      rw [hv]
      exact mem_of_get? ((hab x.1).symm.trans hfound)
  have hperm : d.Perm e := (List.perm_ext_iff_of_nodup (.of_map _ hd.nodup) (.of_map _ he.nodup)).2
    fun x ↦ ⟨hmem hd h x, hmem he (fun key ↦ (h key).symm) x⟩
  exact hperm.eq_of_pairwise (fun _ _ _ _ hab hba ↦ absurd hba (String.lt_asymm hab)) hd he

theorem mem_of_mem_ofList {x : String × α} (h : x ∈ ofList l) : x ∈ l := by
  cases hfound : get? (ofList l) x.1 with
  | none => exact absurd rfl (get?_eq_none_iff.1 hfound x h)
  | some v =>
    have hx : (x.1, x.2) ∈ ofList l := h
    have hv : x = (x.1, v) :=
      Prod.ext rfl (eq_of_mem_of_nodup (sorted_ofList l).nodup hx (mem_of_get? hfound))
    rw [hv]
    rw [get?_ofList] at hfound
    exact List.mem_reverse.1 (mem_of_get? hfound)

theorem ofList_eq_of_perm (hd : Sorted d) (h : l.Perm d) : ofList l = d := by
  refine (sorted_ofList l).ext hd fun key ↦ ?_
  have hreverse : l.reverse.Perm d := l.reverse_perm.trans h
  rw [get?_ofList]
  exact get?_eq_of_perm hreverse fun v w hv hw ↦
    eq_of_mem_of_nodup hd.nodup (hreverse.mem_iff.1 hv) (hreverse.mem_iff.1 hw)

/-- What is found in a dictionary of entries with different keys. -/
theorem get?_ofList_of_nodup (h : (l.map Prod.fst).Nodup) (key : String) :
    get? (ofList l) key = get? l key := by
  rw [get?_ofList]
  exact get?_eq_of_perm l.reverse_perm fun v w hv hw ↦
    eq_of_mem_of_nodup h (List.mem_reverse.1 hv) (List.mem_reverse.1 hw)

theorem Sorted.mapValues (h : Sorted d) (f : α → β) : Sorted (d.mapValues f) :=
  List.pairwise_map.2 h

end Dict

namespace Json

/-! ## Canonical data -/

theorem canonicalMembers_eq_ofList : (members : List (String × Json)) →
    canonicalMembers members = Dict.ofList (Dict.mapValues canonical members)
  | [] => rfl
  | (name, value) :: rest => by
    have hrest := canonicalMembers_eq_ofList rest
    have hfound : ∀ key, Dict.get? (Dict.ofList (Dict.mapValues canonical ((name, value) :: rest)))
        key = (Dict.get? (canonicalMembers rest) key).or
        (if name = key then some value.canonical else none) := by
      intro key
      rw [hrest, Dict.get?_ofList, Dict.get?_ofList, Dict.mapValues, List.map_cons,
        List.reverse_cons, Dict.get?_append]
      rfl
    have hsorted : Dict.Sorted (canonicalMembers rest) := hrest ▸ Dict.sorted_ofList _
    rw [canonicalMembers]
    split
    · next hlater =>
      refine hsorted.ext (Dict.sorted_ofList _) fun key ↦ ?_
      rw [hfound]
      by_cases hkey : name = key
      · obtain ⟨v, hv⟩ := Option.isSome_iff_exists.1 (hkey ▸ hlater)
        rw [hv, Option.some_or]
      · rw [if_neg hkey, Option.or_none]
    · next hlater =>
      have hnone : Dict.get? (canonicalMembers rest) name = none :=
        Option.not_isSome_iff_eq_none.1 hlater
      refine (hsorted.insert _ _).ext (Dict.sorted_ofList _) fun key ↦ ?_
      rw [hfound, Dict.get?_insert]
      by_cases hkey : name = key
      · rw [if_pos hkey, if_pos hkey, ← hkey, hnone, Option.none_or]
      · rw [if_neg hkey, if_neg hkey, Option.or_none]

theorem mapValues_canonical_eq_self_iff {d : Object} :
    d.mapValues canonical = d ↔ ∀ e ∈ d, e.2.canonical = e.2 := by
  have hself : d.mapValues canonical = d ↔ d.mapValues canonical = d.map id := by rw [List.map_id]
  rw [hself, Dict.mapValues, List.map_inj_left]
  exact forall₂_congr fun e _ ↦ ⟨fun h ↦ congrArg Prod.snd h, fun h ↦ Prod.ext rfl h⟩

/-- Data is canonical if its members are in order and hold canonical documents. -/
theorem canonicalMembers_eq_self_iff {d : Object} :
    canonicalMembers d = d ↔ d.Sorted ∧ ∀ e ∈ d, e.2.canonical = e.2 := by
  rw [canonicalMembers_eq_ofList, ← mapValues_canonical_eq_self_iff]
  constructor
  · intro h
    have hsorted : d.Sorted := h ▸ Dict.sorted_ofList _
    exact ⟨hsorted, by rwa [Dict.ofList_eq_of_perm (hsorted.mapValues canonical) (.refl _)] at h⟩
  · rintro ⟨hsorted, hvalues⟩
    rw [hvalues, Dict.ofList_eq_of_perm hsorted (.refl _)]

mutual

theorem canonical_canonical : (j : Json) → j.canonical.canonical = j.canonical
  | .null | .bool _ | .int _ | .float _ | .str _ => rfl
  | .arr items => by
    rw [canonical, canonical, canonicalItems_canonicalItems items]
  | .obj members => by
    rw [canonical, canonical, canonicalMembers_canonicalMembers members]

theorem canonicalItems_canonicalItems : (items : List Json) →
    canonicalItems (canonicalItems items) = canonicalItems items
  | [] => rfl
  | j :: rest => by
    rw [canonicalItems, canonicalItems, canonical_canonical j, canonicalItems_canonicalItems rest]

theorem canonicalMembers_canonicalMembers : (members : List (String × Json)) →
    canonicalMembers (canonicalMembers members) = canonicalMembers members
  | [] => rfl
  | (name, value) :: rest => by
    have hrest := canonicalMembers_eq_self_iff.1 (canonicalMembers_canonicalMembers rest)
    rw [canonicalMembers]
    split
    · exact canonicalMembers_eq_self_iff.2 hrest
    · refine canonicalMembers_eq_self_iff.2 ⟨hrest.1.insert _ _, fun e he ↦ ?_⟩
      rcases Dict.eq_or_mem_of_mem_insert he with rfl | he
      · exact canonical_canonical value
      · exact hrest.2 e he

end

/-! ## Spellings -/

/-- What the members of a document of some type mean. -/
inductive Schema where
  /-- Data of any kind, of which all is meant. -/
  | data
  | list (item : Schema)
  /-- An object whose members have any names and values of one type. -/
  | dict (value : Schema)
  /-- A record of fields. -/
  | record (names : List String) (field : String → Schema)
  /-- A record of a tag and of the fields that belong to its text. -/
  | union (tag : String) (names : String → List String) (field : String → Schema)

namespace Schema

def item : Schema → Schema
  | list σ => σ
  | _ => data

def member : Schema → String → Schema
  | dict σ, _ => σ
  | record _ field, name | union _ _ field, name => field name
  | _, _ => data

/-- A name has a meaning among some members. -/
def Defines : Schema → List (String × Json) → String → Prop
  | record names _, _, name => name ∈ names
  | union tag names _, members, name =>
    name = tag ∨ ∃ word, Dict.get? members tag = some (.str word) ∧ name ∈ names word
  | _, _, _ => True

end Schema

mutual

/-- A document is another one with the members of objects in any order, and with members of other
names than those that its type gives a meaning. -/
def Spells : Schema → Json → Json → Prop
  | σ, .arr items, j => ∃ items', j = .arr items' ∧ SpellsItems σ.item items items'
  | σ, .obj members, j => ∃ members' kept added, j = .obj members' ∧
      members'.Perm (kept ++ added) ∧ SpellsMembers σ.member members kept ∧
      ∀ e ∈ added, ¬ σ.Defines members e.1
  | _, .null, j => j = .null
  | _, .bool b, j => j = .bool b
  | _, .int n, j => j = .int n
  | _, .float x, j => j = .float x
  | _, .str s, j => j = .str s

/-- `Spells` item by item. -/
def SpellsItems : Schema → List Json → List Json → Prop
  | _, [], items => items = []
  | σ, j :: rest, items =>
    ∃ j' rest', items = j' :: rest' ∧ Spells σ j j' ∧ SpellsItems σ rest rest'

/-- `Spells` member by member. -/
def SpellsMembers : (String → Schema) → List (String × Json) → List (String × Json) → Prop
  | _, [], members => members = []
  | field, (name, j) :: rest, members => ∃ j' rest', members = (name, j') :: rest' ∧
      Spells (field name) j j' ∧ SpellsMembers field rest rest'

end

mutual

theorem Spells.refl : (σ : Schema) → (j : Json) → Spells σ j j
  | _, .null | _, .bool _ | _, .int _ | _, .float _ | _, .str _ => rfl
  | σ, .arr items => ⟨items, rfl, SpellsItems.refl σ.item items⟩
  | σ, .obj members =>
    ⟨members, members, [], rfl, by rw [List.append_nil], SpellsMembers.refl σ.member members, nofun⟩

theorem SpellsItems.refl : (σ : Schema) → (items : List Json) → SpellsItems σ items items
  | _, [] => rfl
  | σ, j :: rest => ⟨j, rest, rfl, Spells.refl σ j, SpellsItems.refl σ rest⟩

theorem SpellsMembers.refl : (field : String → Schema) → (members : List (String × Json)) →
    SpellsMembers field members members
  | _, [] => rfl
  | field, (name, j) :: rest =>
    ⟨j, rest, rfl, Spells.refl (field name) j, SpellsMembers.refl field rest⟩

end

variable {σ : Schema} {field : String → Schema} {names : List String} {name : String} {j : Json}
  {items items' : List Json} {members members' kept : List (String × Json)}

theorem spellsItems_iff : SpellsItems σ items items' ↔ List.Forall₂ (Spells σ) items items' := by
  induction items generalizing items' with
  | nil => exact List.forall₂_nil_left_iff.symm
  | cons j rest ih =>
    rw [List.forall₂_cons_left_iff]
    constructor
    · rintro ⟨j', rest', rfl, hj, hrest⟩
      exact ⟨j', rest', hj, ih.1 hrest, rfl⟩
    · rintro ⟨j', rest', hj, hrest, rfl⟩
      exact ⟨j', rest', rfl, hj, ih.2 hrest⟩

theorem spellsMembers_iff : SpellsMembers field members kept ↔
    List.Forall₂ (fun e e' ↦ e'.1 = e.1 ∧ Spells (field e.1) e.2 e'.2) members kept := by
  induction members generalizing kept with
  | nil => exact List.forall₂_nil_left_iff.symm
  | cons e rest ih =>
    rw [List.forall₂_cons_left_iff]
    constructor
    · rintro ⟨j', rest', rfl, hj, hrest⟩
      exact ⟨(e.1, j'), rest', ⟨rfl, hj⟩, ih.1 hrest, rfl⟩
    · rintro ⟨⟨name, j'⟩, rest', ⟨rfl, hj⟩, hrest, rfl⟩
      exact ⟨j', rest', rfl, hj, ih.2 hrest⟩

/-- What is spelled member by member is found under the same names. -/
theorem SpellsMembers.get? (h : SpellsMembers field members kept) (name : String) :
    Option.Rel (Spells (field name)) (Dict.get? members name) (Dict.get? kept name) := by
  rw [spellsMembers_iff] at h
  induction h with
  | nil => exact .none
  | @cons e e' rest rest' he _ ih =>
    obtain ⟨hname, hj⟩ := he
    by_cases hkey : e.1 = name
    · rw [Dict.get?, Dict.get?, if_pos hkey, if_pos (hname.trans hkey)]
      exact .some (hkey ▸ hj)
    · rwa [Dict.get?, Dict.get?, if_neg hkey, if_neg (hname ▸ hkey)]

theorem SpellsMembers.names_eq (h : SpellsMembers field members kept) :
    kept.map Prod.fst = members.map Prod.fst := by
  rw [spellsMembers_iff] at h
  induction h with
  | nil => rfl
  | cons he _ ih => rw [List.map_cons, List.map_cons, he.1, ih]

mutual

theorem canonical_of_spells : (j : Json) → {j' : Json} → Spells .data j j' → j.canonical = j →
    j'.canonical = j
  | .null, _, h, _ | .bool _, _, h, _ | .int _, _, h, _ | .float _, _, h, _ | .str _, _, h, _ => by
    rw [h]
    rfl
  | .arr items, _, ⟨items', hj, hitems⟩, hcanonical => by
    rw [hj, canonical, canonicalItems_of_spells items hitems (arr.inj hcanonical)]
  | .obj members, _, ⟨members', kept, added, hj, hperm, hkept, hadded⟩, hcanonical => by
    obtain ⟨hsorted, hvalues⟩ := canonicalMembers_eq_self_iff.1 (obj.inj hcanonical)
    obtain rfl : added = [] :=
      List.eq_nil_iff_forall_not_mem.2 fun e he ↦ hadded e he trivial
    rw [List.append_nil] at hperm
    have hmap := mapValues_of_spells members hkept hvalues
    rw [hj, canonical, canonicalMembers_eq_ofList,
      Dict.ofList_eq_of_perm hsorted (hmap ▸ hperm.map _)]

theorem canonicalItems_of_spells : (items : List Json) → {items' : List Json} →
    SpellsItems .data items items' → canonicalItems items = items → canonicalItems items' = items
  | [], _, h, _ => by
    rw [h]
    rfl
  | j :: rest, _, ⟨j', rest', hitems, hj, hrest⟩, hcanonical => by
    obtain ⟨hjc, hrestc⟩ := List.cons.inj hcanonical
    rw [hitems, canonicalItems, canonical_of_spells j hj hjc, canonicalItems_of_spells
      rest hrest hrestc]

theorem mapValues_of_spells : (members : List (String × Json)) → {kept : List (String × Json)} →
    SpellsMembers (fun _ ↦ .data) members kept → (∀ e ∈ members, e.2.canonical = e.2) →
    Dict.mapValues canonical kept = members
  | [], _, h, _ => by
    rw [h]
    rfl
  | (name, j) :: rest, _, ⟨j', rest', hkept, hj, hrest⟩, hvalues => by
    obtain ⟨hjc, hrestc⟩ := List.forall_mem_cons.1 hvalues
    have hrest' := mapValues_of_spells rest hrest hrestc
    rw [hkept, Dict.mapValues, List.map_cons, canonical_of_spells j hj hjc]
    exact congrArg _ hrest'

end

/-! ## Members that are spelled with others among them -/

/-- Some members are spelled, with members added that have no meaning. -/
def Rearranges (field : String → Schema) (Defined : String → Prop)
    (members members' : List (String × Json)) : Prop :=
  ∃ kept added, members'.Perm (kept ++ added) ∧ SpellsMembers field members kept ∧
    ∀ e ∈ added, ¬ Defined e.1

variable {Defined Defined' : String → Prop} {p : String → Bool} {tag kind : String}

theorem spells_obj_iff : Spells σ (.obj members) j ↔ ∃ members', j = .obj members' ∧
    Rearranges σ.member (σ.Defines members) members members' := by
  constructor
  · rintro ⟨members', kept, added, hj, hspelled⟩
    exact ⟨members', hj, kept, added, hspelled⟩
  · rintro ⟨members', hj, kept, added, hspelled⟩
    exact ⟨members', kept, added, hj, hspelled⟩

namespace Rearranges

/-- The members of some names are spelled by the members of these names. -/
theorem filter (h : Rearranges field Defined members members')
    (hdefined : ∀ name, p name = true → Defined' name → Defined name) :
    Rearranges field Defined' (members.filter fun e ↦ p e.1) (members'.filter fun e ↦ p e.1) := by
  obtain ⟨kept, added, hperm, hkept, hadded⟩ := h
  refine ⟨kept.filter fun e ↦ p e.1, added.filter fun e ↦ p e.1, ?_, ?_, fun e he hname ↦ ?_⟩
  · rw [← List.filter_append]
    exact hperm.filter _
  · rw [spellsMembers_iff] at hkept ⊢
    exact List.rel_filter (fun e e' he ↦ show p e.1 = true ↔ p e'.1 = true by rw [he.1]) hkept
  · obtain ⟨he, hp⟩ := List.mem_filter.1 he
    exact hadded e he (hdefined _ hp hname)

/-- If all names have a meaning, there are only the members that are spelled. -/
theorem perm (h : Rearranges field Defined members members') (hall : ∀ e ∈ members', Defined e.1) :
    ∃ kept, members'.Perm kept ∧ SpellsMembers field members kept := by
  obtain ⟨kept, added, hperm, hkept, hadded⟩ := h
  obtain rfl : added = [] := List.eq_nil_iff_forall_not_mem.2 fun e he ↦
    hadded e he (hall e (hperm.mem_iff.2 (List.mem_append_right _ he)))
  exact ⟨kept, by rwa [List.append_nil] at hperm, hkept⟩

theorem names_nodup (h : Rearranges field Defined members members')
    (hnodup : (members.map Prod.fst).Nodup) (hall : ∀ e ∈ members', Defined e.1) :
    (members'.map Prod.fst).Nodup := by
  obtain ⟨kept, hperm, hkept⟩ := h.perm hall
  rw [(hperm.map Prod.fst).nodup_iff, hkept.names_eq]
  exact hnodup

/-- What is found under a name with a meaning spells what is to be found there. -/
theorem get? (h : Rearranges field Defined members members') (hnodup : (members.map Prod.fst).Nodup)
    (hname : Defined name) :
    Option.Rel (Spells (field name)) (Dict.get? members name) (Dict.get? members' name) := by
  have honly : Rearranges field (· = name) (members.filter fun e ↦ e.1 = name)
      (members'.filter fun e ↦ e.1 = name) :=
    h.filter (p := fun key ↦ key = name) fun key _ hkey ↦ hkey ▸ hname
  have hall : ∀ e ∈ members'.filter (fun e ↦ e.1 = name), e.1 = name :=
    fun e he ↦ of_decide_eq_true (List.mem_filter.1 he).2
  have hnodup' : ((members.filter fun e ↦ e.1 = name).map Prod.fst).Nodup :=
    hnodup.sublist (List.filter_sublist.map _)
  have hfilter : ∀ l : List (String × Json),
      Dict.get? (l.filter fun e ↦ e.1 = name) name = Dict.get? l name :=
    fun l ↦ Dict.get?_filter (p := fun key ↦ key = name) l (decide_eq_true rfl)
  obtain ⟨kept, hperm, hkept⟩ := honly.perm hall
  rw [← hfilter members, ← hfilter members', Dict.get?_eq_of_perm hperm fun v w ↦
    Dict.eq_of_mem_of_nodup (honly.names_nodup hnodup' hall)]
  exact hkept.get? name

end Rearranges

/-! ## Records and tags -/

namespace Decoder

/-- The fields of a record are those of some members. -/
structure Record.Holds (r : Record) (field : String → Schema) (names : List String)
    (members : List (String × Json)) : Prop where
  listed : r.listed = false
  fields : ∀ name ∈ names, Option.Rel (Spells (field name)) (Dict.get? members name) (r.field? name)

/-- The fields of a record are read off any spelling of its members. -/
theorem named_of_rearranges (h : Rearranges field Defined members members')
    (hnodup : (members.map Prod.fst).Nodup) (hnames : ∀ name ∈ names, Defined name) :
    ∃ r, named names (.obj members') = some r ∧ r.Holds field names members := by
  have hknown : Rearranges field (· ∈ names) (members.filter fun e ↦ names.contains e.1)
      (members'.filter fun e ↦ names.contains e.1) := h.filter fun name _ hname ↦ hnames name hname
  have hall : ∀ e ∈ members'.filter (fun e ↦ names.contains e.1), e.1 ∈ names :=
    fun e he ↦ List.contains_iff_mem.1 (List.mem_filter.1 he).2
  have hfields : ((members'.filter fun e ↦ names.contains e.1).map (·.1)).Nodup :=
    hknown.names_nodup (hnodup.sublist (List.filter_sublist.map _)) hall
  refine ⟨⟨false, members'.filter fun e ↦ names.contains e.1⟩, ?_, rfl, fun name hname ↦ ?_⟩
  · rw [named, known, if_pos hfields]
    rfl
  · rw [Record.field?, Dict.get?_filter (p := fun key ↦ names.contains key) _
      (List.contains_iff_mem.2 hname)]
    exact h.get? hnodup (hnames name hname)

theorem record_of_spells (h : Spells (.record names field) (.obj members) j)
    (hnodup : (members.map Prod.fst).Nodup) :
    ∃ r, record names j = some r ∧ r.Holds field names members := by
  obtain ⟨members', rfl, hspelled⟩ := spells_obj_iff.1 h
  exact named_of_rearranges hspelled hnodup fun _ hname ↦ hname

/-- The tag and the fields that belong to it are read off any spelling of a tagged record. -/
theorem tagged_of_rearranges (names : List String) (h : Rearranges field Defined members members')
    (hnodup : (members.map Prod.fst).Nodup) (htag : Dict.get? members tag = some (.str kind))
    (hdefined : Defined tag) (hnames : ∀ name ∈ names, Defined name) (hother : tag ∉ names) :
    ∃ rest r, tagged tag (.obj members') = some (.str kind, rest) ∧ record names rest = some r ∧
      r.Holds field names members := by
  have hone : members'.filter (fun e ↦ e.1 = tag) = [(tag, .str kind)] := by
    have honly : Rearranges field (· = tag) (members.filter fun e ↦ e.1 = tag)
        (members'.filter fun e ↦ e.1 = tag) :=
      h.filter (p := fun key ↦ key = tag) fun key _ hkey ↦ hkey ▸ hdefined
    rw [Dict.filter_eq_singleton hnodup htag] at honly
    obtain ⟨kept, hperm, j', rest', rfl, hj, rfl⟩ :=
      honly.perm fun e he ↦ of_decide_eq_true (List.mem_filter.1 he).2
    rw [List.perm_singleton.1 hperm, show j' = .str kind from hj]
  have hrest : Rearranges field (· ∈ names) (members.filter fun e ↦ e.1 ≠ tag)
      (members'.filter fun e ↦ e.1 ≠ tag) :=
    h.filter (p := fun key ↦ key ≠ tag) fun name _ hname ↦ hnames name hname
  obtain ⟨r, hr, hfields⟩ := named_of_rearranges hrest
    (hnodup.sublist (List.filter_sublist.map _)) fun name hname ↦ hname
  refine ⟨.obj (members'.filter fun e ↦ e.1 ≠ tag), r, by rw [tagged, hone], hr, hfields.listed,
    fun name hname ↦ ?_⟩
  have hne : name ≠ tag := fun hkey ↦ hother (hkey ▸ hname)
  rw [← Dict.get?_filter (p := fun key ↦ key ≠ tag) members (decide_eq_true hne)]
  exact hfields.fields name hname

end Decoder

/-! ## Faithful formats -/

/-- Each value that fits a format is read off every spelling of its document, and no other values
are read at all. -/
structure Faithful {α : Type} (σ : Schema) (encode : α → Json) (decode : Decoder α)
    (Fits : α → Prop) : Prop where
  fits : ∀ {j a}, decode j = some a → Fits a
  reads : ∀ {a}, Fits a → ∀ {j}, Spells σ (encode a) j → decode j = some a

/-- An integer of 32 bits with a sign. -/
def IsInt32 (n : Int) : Prop := -pow2 31 ≤ n ∧ n ≤ pow2 31 - 1

instance (n : Int) : Decidable (IsInt32 n) := inferInstanceAs (Decidable (_ ∧ _))

/-- An integer of 64 bits without a sign. -/
def IsNat64 (n : Nat) : Prop := n < pow2 64

instance (n : Nat) : Decidable (IsNat64 n) := inferInstanceAs (Decidable (_ < _))

/-- Data as the engine holds it. -/
def IsData (d : Object) : Prop := canonicalMembers d = d

instance (d : Object) : Decidable (IsData d) := inferInstanceAs (Decidable (_ = _))

namespace Faithful

variable {α : Type} {encode : α → Json} {decode : Decoder α} {Fits : α → Prop}

theorem decode_encode (h : Faithful σ encode decode Fits) {a : α} (ha : Fits a) :
    decode (encode a) = some a := h.reads ha (.refl _ _)

theorem fits_iff (h : Faithful σ encode decode Fits) {a : α} : Fits a ↔ ∃ j, decode j = some a :=
  ⟨fun ha ↦ ⟨_, h.decode_encode ha⟩, fun ⟨_, hj⟩ ↦ h.fits hj⟩

theorem text : Faithful σ .str Decoder.text fun _ ↦ True where
  fits _ := trivial
  reads _ _ h := by
    rw [h]
    rfl

theorem bool : Faithful σ .bool Decoder.bool fun _ ↦ True where
  fits _ := trivial
  reads _ _ h := by
    rw [h]
    rfl

theorem uid : Faithful σ Uid.toJson Decoder.uid fun _ ↦ True where
  fits _ := trivial
  reads {u} _ j h := by
    have hj : j = .str u.text := h
    rw [hj, Decoder.uid, Decoder.text, Option.bind_some, Uid.parse?_text]

theorem word {text : α → String} {ofText? : String → Option α}
    (htext : ∀ a, ofText? (text a) = some a) :
    Faithful σ (fun a ↦ .str (text a)) (Decoder.word ofText?) fun _ ↦ True where
  fits _ := trivial
  reads {a} _ _ h := by
    rw [h]
    exact htext a

theorem int32 : Faithful σ .int Decoder.int32 IsInt32 where
  fits {j n} h := by
    cases j with
    | int m =>
      obtain ⟨hm, hn⟩ := Option.ite_none_right_eq_some.1 h
      exact Option.some.inj hn ▸ hm
    | _ => cases h
  reads hn _ h := by
    rw [h]
    exact if_pos hn

theorem nat64 : Faithful σ (fun n : Nat ↦ .int n) Decoder.nat64 IsNat64 where
  fits {j n} h := by
    obtain ⟨m, hm, rfl⟩ := Option.map_eq_some_iff.1 h
    cases j with
    | int k =>
      obtain ⟨hk, hkm⟩ := Option.ite_none_right_eq_some.1 hm
      obtain rfl := Option.some.inj hkm
      unfold IsNat64
      omega
    | _ => cases hm
  reads {n} hn _ h := by
    have hbounds : (0 : Int) ≤ n ∧ (n : Int) ≤ pow2 64 - 1 := by
      unfold IsNat64 at hn
      omega
    rw [h]
    show (if _ then _ else _ : Option Int).map Int.toNat = _
    rw [if_pos hbounds]
    rfl

theorem object : Faithful .data .obj Decoder.object IsData where
  fits {j d} h := by
    cases j with
    | obj members =>
      obtain rfl := Option.some.inj h
      exact canonicalMembers_canonicalMembers members
    | _ => cases h
  reads {d} hd j h := by
    obtain ⟨members, rfl, -⟩ := spells_obj_iff.1 h
    have hcanonical := canonical_of_spells (.obj d) h (congrArg Json.obj hd)
    exact congrArg some (obj.inj hcanonical)

theorem optional (h : Faithful σ encode decode Fits) (hnull : decode .null = none) :
    Faithful σ (ofOption encode) (Decoder.optional decode) fun o ↦ ∀ a ∈ o, Fits a where
  fits {j o} ho a ha := by
    obtain rfl := ha
    cases j with
    | null => cases ho
    | _ =>
      obtain ⟨b, hb, hab⟩ := Option.map_eq_some_iff.1 ho
      exact Option.some.inj hab ▸ h.fits hb
  reads {o} ho j hj := by
    cases o with
    | none =>
      rw [hj]
      rfl
    | some a =>
      have hread := h.reads (ho a rfl) hj
      cases j with
      | null => cases hnull.symm.trans hread
      | _ => exact congrArg (Option.map some) hread

theorem optionalText : Faithful σ ofText? (Decoder.optional Decoder.text) fun _ ↦ True where
  fits _ := trivial
  reads {o} _ j h := by
    have htext : ofText? o = ofOption .str o := by cases o <;> rfl
    rw [htext] at h
    exact (optional .text rfl).reads (fun _ _ ↦ trivial) h

theorem mapM_eq_some_iff {β : Type} {f : β → Option α} {xs : List β} {ys : List α} :
    xs.mapM f = some ys ↔ List.Forall₂ (fun x y ↦ f x = some y) xs ys := by
  induction xs generalizing ys with
  | nil =>
    rw [List.mapM_nil, List.forall₂_nil_left_iff]
    exact ⟨fun h ↦ (Option.some.inj h).symm, fun h ↦ congrArg some h.symm⟩
  | cons x rest ih =>
    rw [List.mapM_cons, List.forall₂_cons_left_iff]
    simp only [Option.bind_eq_bind, Option.bind_eq_some_iff, Option.pure_def, Option.some.injEq, ih]
    constructor
    · rintro ⟨y, hy, ys', hys, rfl⟩
      exact ⟨y, ys', hy, hys, rfl⟩
    · rintro ⟨y, ys', hy, hys, rfl⟩
      exact ⟨y, hy, ys', hys, rfl⟩

theorem exists_of_forall₂ {β : Type} {P : α → β → Prop} {xs : List α} {ys : List β}
    (h : List.Forall₂ P xs ys) : ∀ y ∈ ys, ∃ x, P x y := by
  induction h with
  | nil => exact nofun
  | cons hxy _ ih => exact List.forall_mem_cons.2 ⟨⟨_, hxy⟩, ih⟩

theorem list (h : Faithful σ encode decode Fits) :
    Faithful (.list σ) (fun l : List α ↦ .arr (l.map encode)) (Decoder.list decode)
      fun l ↦ ∀ a ∈ l, Fits a where
  fits {j l} hl a ha := by
    cases j with
    | arr items =>
      obtain ⟨item, hitem⟩ := exists_of_forall₂ (mapM_eq_some_iff.1 hl) a ha
      exact h.fits hitem
    | _ => cases hl
  reads {l} hl j hj := by
    obtain ⟨items, rfl, hitems⟩ := hj
    rw [spellsItems_iff, List.forall₂_map_left_iff] at hitems
    refine mapM_eq_some_iff.2 (.flip (.imp ?_ ((List.forall₂_and_left _ _).2 ⟨hl, hitems⟩)))
    exact fun a item ⟨ha, hspelled⟩ ↦ h.reads ha hspelled

theorem dict (h : Faithful σ encode decode Fits) :
    Faithful (.dict σ) (fun d : Dict α ↦ .obj (d.mapValues encode)) (Decoder.dict decode)
      fun d ↦ d.Sorted ∧ ∀ e ∈ d, Fits e.2 where
  fits {j d} hd := by
    cases j with
    | obj members =>
      obtain ⟨entries, hentries, hd⟩ := Option.bind_eq_some_iff.1 hd
      obtain rfl := Option.some.inj hd
      refine ⟨Dict.sorted_ofList entries, fun e he ↦ ?_⟩
      obtain ⟨e', he'⟩ :=
        exists_of_forall₂ (mapM_eq_some_iff.1 hentries) e (Dict.mem_of_mem_ofList he)
      obtain ⟨a, ha, rfl⟩ := Option.map_eq_some_iff.1 he'
      exact h.fits ha
    | _ => cases hd
  reads {d} hd j hj := by
    obtain ⟨members, rfl, hspelled⟩ := spells_obj_iff.1 hj
    obtain ⟨kept, hperm, hkept⟩ := hspelled.perm fun _ _ ↦ trivial
    rw [spellsMembers_iff, Dict.mapValues, List.forall₂_map_left_iff] at hkept
    have hread : List.Forall₂ (fun e' e ↦ (decode e'.2).map (fun a ↦ (e'.1, a)) = some e)
        kept d := by
      refine .flip (.imp ?_ ((List.forall₂_and_left _ _).2 ⟨hd.2, hkept⟩))
      rintro e e' ⟨he, hname, hvalue⟩
      show (decode e'.2).map (fun a ↦ (e'.1, a)) = some e
      rw [h.reads he hvalue, hname]
      rfl
    -- The entries are read in the order of the members.
    obtain ⟨entries, hentries, hsame⟩ := List.perm_comp_forall₂ hperm hread
    exact Option.bind_eq_some_iff.2 ⟨entries, mapM_eq_some_iff.2 hentries,
      congrArg some (Dict.ofList_eq_of_perm hd.1 hsame)⟩

end Faithful

/-! ## Fields -/

@[simp] theorem get?_reverse_optionalMember {α : Type} (name : String) (encode : α → Json)
    (o : Option α) (key : String) : Dict.get? (optionalMember name encode o).reverse key =
      if name = key then o.map encode else none := by
  cases o with
  | none => simp [optionalMember]
  | some a => rfl


namespace Decoder

namespace Record

variable {α : Type} {encode : α → Json} {decode : Decoder α} {Fits : α → Prop} {r : Record} {a : α}

theorem Holds.exists_field (h : r.Holds field names members) (hname : name ∈ names) {j : Json}
    (hj : Dict.get? members name = some j) :
    ∃ j', r.field? name = some j' ∧ Spells (field name) j j' := by
  have hrel := h.fields name hname
  rw [hj] at hrel
  cases hfound : r.field? name with
  | none =>
    rw [hfound] at hrel
    cases hrel
  | some j' =>
    rw [hfound] at hrel
    cases hrel with
    | some hspelled => exact ⟨j', rfl, hspelled⟩

theorem Holds.field?_eq_none (h : r.Holds field names members) (hname : name ∈ names)
    (hj : Dict.get? members name = none) : r.field? name = none := by
  have hrel := h.fields name hname
  rw [hj] at hrel
  cases hfound : r.field? name with
  | none => rfl
  | some =>
    rw [hfound] at hrel
    cases hrel

theorem Holds.required (h : r.Holds field names members)
    (hf : Faithful (field name) encode decode Fits) (hname : name ∈ names)
    (hj : Dict.get? members name = some (encode a)) (ha : Fits a) :
    r.required name decode = some a := by
  obtain ⟨j, hfield, hspelled⟩ := h.exists_field hname hj
  rw [Record.required, hfield, Option.bind_some, hf.reads ha hspelled]

theorem Holds.withDefault {default : α} (h : r.Holds field names members)
    (hf : Faithful (field name) encode decode Fits) (hname : name ∈ names)
    (hj : Dict.get? members name = some (encode a)) (ha : Fits a) :
    r.withDefault name decode default = some a := by
  obtain ⟨j, hfield, hspelled⟩ := h.exists_field hname hj
  rw [Record.withDefault, hfield]
  exact hf.reads ha hspelled

theorem Holds.leftOut {o : Option α} {Fits : Option α → Prop} (h : r.Holds field names members)
    (hf : Faithful (field name) (ofOption encode) (Decoder.optional decode) Fits)
    (hname : name ∈ names)
    (hj : Dict.get? members name = o.map encode) (ho : Fits o) :
    r.withDefault name (Decoder.optional decode) none = some o := by
  cases o with
  | none => rw [Record.withDefault, h.field?_eq_none hname hj]
  | some a => exact h.withDefault hf hname hj ho

theorem Holds.optional {o : Option α} {encode : Option α → Json} {Fits : Option α → Prop}
    (h : r.Holds field names members)
    (hf : Faithful (field name) encode (Decoder.optional decode) Fits)
    (hname : name ∈ names) (hj : Dict.get? members name = some (encode o)) (ho : Fits o) :
    r.optional name decode = some o := by
  obtain ⟨j, hfield, hspelled⟩ := h.exists_field hname hj
  rw [Record.optional, hfield]
  exact hf.reads ho hspelled

theorem fits_required (hf : Faithful σ encode decode Fits) (h : r.required name decode = some a) :
    Fits a := by
  obtain ⟨j, -, hj⟩ := Option.bind_eq_some_iff.1 h
  exact hf.fits hj

theorem fits_withDefault {default : α} (hf : Faithful σ encode decode Fits)
    (hdefault : Fits default) (h : r.withDefault name decode default = some a) : Fits a := by
  unfold Record.withDefault at h
  split at h
  · exact hf.fits h
  · exact Option.some.inj h ▸ hdefault

theorem fits_leftOut (hf : Faithful σ encode decode Fits)
    (hnull : decode .null = none) {o : Option α}
    (h : r.withDefault name (Decoder.optional decode) none = some o) : ∀ b ∈ o, Fits b :=
  fits_withDefault (hf.optional hnull) (by simp) h

end Record

end Decoder

end Json

end Orchestration
