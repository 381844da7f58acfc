import Orchestration.Expression.Coercion
import Orchestration.Proofs.Spelling

/-!
# Conditions that do not depend on the order of members

The members of an object have no order, but a map has one: the filters `first` and `join` go by it,
and so do the text of a map and the comparison of two maps. A map is made anew whenever an
expression is evaluated, and its order may be another one each time. So it is certain what an
expression says only if it says the same in every order (`OrderFree`).

Documents keep their members in ascending order, and so do the maps that are made of them. Any other
order is that of a document with the same members in this order, at every depth (`SpellsMembers`).

Where an expression takes a map only for what stands under a name of it, or asks whether it is
there, whether it is empty, of what kind it is or whether it equals something that is no map, it
cannot tell the order (`Expr.IsPlain`, `evaluate_reordered`). So it is order-free
(`orderFree_of_isPlain`).
-/

namespace Orchestration

namespace Expression

open Json (Spells SpellsItems SpellsMembers)

/-- An expression says the same in whatever order the members of the documents are that it reads. -/
def OrderFree (text : String) : Prop :=
  ∀ source, parseSource text = .ok source → ∀ b b' : Dict Json, (∀ e ∈ b, e.2.canonical = e.2) →
    SpellsMembers (fun _ ↦ .data) b b' → source.evaluate b' = source.evaluate b

/-! ## Values in another order -/

namespace Value

/-- A value is another one, or is of a document with the members in another order. -/
inductive Reordered : Value → Value → Prop where
  | refl (v : Value) : Reordered v v
  | seq {items items' : List Json} (canonical : Json.canonicalItems items = items)
      (spelled : SpellsItems .data items items') :
      Reordered (.seq (ofJsonItems items)) (.seq (ofJsonItems items'))
  | map {members members' : List (String × Json)}
      (canonical : Json.canonicalMembers members = members)
      (spelled : Spells .data (.obj members) (.obj members')) :
      Reordered (.map (ofJsonMembers members)) (.map (ofJsonMembers members'))

variable {j j' : Json} {items items' : List Json} {members members' : List (String × Json)}
  {v v' w : Value}

theorem reordered_ofJson (hj : j.canonical = j) (h : Spells .data j j') :
    Reordered (ofJson j) (ofJson j') := by
  cases j with
  | null | bool | int | float | str =>
    obtain rfl := h
    exact .refl _
  | arr items =>
    obtain ⟨items', rfl, hitems⟩ := h
    exact .seq (Json.arr.inj hj) hitems
  | obj members =>
    obtain ⟨members', kept, added, rfl, hmembers⟩ := h
    exact .map (Json.obj.inj hj) ⟨members', kept, added, rfl, hmembers⟩

theorem ofJsonItems_eq_map (items : List Json) : ofJsonItems items = items.map ofJson := by
  induction items with
  | nil => rfl
  | cons j rest ih => rw [ofJsonItems, ih, List.map_cons]

theorem ofJsonMembers_eq_map (members : List (String × Json)) :
    ofJsonMembers members = members.map fun e ↦ (.str e.1, ofJson e.2) := by
  induction members with
  | nil => rfl
  | cons e rest ih => rw [ofJsonMembers, ih, List.map_cons]

theorem cmp_str_eq_iff {name : String} : cmp w (.str name) = .eq ↔ w = .str name := by
  cases w with
  | str s => rw [cmp, Std.compare_eq_iff_eq, str.injEq]
  | _ => simp [cmp, rank]

theorem lookup?_ofJsonMembers (name : String) (members : List (String × Json)) :
    lookup? (.str name) (ofJsonMembers members) = (Dict.get? members name).map ofJson := by
  induction members with
  | nil => rfl
  | cons e rest ih =>
    rw [ofJsonMembers, lookup?, Dict.get?]
    by_cases he : e.1 = name
    · rw [if_pos (by simpa [cmp_str_eq_iff] using he.symm), if_pos he, Option.map_some]
    · rw [if_neg (by simpa [cmp_str_eq_iff] using Ne.symm he), if_neg he, ih]

theorem lookup?_eq_none (hw : ∀ name, w ≠ .str name) (members : List (String × Json)) :
    lookup? w (ofJsonMembers members) = Option.none := by
  induction members with
  | nil => rfl
  | cons e rest ih =>
    rw [ofJsonMembers, lookup?, if_neg (by simpa [cmp_str_eq_iff] using hw e.1), ih]

theorem reordered_lookup? (hmembers : Json.canonicalMembers members = members)
    (h : Spells .data (.obj members) (.obj members')) (name : String) :
    Reordered ((lookup? (.str name) (ofJsonMembers members)).getD .undefined)
      ((lookup? (.str name) (ofJsonMembers members')).getD .undefined) := by
  obtain ⟨hsorted, hvalues⟩ := Json.canonicalMembers_eq_self_iff.1 hmembers
  obtain ⟨_, hobj, hrearranged⟩ := Json.spells_obj_iff.1 h
  obtain rfl := Json.obj.inj hobj
  have hfound : Option.Rel _ (Dict.get? members name) (Dict.get? members' name) :=
    hrearranged.get? hsorted.nodup trivial
  have hcanonical : ∀ j, Dict.get? members name = some j → j.canonical = j :=
    fun j hj ↦ hvalues _ (Dict.mem_of_get? hj)
  rw [lookup?_ofJsonMembers, lookup?_ofJsonMembers]
  generalize Dict.get? members name = found at hfound hcanonical
  generalize Dict.get? members' name = found' at hfound
  cases hfound with
  | none => exact .refl _
  | some hspelled => exact reordered_ofJson (hcanonical _ rfl) hspelled

theorem length_eq_of_spells (h : Spells .data (.obj members) (.obj members')) :
    members'.length = members.length := by
  obtain ⟨_, hobj, hrearranged⟩ := Json.spells_obj_iff.1 h
  obtain rfl := Json.obj.inj hobj
  obtain ⟨kept, hperm, hkept⟩ := hrearranged.perm fun _ _ ↦ trivial
  rw [hperm.length_eq, (Json.spellsMembers_iff.1 hkept).length_eq]

end Value

/-! ## Outcomes -/

/-- Two evaluations fail alike, or end in values that differ in their order alone. -/
inductive SameOutcome : Except Fault Value → Except Fault Value → Prop where
  | error (fault : Fault) : SameOutcome (.error fault) (.error fault)
  | ok {v v' : Value} (h : v.Reordered v') : SameOutcome (.ok v) (.ok v')

theorem SameOutcome.refl (r : Except Fault Value) : SameOutcome r r := by
  cases r with
  | error fault => exact .error fault
  | ok v => exact .ok (.refl v)

theorem SameOutcome.bind {r r' : Except Fault Value} {f f' : Value → Except Fault Value}
    (h : SameOutcome r r') (hf : ∀ v v', v.Reordered v' → SameOutcome (f v) (f' v')) :
    SameOutcome (r >>= f) (r' >>= f') := by
  cases h with
  | error fault => exact .error fault
  | ok h => exact hf _ _ h

namespace Value.Reordered

variable {v v' w : Value}

/-- Whether a list or a map is empty does not depend on the order. -/
theorem truth (h : Reordered v v') : v'.truth = v.truth := by
  cases h with
  | refl => rfl
  | @seq items items' _ hitems =>
    have hempty : (ofJsonItems items').isEmpty = (ofJsonItems items).isEmpty := by
      rw [Bool.eq_iff_iff, List.isEmpty_iff_length_eq_zero, List.isEmpty_iff_length_eq_zero,
        ofJsonItems_eq_map, ofJsonItems_eq_map, List.length_map, List.length_map,
        (Json.spellsItems_iff.1 hitems).length_eq]
    exact congrArg (fun b ↦ Except.ok !b) hempty
  | @map members members' _ hmembers =>
    have hempty : (ofJsonMembers members').isEmpty = (ofJsonMembers members).isEmpty := by
      rw [Bool.eq_iff_iff, List.isEmpty_iff_length_eq_zero, List.isEmpty_iff_length_eq_zero,
        ofJsonMembers_eq_map, ofJsonMembers_eq_map, List.length_map, List.length_map,
        length_eq_of_spells hmembers]
    exact congrArg (fun b ↦ Except.ok !b) hempty

theorem itemAt {items items' : List Json} (hcanonical : Json.canonicalItems items = items)
    (hitems : SpellsItems .data items items') (key : Value) :
    Reordered (itemAt (ofJsonItems items) key) (itemAt (ofJsonItems items') key) := by
  have hlist : List.Forall₂ Reordered (ofJsonItems items) (ofJsonItems items') := by
    induction items generalizing items' with
    | nil =>
      rw [hitems]
      exact .nil
    | cons j rest ih =>
      obtain ⟨j', rest', rfl, hj, hrest⟩ := hitems
      obtain ⟨hjc, hrestc⟩ := List.cons.inj hcanonical
      exact .cons (reordered_ofJson hjc hj) (ih hrestc hrest)
  unfold Value.itemAt
  rw [hlist.length_eq]
  split
  · next i _ =>
    rw [List.forall₂_iff_get] at hlist
    by_cases hi : i < (ofJsonItems items).length
    · rw [List.getElem?_eq_getElem hi, List.getElem?_eq_getElem (hlist.1 ▸ hi)]
      exact hlist.2 i hi (hlist.1 ▸ hi)
    · rw [List.getElem?_eq_none (Nat.not_lt.1 hi), List.getElem?_eq_none
        (hlist.1 ▸ Nat.not_lt.1 hi)]
      exact .refl _
  · exact .refl _

theorem getItem (h : Reordered v v') (key : Value) :
    SameOutcome (v.getItem key) (v'.getItem key) := by
  cases h with
  | refl => exact .refl _
  | seq hcanonical hitems => exact .ok (.itemAt hcanonical hitems key)
  | @map members members' hcanonical hmembers =>
    by_cases hkey : ∃ name, key = .str name
    · obtain ⟨name, rfl⟩ := hkey
      exact .ok (reordered_lookup? hcanonical hmembers name)
    · have hnone := lookup?_eq_none (w := key) fun name hname ↦ hkey ⟨name, hname⟩
      rw [Value.getItem, Value.getItem, hnone, hnone]
      exact .refl _

end Value.Reordered

/-! ## Expressions that cannot tell the order -/

def Value.isScalar : Value → Bool
  | .seq _ | .map _ => false
  | _ => true

def CompareOp.isRelation : CompareOp → Bool
  | .isIn | .notIn => false
  | _ => true

/-- The tests that ask for the kind of a value alone. -/
def kindTests : List String :=
  ["defined", "undefined", "none", "number", "string", "boolean", "sequence", "mapping"]

/-- A literal that is neither a list nor a map. -/
def Expr.isScalar : Expr → Bool
  | .const w => w.isScalar
  | _ => false

/-- Takes a map only for what stands under a key, and asks only whether it is there or empty, of
what kind it is and how it compares to what is no list and no map. -/
def Expr.isPlain : Expr → Bool
  | .const _ | .var _ => true
  | .not e | .attr e _ | .item e (.const _) => e.isPlain
  | .and a b | .or a b => a.isPlain && b.isPlain
  | .cond condition yes no => condition.isPlain && yes.isPlain && no.isPlain
  | .chain first [(op, last)] =>
    op.isRelation && (first.isScalar || last.isScalar) && first.isPlain && last.isPlain
  | .test e name [] => kindTests.contains name && e.isPlain
  | _ => false

namespace Value.Reordered

variable {v v' w : Value}

theorem compareWith (h : Reordered v v') (hw : w.isScalar = true) {op : CompareOp}
    (hop : op.isRelation = true) :
    Value.compareWith op v' w = Value.compareWith op v w ∧
      Value.compareWith op w v' = Value.compareWith op w v := by
  cases h with
  | refl => exact ⟨rfl, rfl⟩
  | seq | map =>
    cases op with
    | isIn | notIn => cases hop
    | _ =>
      cases w with
      | seq | map => cases hw
      | _ => exact ⟨rfl, rfl⟩

theorem applyTest (h : Reordered v v') {name : String} (hname : name ∈ kindTests) :
    Value.applyTest name v' [] = Value.applyTest name v [] := by
  cases h with
  | refl => rfl
  | seq | map =>
    simp only [kindTests, List.mem_cons, List.not_mem_nil, or_false] at hname
    rcases hname with rfl | rfl | rfl | rfl | rfl | rfl | rfl | rfl <;> rfl

end Value.Reordered

theorem reordered_bindings {b b' : Dict Json} (hb : ∀ e ∈ b, e.2.canonical = e.2)
    (h : SpellsMembers (fun _ ↦ .data) b b') (name : String) :
    (((b.mapValues Value.ofJson).get? name).getD .undefined).Reordered
      (((b'.mapValues Value.ofJson).get? name).getD .undefined) := by
  rw [Json.spellsMembers_iff] at h
  induction h with
  | nil => exact .refl _
  | @cons e e' rest rest' he _ ih =>
    obtain ⟨hname, hspelled⟩ := he
    obtain ⟨hcanonical, hrest⟩ := List.forall_mem_cons.1 hb
    rw [Dict.mapValues, Dict.mapValues, List.map_cons, List.map_cons,
      Dict.get?_cons, Dict.get?_cons, hname]
    by_cases hkey : e.1 = name
    · rw [if_pos hkey, if_pos hkey]
      exact Value.reordered_ofJson hcanonical hspelled
    · rw [if_neg hkey, if_neg hkey]
      exact ih hrest

theorem SameOutcome.branch {r r' : Except Fault Value} {f f' : Value → Bool → Except Fault Value}
    (h : SameOutcome r r')
    (hf : ∀ v v', v.Reordered v' → ∀ holds, SameOutcome (f v holds) (f' v' holds)) :
    SameOutcome (r >>= fun v ↦ v.truth >>= f v) (r' >>= fun v ↦ v.truth >>= f' v) := by
  refine h.bind fun v v' hv ↦ ?_
  rw [hv.truth]
  cases v.truth with
  | error fault => exact .error fault
  | ok holds => exact hf v v' hv holds

theorem Expr.exists_const {e : Expr} (h : e.isScalar = true) :
    ∃ w, e = .const w ∧ w.isScalar = true := by
  cases e with
  | const w => exact ⟨w, rfl, h⟩
  | _ => cases h

theorem evaluateChain_singleton (β : Bindings) (v : Value) (op : CompareOp) (e : Expr) :
    evaluateChain β v [(op, e)] = evaluate β e >>= fun w ↦ (Value.compareWith op v w).map
      .bool := by
  rw [evaluateChain]
  refine congrArg _ (funext fun w ↦ ?_)
  cases hholds : Value.compareWith op v w with
  | error fault => rfl
  | ok holds =>
    cases holds with
    | false => rfl
    | true => exact evaluateChain.eq_1 β w

/-- **An expression that cannot tell the order is evaluated alike in every order.** -/
theorem evaluate_reordered {β β' : Bindings}
    (hβ : ∀ name, ((β.get? name).getD .undefined).Reordered ((β'.get? name).getD .undefined))
    (e : Expr) (he : e.isPlain = true) : SameOutcome (evaluate β e) (evaluate β' e) := by
  fun_induction Expr.isPlain e with
  | case1 => exact .refl _
  | case2 name =>
    rw [evaluate, evaluate]
    exact .ok (hβ name)
  | case3 e ih =>
    rw [evaluate, evaluate]
    exact (ih he).branch fun _ _ _ holds ↦ .refl _
  | case4 e name ih | case5 e key ih =>
    rw [evaluate, evaluate]
    exact (ih he).bind fun v v' hv ↦ hv.getItem _
  | case6 a c iha ihc =>
    obtain ⟨ha, hc⟩ := Bool.and_eq_true_iff.1 he
    rw [evaluate, evaluate]
    split
    · exact .refl _
    · refine (iha ha).branch fun v v' hv holds ↦ ?_
      cases holds with
      | false => exact .ok hv
      | true => exact ihc hc
  | case7 a c iha ihc =>
    obtain ⟨ha, hc⟩ := Bool.and_eq_true_iff.1 he
    rw [evaluate, evaluate]
    refine (iha ha).branch fun v v' hv holds ↦ ?_
    cases holds with
    | false => exact ihc hc
    | true => exact .ok hv
  | case8 condition yes no ih ihyes ihno =>
    obtain ⟨hboth, hno⟩ := Bool.and_eq_true_iff.1 he
    obtain ⟨hcondition, hyes⟩ := Bool.and_eq_true_iff.1 hboth
    rw [evaluate, evaluate]
    refine (ih hcondition).branch fun _ _ _ holds ↦ ?_
    cases holds with
    | false => exact ihno hno
    | true => exact ihyes hyes
  | case9 first op last ihfirst ihlast =>
    obtain ⟨hrest, hlast⟩ := Bool.and_eq_true_iff.1 he
    obtain ⟨hrest, hfirst⟩ := Bool.and_eq_true_iff.1 hrest
    obtain ⟨hop, hscalar⟩ := Bool.and_eq_true_iff.1 hrest
    rw [evaluate, evaluate]
    rcases Bool.or_eq_true_iff.1 hscalar with hliteral | hliteral
    · obtain ⟨u, rfl, hu⟩ := Expr.exists_const hliteral
      show SameOutcome (evaluateChain β u [(op, last)]) (evaluateChain β' u [(op, last)])
      rw [evaluateChain_singleton, evaluateChain_singleton]
      refine (ihlast hlast).bind fun w w' hw ↦ ?_
      rw [(hw.compareWith hu hop).2]
      exact .refl _
    · obtain ⟨u, rfl, hu⟩ := Expr.exists_const hliteral
      refine (ihfirst hfirst).bind fun v v' hv ↦ ?_
      rw [evaluateChain_singleton, evaluateChain_singleton]
      show SameOutcome ((Value.compareWith op v u).map .bool)
          ((Value.compareWith op v' u).map .bool)
      rw [(hv.compareWith hu hop).1]
      exact .refl _
  | case10 e name ih =>
    obtain ⟨hname, he⟩ := Bool.and_eq_true_iff.1 he
    rw [evaluate, evaluate, evaluateAll, evaluateAll]
    refine (ih he).bind fun v v' hv ↦ ?_
    show SameOutcome (Value.applyTest name v []) (Value.applyTest name v' [])
    rw [hv.applyTest (List.contains_iff_mem.1 hname)]
    exact .refl _
  | case11 => cases he

/-! ## Back to documents -/

/-- The document that comes of a document. -/
def turned (j : Json) : Json := (Value.ofJson j).toJson?.getD .null

mutual

theorem toJson?_ofJson_eq : (j : Json) → (Value.ofJson j).toJson? = some (turned j)
  | .null | .bool _ | .float _ | .str _ => rfl
  | .int n => by
    unfold turned Value.ofJson
    split
    · next h => rw [Value.toJson?, if_pos ⟨h.1, Int.lt_trans h.2 (by decide)⟩, Option.getD_some]
    · rw [Value.toJson?, Option.getD_some]
  | .arr items => by
    rw [turned, Value.ofJson, Value.toJson?, itemsToJson?_ofJson_eq items]
    rfl
  | .obj members => by
    rw [turned, Value.ofJson, Value.toJson?, entriesToJson?_ofJson_eq members]
    rfl

theorem itemsToJson?_ofJson_eq : (items : List Json) →
    Value.itemsToJson? (Value.ofJsonItems items) = some (items.map turned)
  | [] => rfl
  | j :: rest => by
    rw [Value.ofJsonItems, Value.itemsToJson?, toJson?_ofJson_eq j, itemsToJson?_ofJson_eq rest]
    rfl

theorem entriesToJson?_ofJson_eq : (members : List (String × Json)) →
    Value.entriesToJson? (Value.ofJsonMembers members) = some (Dict.mapValues turned members)
  | [] => rfl
  | (name, j) :: rest => by
    rw [Value.ofJsonMembers, Value.entriesToJson?, toJson?_ofJson_eq j,
      entriesToJson?_ofJson_eq rest]
    rfl

end

theorem turned_arr (items : List Json) : turned (.arr items) = .arr (items.map turned) := by
  rw [turned, Value.ofJson, Value.toJson?, itemsToJson?_ofJson_eq items]
  rfl

theorem turned_obj (members : List (String × Json)) :
    turned (.obj members) = .obj (Dict.ofList (Dict.mapValues turned members)) := by
  rw [turned, Value.ofJson, Value.toJson?, entriesToJson?_ofJson_eq members]
  rfl

mutual

theorem turned_of_spells : (j : Json) → {j' : Json} → Spells .data j j' → j.canonical = j →
    turned j' = turned j
  | .null, _, h, _ | .bool _, _, h, _ | .int _, _, h, _ | .float _, _, h, _ | .str _, _, h, _ => by
    rw [h]
  | .arr items, _, ⟨items', hj, hitems⟩, hcanonical => by
    rw [hj, turned_arr, turned_arr, turned_of_spellsItems items hitems (Json.arr.inj hcanonical)]
  | .obj members, _, ⟨members', kept, added, hj, hperm, hkept, hadded⟩, hcanonical => by
    obtain ⟨hsorted, hvalues⟩ := Json.canonicalMembers_eq_self_iff.1 (Json.obj.inj hcanonical)
    obtain rfl : added = [] := List.eq_nil_iff_forall_not_mem.2 fun e he ↦ hadded e he trivial
    rw [List.append_nil] at hperm
    have hmap := turned_of_spellsMembers members hkept hvalues
    have hsorted := hsorted.mapValues turned
    rw [hj, turned_obj, turned_obj, Dict.ofList_eq_of_perm hsorted (hmap ▸ hperm.map _),
      Dict.ofList_eq_of_perm hsorted (.refl _)]

theorem turned_of_spellsItems : (items : List Json) → {items' : List Json} →
    SpellsItems .data items items' → Json.canonicalItems items = items →
    items'.map turned = items.map turned
  | [], _, h, _ => by rw [h]
  | j :: rest, _, ⟨j', rest', hitems, hj, hrest⟩, hcanonical => by
    obtain ⟨hjc, hrestc⟩ := List.cons.inj hcanonical
    rw [hitems, List.map_cons, List.map_cons, turned_of_spells j hj hjc,
      turned_of_spellsItems rest hrest hrestc]

theorem turned_of_spellsMembers : (members : List (String × Json)) →
    {kept : List (String × Json)} → SpellsMembers (fun _ ↦ .data) members kept →
    (∀ e ∈ members, e.2.canonical = e.2) →
    Dict.mapValues turned kept = Dict.mapValues turned members
  | [], _, h, _ => by rw [h]
  | (name, j) :: rest, _, ⟨j', rest', hkept, hj, hrest⟩, hvalues => by
    obtain ⟨hjc, hrestc⟩ := List.forall_mem_cons.1 hvalues
    have hrest' := turned_of_spellsMembers rest hrest hrestc
    rw [hkept, Dict.mapValues, List.map_cons, turned_of_spells j hj hjc]
    exact congrArg _ hrest'

end

theorem document_reordered {v v' : Value} (h : v.Reordered v') (source : String) :
    document source v' = document source v := by
  cases h with
  | refl => rfl
  | @seq items items' hcanonical hitems =>
    have hj : (Json.arr items).canonical = .arr items := congrArg Json.arr hcanonical
    have hsame := turned_of_spells (.arr items) ⟨items', rfl, hitems⟩ hj
    have hdocument : ∀ items, document source (.seq (Value.ofJsonItems items)) =
        .ok (turned (.arr items)) := fun items ↦ by
      have hsome := toJson?_ofJson_eq (.arr items)
      rw [Value.ofJson] at hsome
      rw [document, hsome]
      nofun
    rw [hdocument, hdocument, hsame]
  | @map members members' hcanonical hmembers =>
    have hj : (Json.obj members).canonical = .obj members := congrArg Json.obj hcanonical
    have hsame := turned_of_spells (.obj members) hmembers hj
    have hdocument : ∀ members, document source (.map (Value.ofJsonMembers members)) =
        .ok (turned (.obj members)) := fun members ↦ by
      have hsome := toJson?_ofJson_eq (.obj members)
      rw [Value.ofJson] at hsome
      rw [document, hsome]
      nofun
    rw [hdocument, hdocument, hsame]

/-! ## Plain sources -/

/-- The source of an expression that cannot tell the order, or of none at all. -/
def isPlainSource (source : Source) : Bool :=
  match Parser.parse source.rewritten with
  | .error _ => true
  | .ok e => e.isPlain

/-- **An expression that cannot tell the order says the same in every order.** -/
theorem orderFree_of_isPlain {text : String}
    (h : (Source.parse? text).all isPlainSource = true) : OrderFree text := by
  intro source hsource b b' hb hspells
  unfold parseSource at hsource
  split at hsource
  · next parsed hparsed =>
    obtain rfl := Except.ok.inj hsource
    rw [hparsed, Option.all_some, isPlainSource] at h
    unfold Source.evaluate
    cases hexpr : Parser.parse parsed.rewritten with
    | error fault => rfl
    | ok e =>
      rw [hexpr] at h
      have hsame := evaluate_reordered (reordered_bindings hb hspells) e h
      dsimp only
      generalize evaluate (b.mapValues Value.ofJson) e = r at hsame
      generalize evaluate (b'.mapValues Value.ofJson) e = r' at hsame
      cases hsame with
      | error fault => rfl
      | ok hv => exact document_reordered hv _
  · cases hsource

theorem not_orderFree_first : ¬OrderFree "([self.output.o] | first) == 'a'" := by
  intro h
  let source : Source :=
    { text := "([self.output.o] | first) == 'a'"
      rewritten := "(__ref_0 | first) == 'a'"
      references := [⟨⟨"self", .output, ["o"]⟩, "__ref_0"⟩] }
  have hsource : parseSource "([self.output.o] | first) == 'a'" = .ok source := by decide +kernel
  have hsame := h source hsource [("__ref_0", .obj [("a", .int 1), ("b", .int 2)])]
    [("__ref_0", .obj [("b", .int 2), ("a", .int 1)])] (by decide)
    ⟨_, [], rfl, ⟨_, _, [], rfl, by decide, Json.SpellsMembers.refl _ _, nofun⟩, rfl⟩
  have hfirst : source.evaluate [("__ref_0", .obj [("a", .int 1), ("b", .int 2)])] =
      .ok (.bool true) := by decide +kernel
  have hlast : source.evaluate [("__ref_0", .obj [("b", .int 2), ("a", .int 1)])] =
      .ok (.bool false) := by decide +kernel
  rw [hfirst, hlast] at hsame
  cases hsame

end Expression

end Orchestration
