import Orchestration.Proofs.Replaying

/-!
# Formulas and their values

The formulas of an input are evaluated together: all steps that any of them names are fetched first.
A formula has the same value as if it had been evaluated alone (`finds_evaluate_of_formula`), so
what is found for an input is the input with the value of each formula in its place
(`filled_of_normalize`).

A value may be a text that is a formula itself. It is left as it is then, but whoever looks for
formulas in the result will find it. So an input that is evaluated stays the same exactly if each of
its formulas has itself as its value (`normalize_eq_iff`).
-/

namespace Orchestration

namespace Engine

open Expression (parseSource Source DataReference)

variable {α β ε : Type} {t : Store.Tables} {run : Uid} {current : Option StepInstance}

/-! ## Texts of formulas -/

/-- The text that the formula of an expression is. -/
def formulaText (expression : String) : String := formulaMark ++ expression ++ "#"

theorem formula?_eq_some_iff {s expression : String} :
    formula? s = some expression ↔ s = formulaText expression := by
  unfold formula? formulaText
  constructor
  · intro h
    dsimp only at h
    split at h
    · next hmark =>
      split at h
      · next hlast =>
        obtain ⟨rest, hrest⟩ := List.isPrefixOf_iff_prefix.1 hmark
        have hlen : formulaMark.length = formulaMark.toList.length := String.length_toList.symm
        rw [← hrest, hlen, List.drop_left] at hlast h
        obtain rfl := Option.some.inj h
        obtain ⟨init, rfl⟩ := List.getLast?_eq_some_iff.1 hlast
        refine String.toList_inj.1 ?_
        rw [← hrest]
        simp
      · cases h
    · cases h
  · rintro rfl
    have hmark : formulaMark.toList.isPrefixOf (formulaMark ++ expression ++ "#").toList =
        true := by
      refine List.isPrefixOf_iff_prefix.2 ⟨expression.toList ++ ['#'], ?_⟩
      simp
    have hdrop : (formulaMark ++ expression ++ "#").toList.drop formulaMark.length =
        expression.toList ++ ['#'] := by
      rw [← String.length_toList, String.toList_append, String.toList_append, List.append_assoc,
        List.drop_left]
      rfl
    dsimp only
    rw [if_pos hmark, hdrop, if_pos (by simp), List.dropLast_concat, String.ofList_toList]

mutual

/-- A document stays the same if every formula in it that has a value has itself as its value. -/
theorem substitute_eq_self_iff {value? : String → Option Json} : (j : Json) →
    (substitute value? j = j ↔
      ∀ e ∈ formulas j, ∀ v, value? e = some v → v = .str (formulaText e))
  | .null | .bool _ | .int _ | .float _ => by simp [substitute, formulas]
  | .str s => by
    rw [substitute, formulas]
    cases hs : formula? s with
    | none => simp
    | some e =>
      obtain rfl := formula?_eq_some_iff.1 hs
      cases hv : value? e with
      | none => simp [hv]
      | some v => simp [hv]
  | .arr items => by
    rw [substitute, formulas, ← substituteItems_eq_self_iff items]
    exact ⟨Json.arr.inj, congrArg _⟩
  | .obj members => by
    rw [substitute, formulas, ← substituteMembers_eq_self_iff members]
    exact ⟨Json.obj.inj, congrArg _⟩

theorem substituteItems_eq_self_iff {value? : String → Option Json} : (items : List Json) →
    (substituteItems value? items = items ↔
      ∀ e ∈ formulasOfItems items, ∀ v, value? e = some v → v = .str (formulaText e))
  | [] => by simp [substituteItems, formulasOfItems]
  | j :: rest => by
    rw [substituteItems, formulasOfItems, List.cons.injEq, substitute_eq_self_iff j,
      substituteItems_eq_self_iff rest, List.forall_mem_append]

theorem substituteMembers_eq_self_iff {value? : String → Option Json} :
    (members : List (String × Json)) →
    (substituteMembers value? members = members ↔
      ∀ e ∈ formulasOfMembers members, ∀ v, value? e = some v → v = .str (formulaText e))
  | [] => by simp [substituteMembers, formulasOfMembers]
  | (name, j) :: rest => by
    rw [substituteMembers, formulasOfMembers, List.cons.injEq, Prod.mk.injEq,
      substitute_eq_self_iff j, substituteMembers_eq_self_iff rest, List.forall_mem_append]
    simp

end

/-! ## Steps that are fetched together -/

/-- Each step that has been fetched is the one that is fetched by its name alone. -/
theorem fetched_of_fetchSteps {names : List String} {before steps : NamedSteps}
    (h : Finds t (fetchSteps run current names before) (.ok steps))
    (hbefore : ∀ name y, before.lookup name = some y →
      Finds t (fetchStep run current name) (.ok y)) :
    (∀ name y, steps.lookup name = some y → Finds t (fetchStep run current name) (.ok y)) ∧
      ∀ name, name ∈ names ∨ (before.lookup name).isSome = true → (steps.lookup name).isSome =
        true := by
  induction names generalizing before with
  | nil =>
    obtain rfl := Except.ok.inj (finds_pure.1 h)
    exact ⟨hbefore, fun name hname ↦ hname.elim (fun hname ↦ nomatch hname) id⟩
  | cons key rest ih =>
    unfold fetchSteps at h
    by_cases hknown : (before.lookup key).isSome = true
    · rw [if_pos hknown] at h
      obtain ⟨hsteps, hall⟩ := ih h hbefore
      refine ⟨hsteps, fun name hname ↦ hall name ?_⟩
      rcases hname with hname | hname
      · rcases List.mem_cons.1 hname with rfl | hname
        · exact .inr hknown
        · exact .inl hname
      · exact .inr hname
    · rw [if_neg hknown] at h
      obtain ⟨x, hx, hrest⟩ := finds_bind_ok.1 h
      have hlookup : ∀ name, (before ++ [(key, x)]).lookup name =
          (before.lookup name).or (if name = key then some x else none) := by
        intro name
        rw [List.lookup_append]
        by_cases hkey : name = key
        · simp [hkey]
        · simp [hkey, List.lookup_cons, beq_false_of_ne hkey]
      obtain ⟨hsteps, hall⟩ := ih hrest fun name y hy ↦ by
        rw [hlookup] at hy
        cases hold : before.lookup name with
        | some z =>
          rw [hold, Option.some_or] at hy
          exact Option.some.inj hy ▸ hbefore name z hold
        | none =>
          rw [hold, Option.none_or] at hy
          split at hy
          · next hkey => exact hkey ▸ Option.some.inj hy ▸ hx
          · cases hy
      refine ⟨hsteps, fun name hname ↦ hall name ?_⟩
      rw [hlookup]
      rcases hname with hname | hname
      · rcases List.mem_cons.1 hname with rfl | hname
        · right
          simp
        · exact .inl hname
      · right
        obtain ⟨z, hz⟩ := Option.isSome_iff_exists.1 hname
        simp [hz]

theorem exists_fetchSteps {names : List String} (before : NamedSteps)
    (h : ∀ name ∈ names, ∃ y, Finds t (fetchStep run current name) (.ok y)) :
    ∃ steps, Finds t (fetchSteps run current names before) (.ok steps) := by
  induction names generalizing before with
  | nil => exact ⟨before, finds_pure.2 rfl⟩
  | cons key rest ih =>
    have hrest : ∀ name ∈ rest, ∃ y, Finds t (fetchStep run current name) (.ok y) :=
      fun name hname ↦ h name (List.mem_cons_of_mem _ hname)
    unfold fetchSteps
    split
    · exact ih before hrest
    · obtain ⟨y, hy⟩ := h key List.mem_cons_self
      obtain ⟨steps, hsteps⟩ := ih (before ++ [(key, y)]) hrest
      exact ⟨steps, finds_bind_ok.2 ⟨y, hy, hsteps⟩⟩

theorem lookup_eq_of_fetchSteps {names names' : List String}
    {steps steps' : NamedSteps} {name : String}
    (h : Finds t (fetchSteps run current names []) (.ok steps))
    (h' : Finds t (fetchSteps run current names' []) (.ok steps')) (hname : name ∈ names)
    (hname' : name ∈ names') : steps'.lookup name = steps.lookup name := by
  obtain ⟨hfetched, hall⟩ := fetched_of_fetchSteps h fun _ _ hy ↦ nomatch hy
  obtain ⟨hfetched', hall'⟩ := fetched_of_fetchSteps h' fun _ _ hy ↦ nomatch hy
  obtain ⟨y, hy⟩ := Option.isSome_iff_exists.1 (hall name (.inl hname))
  obtain ⟨z, hz⟩ := Option.isSome_iff_exists.1 (hall' name (.inl hname'))
  rw [hy, hz, Except.ok.inj ((hfetched' name z hz).unique (hfetched name y hy))]

/-! ## Formulas that are evaluated together -/

theorem bindReferences_congr {steps steps' : NamedSteps} {source : Source}
    (h : ∀ name ∈ stepNames source, steps'.lookup name = steps.lookup name) :
    bindReferences steps' source = bindReferences steps source := by
  have hmapM : ∀ rs : List DataReference, (∀ r ∈ rs, r ∈ source.references) →
      rs.mapM (bindReference steps') = rs.mapM (bindReference steps) := by
    intro rs hrs
    induction rs with
    | nil => rfl
    | cons r rest ih =>
      have hr : bindReference steps' r = bindReference steps r := by
        rw [bindReference, bindReference, h _ (List.mem_map_of_mem (hrs r List.mem_cons_self))]
      rw [List.mapM_cons, List.mapM_cons, hr, ih fun r' hr' ↦ hrs r' (List.mem_cons_of_mem _ hr')]
  rw [bindReferences, bindReferences, hmapM _ fun _ hr ↦ hr]

theorem evaluateFormula_eq_ok {steps : NamedSteps} {source : Source} {e : String} {v : Json}
    (h : evaluateFormula steps source = .ok (e, v)) : e = source.text ∧
      ∃ bindings, bindReferences steps source = .ok bindings ∧ source.evaluate bindings =
        .ok v := by
  unfold evaluateFormula at h
  cases hbindings : bindReferences steps source with
  | error => rw [hbindings] at h; cases h
  | ok bindings =>
    rw [hbindings] at h
    change (source.evaluate bindings >>= fun v ↦ pure (source.text, v)) = Except.ok (e, v) at h
    cases hvalue : source.evaluate bindings with
    | error => rw [hvalue] at h; cases h
    | ok w =>
      rw [hvalue] at h
      obtain ⟨rfl, rfl⟩ := Prod.mk.inj (Except.ok.inj h)
      exact ⟨rfl, bindings, rfl, hvalue⟩

theorem finds_evaluate_of_formula {names : List String} {steps : NamedSteps} {source : Source}
    {e e' : String} {v : Json} (hsteps : Finds t (fetchSteps run current names []) (.ok steps))
    (hsource : parseSource e = .ok source) (hnames : ∀ name ∈ stepNames source, name ∈ names)
    (hv : evaluateFormula steps source = .ok (e', v)) :
    Finds t (evaluate run e current) (.ok v) := by
  obtain ⟨hfetched, hall⟩ := fetched_of_fetchSteps hsteps fun _ _ hy ↦ nomatch hy
  have halone : ∀ name ∈ stepNames source, ∃ y, Finds t (fetchStep run current name) (.ok y) := by
    intro name hname
    obtain ⟨y, hy⟩ := Option.isSome_iff_exists.1 (hall name (.inl (hnames name hname)))
    exact ⟨y, hfetched name y hy⟩
  obtain ⟨own, hown⟩ := exists_fetchSteps [] halone
  have hsame : ∀ name ∈ stepNames source, own.lookup name = steps.lookup name :=
    fun name hname ↦ lookup_eq_of_fetchSteps hsteps hown (hnames name hname) hname
  obtain ⟨-, bindings, hbindings, hvalue⟩ := evaluateFormula_eq_ok hv
  rw [← bindReferences_congr hsame] at hbindings
  exact finds_bind_ok.2 ⟨source, finds_ofExcept.2 hsource.symm, finds_bind_ok.2 ⟨own, hown,
    finds_bind_ok.2 ⟨bindings, finds_ofExcept.2 hbindings.symm, finds_ofExcept.2 hvalue.symm⟩⟩⟩

theorem text_of_parseSource {e : String} {source : Source} (h : parseSource e = .ok source) :
    source.text = e := by
  unfold parseSource at h
  cases hparse : Source.parse? e with
  | none => rw [hparse] at h; cases h
  | some found =>
    rw [hparse] at h
    obtain rfl := Except.ok.inj h
    unfold Source.parse? at hparse
    split at hparse
    · cases hparse
    · exact Option.some.inj hparse ▸ rfl

/-- **What is found for an input** is the input with the value of each formula in its place. -/
theorem filled_of_normalize {input found : Json.Object}
    (h : Finds t (normalize input run current) (.ok found)) :
    ∃ value? : String → Option Json,
      (∀ e ∈ formulasOfMembers input, ∃ v, value? e = some v ∧
        Finds t (evaluate run e current) (.ok v)) ∧
      found = substituteMembers value? input := by
  obtain ⟨sources, hsources, hrest⟩ := finds_bind_ok.1 h
  obtain ⟨hparsed, hunparsed⟩ := of_mapM_ok (finds_ofExcept.1 hsources).symm
  by_cases hempty : sources.isEmpty
  · -- Without formulas the input is taken as it is.
    rw [if_pos hempty] at hrest
    obtain rfl := Except.ok.inj (finds_pure.1 hrest)
    have hnone : ∀ e, e ∉ formulasOfMembers found := by
      intro e he
      obtain ⟨source, hsource, -⟩ := hparsed e he
      rw [List.isEmpty_iff.1 hempty] at hsource
      cases hsource
    exact ⟨fun _ ↦ none, fun e he ↦ absurd he (hnone e),
      ((substituteMembers_eq_self_iff _).2 fun e he ↦ absurd he (hnone e)).symm⟩
  · rw [if_neg hempty] at hrest
    obtain ⟨steps, hsteps, hrest⟩ := finds_bind_ok.1 hrest
    obtain ⟨values, hvalues, hrest⟩ := finds_bind_ok.1 hrest
    obtain ⟨hevaluated, hunevaluated⟩ := of_mapM_ok (finds_ofExcept.1 hvalues).symm
    refine ⟨fun e ↦ values.lookup e, fun e he ↦ ?_, Except.ok.inj (finds_pure.1 hrest)⟩
    obtain ⟨source, hsource, hparse⟩ := hparsed e he
    have hnames : ∀ name ∈ stepNames source, name ∈ sources.flatMap stepNames :=
      fun name hname ↦ List.mem_flatMap.2 ⟨source, hsource, hname⟩
    cases hlookup : values.lookup e with
    | none =>
      obtain ⟨⟨e', v⟩, hv, hformula⟩ := hevaluated source hsource
      have hne := List.lookup_eq_none_iff.1 hlookup _ hv
      simp [(evaluateFormula_eq_ok hformula).1, text_of_parseSource hparse] at hne
    | some v =>
      obtain ⟨l₁, l₂, hsplit, -⟩ := List.lookup_eq_some_iff.1 hlookup
      -- Formulas with the same text have been parsed to the same expression.
      obtain ⟨other, hother, hformula⟩ :=
        hunevaluated (e, v) (hsplit ▸ List.mem_append_right _ List.mem_cons_self)
      obtain ⟨e', -, hparse'⟩ := hunparsed other hother
      have htext : e' = e := by
        rw [← text_of_parseSource hparse', ← (evaluateFormula_eq_ok hformula).1]
      obtain rfl := Except.ok.inj (hparse.symm.trans (htext ▸ hparse'))
      exact ⟨v, hlookup, finds_evaluate_of_formula hsteps hparse hnames hformula⟩

/-- **What is found for an input is the input** exactly if each formula in it has itself as its
value. -/
theorem normalize_eq_iff {input found : Json.Object}
    (h : Finds t (normalize input run current) (.ok found)) :
    found = input ↔ ∀ e ∈ formulasOfMembers input,
      Finds t (evaluate run e current) (.ok (.str (formulaText e))) := by
  obtain ⟨value?, hvalues, rfl⟩ := filled_of_normalize h
  rw [substituteMembers_eq_self_iff]
  constructor
  · intro hsame e he
    obtain ⟨v, hv, hfinds⟩ := hvalues e he
    exact hsame e he v hv ▸ hfinds
  · intro hown e he v hv
    obtain ⟨w, hw, hfinds⟩ := hvalues e he
    obtain rfl := Option.some.inj (hv.symm.trans hw)
    exact Except.ok.inj (hfinds.unique (hown e he))

end Engine

end Orchestration
