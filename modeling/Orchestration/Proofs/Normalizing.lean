import Orchestration.Proofs.Filling

/-!
# The input of a step is filled formula by formula

All formulas of an input are looked for first, wherever they stand; the steps that any of them names
are fetched, each once; the formulas are evaluated into a table; and the values are put in the place
of the texts. That comes to the same as going through the input once and evaluating each formula
where it is met (`normalize_pointwise`): what is found is the input with each formula replaced by
its value (`Fills`), and something is found exactly if every text that is a formula, wherever it
stands (`Occurs`), has a value.

One direction is that of what was found. For the other, formulas that have values one by one have
them together: the steps that have been fetched for all are, for the names of a single formula, the
ones that would have been fetched for it alone (`lookup_eq_of_fetchSteps`).
-/

namespace Orchestration

namespace Engine

open Expression (parseSource Source)

variable {α β ε : Type} {t : Store.Tables} {run : Uid} {current : Option StepInstance}
  {Value : String → Json → Prop} {value? : String → Option Json} {j v w : Json} {e : String}

/-! ## Texts in a document -/

/-- A text stands in a document as a value, at any depth. -/
inductive Occurs (s : String) : Json → Prop where
  | here : Occurs s (.str s)
  | item {items : List Json} {j : Json} (hj : j ∈ items) (h : Occurs s j) : Occurs s (.arr items)
  | member {members : List (String × Json)} {name : String} {j : Json} (hj : (name, j) ∈ members)
      (h : Occurs s j) : Occurs s (.obj members)

mutual

/-- The formulas that are collected are the ones that stand in the document. -/
theorem mem_formulas_iff : (j : Json) → (e ∈ formulas j ↔ Occurs (formulaText e) j)
  | .null | .bool _ | .int _ | .float _ => by
    rw [formulas]
    exact ⟨fun h ↦ absurd h List.not_mem_nil, fun h ↦ by cases h⟩
  | .str s => by
    rw [formulas, Option.mem_toList, formula?_eq_some_iff]
    constructor
    · rintro rfl
      exact .here
    · intro h
      cases h
      rfl
  | .arr items => by
    rw [formulas, mem_formulasOfItems_iff items]
    constructor
    · rintro ⟨j, hj, h⟩
      exact .item hj h
    · intro h
      cases h with
      | item hj h => exact ⟨_, hj, h⟩
  | .obj members => by
    rw [formulas, mem_formulasOfMembers_iff members]
    constructor
    · rintro ⟨⟨name, j⟩, hj, h⟩
      exact .member hj h
    · intro h
      cases h with
      | member hj h => exact ⟨_, hj, h⟩

theorem mem_formulasOfItems_iff : (items : List Json) →
    (e ∈ formulasOfItems items ↔ ∃ j ∈ items, Occurs (formulaText e) j)
  | [] => by simp [formulasOfItems]
  | j :: rest => by
    rw [formulasOfItems, List.mem_append, mem_formulas_iff j, mem_formulasOfItems_iff rest,
      List.exists_mem_cons_iff]

theorem mem_formulasOfMembers_iff : (members : List (String × Json)) →
    (e ∈ formulasOfMembers members ↔ ∃ x ∈ members, Occurs (formulaText e) x.2)
  | [] => by simp [formulasOfMembers]
  | (name, j) :: rest => by
    rw [formulasOfMembers, List.mem_append, mem_formulas_iff j, mem_formulasOfMembers_iff rest,
      List.exists_mem_cons_iff]

end

/-! ## Documents with values in the place of formulas -/

mutual

/-- A document is another one with a value in the place of each formula, and nothing else changed.
The value is taken as it is. -/
inductive Fills (Value : String → Json → Prop) : Json → Json → Prop where
  | formula {s e : String} {v : Json} (hs : s = formulaText e) (h : Value e v) :
      Fills Value (.str s) v
  | text {s : String} (hs : ∀ e, s ≠ formulaText e) : Fills Value (.str s) (.str s)
  | null : Fills Value .null .null
  | bool (b : Bool) : Fills Value (.bool b) (.bool b)
  | int (n : Int) : Fills Value (.int n) (.int n)
  | float (x : Float) : Fills Value (.float x) (.float x)
  | arr {items filled : List Json} (h : FillsItems Value items filled) :
      Fills Value (.arr items) (.arr filled)
  | obj {members filled : List (String × Json)} (h : FillsMembers Value members filled) :
      Fills Value (.obj members) (.obj filled)

/-- `Fills` item by item. -/
inductive FillsItems (Value : String → Json → Prop) : List Json → List Json → Prop where
  | nil : FillsItems Value [] []
  | cons {j v : Json} {rest filled : List Json} (h : Fills Value j v)
      (hrest : FillsItems Value rest filled) : FillsItems Value (j :: rest) (v :: filled)

/-- `Fills` member by member, under the same names. -/
inductive FillsMembers (Value : String → Json → Prop) :
    List (String × Json) → List (String × Json) → Prop where
  | nil : FillsMembers Value [] []
  | cons {name : String} {j v : Json} {rest filled : List (String × Json)} (h : Fills Value j v)
      (hrest : FillsMembers Value rest filled) :
      FillsMembers Value ((name, j) :: rest) ((name, v) :: filled)

end

mutual

/-- A document whose formulas have values can be filled with them. -/
theorem fills_substitute : (j : Json) →
    (∀ e ∈ formulas j, ∃ v, value? e = some v ∧ Value e v) → Fills Value j (substitute value? j)
  | .null, _ => .null
  | .bool b, _ => .bool b
  | .int n, _ => .int n
  | .float x, _ => .float x
  | .str s, hvalues => by
    rw [substitute]
    cases hs : formula? s with
    | none =>
      exact .text fun e he ↦ Option.some_ne_none e ((formula?_eq_some_iff.2 he).symm.trans hs)
    | some e =>
      obtain ⟨v, hv, h⟩ := hvalues e (by rw [formulas, hs]; exact List.mem_singleton_self e)
      rw [Option.bind_some, hv, Option.getD_some]
      exact .formula (formula?_eq_some_iff.1 hs) h
  | .arr items, hvalues => .arr (fills_substituteItems items hvalues)
  | .obj members, hvalues => .obj (fills_substituteMembers members hvalues)

theorem fills_substituteItems : (items : List Json) →
    (∀ e ∈ formulasOfItems items, ∃ v, value? e = some v ∧ Value e v) →
      FillsItems Value items (substituteItems value? items)
  | [], _ => .nil
  | j :: rest, hvalues =>
    .cons (fills_substitute j fun e he ↦ hvalues e (List.mem_append_left _ he))
    (fills_substituteItems rest fun e he ↦ hvalues e (List.mem_append_right _ he))

theorem fills_substituteMembers : (members : List (String × Json)) →
    (∀ e ∈ formulasOfMembers members, ∃ v, value? e = some v ∧ Value e v) →
      FillsMembers Value members (substituteMembers value? members)
  | [], _ => .nil
  | (_, j) :: rest, hvalues =>
    .cons (fills_substitute j fun e he ↦ hvalues e (List.mem_append_left _ he))
      (fills_substituteMembers rest fun e he ↦ hvalues e (List.mem_append_right _ he))

end

mutual

theorem Fills.exists_value : (j : Json) → {w : Json} → Fills Value j w →
    ∀ e ∈ formulas j, ∃ v, Value e v
  | .null, _, _, _, he | .bool _, _, _, _, he | .int _, _, _, _, he | .float _, _, _, _, he =>
    absurd he List.not_mem_nil
  | .str s, _, h, e, he => by
    obtain rfl := formula?_eq_some_iff.1 (Option.mem_toList.1 he)
    cases h with
    | formula hs hv =>
      have hsame := (formula?_eq_some_iff.2 rfl).symm.trans (formula?_eq_some_iff.2 hs)
      exact Option.some.inj hsame ▸ ⟨_, hv⟩
    | text hs => exact absurd rfl (hs e)
  | .arr items, _, .arr h, e, he => FillsItems.exists_value items h e he
  | .obj members, _, .obj h, e, he => FillsMembers.exists_value members h e he

theorem FillsItems.exists_value : (items : List Json) → {filled : List Json} →
    FillsItems Value items filled → ∀ e ∈ formulasOfItems items, ∃ v, Value e v
  | [], _, _, _, he => absurd he List.not_mem_nil
  | j :: rest, _, .cons h hrest, e, he =>
    (List.mem_append.1 he).elim (Fills.exists_value j h e) (FillsItems.exists_value rest hrest e)

theorem FillsMembers.exists_value : (members : List (String × Json)) →
    {filled : List (String × Json)} → FillsMembers Value members filled →
      ∀ e ∈ formulasOfMembers members, ∃ v, Value e v
  | [], _, _, _, he => absurd he List.not_mem_nil
  | (_, j) :: rest, _, .cons h hrest, e, he =>
    (List.mem_append.1 he).elim (Fills.exists_value j h e) (FillsMembers.exists_value rest hrest e)

end

mutual

/-- Where formulas have one value each, a document is filled in one way. -/
theorem Fills.unique (hone : ∀ e v w, Value e v → Value e w → v = w) : (j : Json) →
    {v w : Json} → Fills Value j v → Fills Value j w → v = w
  | .null, _, _, .null, .null | .bool _, _, _, .bool _, .bool _ | .int _, _, _, .int _, .int _
  | .float _, _, _, .float _, .float _ | .str _, _, _, .text _, .text _ => rfl
  | .str _, _, _, .formula hs hv, .formula hs' hw => by
    have hsame := (formula?_eq_some_iff.2 hs).symm.trans (formula?_eq_some_iff.2 hs')
    exact hone _ _ _ hv (Option.some.inj hsame ▸ hw)
  | .str _, _, _, .formula hs _, .text hno | .str _, _, _, .text hno, .formula hs _ =>
    absurd hs (hno _)
  | .arr items, _, _, .arr h, .arr h' => congrArg _ (FillsItems.unique hone items h h')
  | .obj members, _, _, .obj h, .obj h' => congrArg _ (FillsMembers.unique hone members h h')

theorem FillsItems.unique (hone : ∀ e v w, Value e v → Value e w → v = w) : (items : List Json) →
    {filled filled' : List Json} → FillsItems Value items filled → FillsItems Value items filled' →
      filled = filled'
  | [], _, _, .nil, .nil => rfl
  | j :: rest, _, _, .cons h hrest, .cons h' hrest' => by
    rw [Fills.unique hone j h h', FillsItems.unique hone rest hrest hrest']

theorem FillsMembers.unique (hone : ∀ e v w, Value e v → Value e w → v = w) :
    (members : List (String × Json)) → {filled filled' : List (String × Json)} →
      FillsMembers Value members filled → FillsMembers Value members filled' → filled = filled'
  | [], _, _, .nil, .nil => rfl
  | (_, j) :: rest, _, _, .cons h hrest, .cons h' hrest' => by
    rw [Fills.unique hone j h h', FillsMembers.unique hone rest hrest hrest']

end

/-! ## Formulas that have values one by one -/

theorem evaluateFormula_of_evaluate {names : List String} {steps : NamedSteps} {source : Source}
    (hsteps : Finds t (fetchSteps run current names []) (.ok steps))
    (hsource : parseSource e = .ok source) (hnames : ∀ name ∈ stepNames source, name ∈ names)
    (h : Finds t (evaluate run e current) (.ok v)) : evaluateFormula steps source = .ok (e, v) := by
  obtain ⟨found, hfound, h⟩ := finds_bind_ok.1 h
  obtain rfl := Except.ok.inj (hsource.symm.trans (finds_ofExcept.1 hfound).symm)
  obtain ⟨own, hown, h⟩ := finds_bind_ok.1 h
  obtain ⟨bindings, hbindings, h⟩ := finds_bind_ok.1 h
  have hsame : ∀ name ∈ stepNames source, steps.lookup name = own.lookup name :=
    fun name hname ↦ lookup_eq_of_fetchSteps hown hsteps hname (hnames name hname)
  have hbound : bindReferences steps source = .ok bindings :=
    (bindReferences_congr hsame).trans (finds_ofExcept.1 hbindings).symm
  have hvalue : source.evaluate bindings = .ok v := (finds_ofExcept.1 h).symm
  rw [← text_of_parseSource hsource, evaluateFormula, hbound]
  show (source.evaluate bindings >>= fun v ↦ pure (source.text, v)) = _
  rw [hvalue]
  rfl

/-- Actions that are successful one by one are successful together. -/
theorem exists_mapM_ok {f : α → Except ε β} {xs : List α} (h : ∀ x ∈ xs, ∃ y, f x = .ok y) :
    ∃ ys, xs.mapM f = .ok ys := by
  induction xs with
  | nil => exact ⟨[], rfl⟩
  | cons x rest ih =>
    obtain ⟨y, hy⟩ := h x List.mem_cons_self
    obtain ⟨ys, hys⟩ := ih fun z hz ↦ h z (List.mem_cons_of_mem _ hz)
    refine ⟨y :: ys, ?_⟩
    rw [List.mapM_cons, hy, hys]
    rfl

theorem exists_normalize {input : Json.Object}
    (h : ∀ e ∈ formulasOfMembers input, ∃ v, Finds t (evaluate run e current) (.ok v)) :
    ∃ found, Finds t (normalize input run current) (.ok found) := by
  have hparse : ∀ e ∈ formulasOfMembers input, ∃ source, parseSource e = .ok source := by
    intro e he
    obtain ⟨v, hv⟩ := h e he
    obtain ⟨source, hsource, -⟩ := finds_bind_ok.1 hv
    exact ⟨source, (finds_ofExcept.1 hsource).symm⟩
  obtain ⟨sources, hsources⟩ := exists_mapM_ok hparse
  have hparsed : ∀ source ∈ sources, ∃ e ∈ formulasOfMembers input, parseSource e = .ok source :=
    (of_mapM_ok hsources).2
  -- Each step that one of the formulas names is fetched for it alone.
  have hfetch : ∀ name ∈ sources.flatMap stepNames, ∃ y, Finds t (fetchStep run current name)
      (.ok y) := by
    intro name hname
    obtain ⟨source, hsource, hname⟩ := List.mem_flatMap.1 hname
    obtain ⟨e, he, hparse⟩ := hparsed source hsource
    obtain ⟨v, hv⟩ := h e he
    obtain ⟨found, hfound, hv⟩ := finds_bind_ok.1 hv
    obtain rfl := Except.ok.inj (hparse.symm.trans (finds_ofExcept.1 hfound).symm)
    obtain ⟨own, hown, -⟩ := finds_bind_ok.1 hv
    obtain ⟨hfetched, hall⟩ := fetched_of_fetchSteps hown fun _ _ hy ↦ by cases hy
    obtain ⟨y, hy⟩ := Option.isSome_iff_exists.1 (hall name (.inl hname))
    exact ⟨y, hfetched name y hy⟩
  obtain ⟨steps, hsteps⟩ := exists_fetchSteps [] hfetch
  have hevaluate : ∀ source ∈ sources, ∃ entry, evaluateFormula steps source = .ok entry := by
    intro source hsource
    obtain ⟨e, he, hparse⟩ := hparsed source hsource
    obtain ⟨v, hv⟩ := h e he
    exact ⟨(e, v), evaluateFormula_of_evaluate hsteps hparse
      (fun name hname ↦ List.mem_flatMap.2 ⟨source, hsource, hname⟩) hv⟩
  obtain ⟨values, hvalues⟩ := exists_mapM_ok hevaluate
  unfold normalize
  by_cases hempty : sources.isEmpty
  · refine ⟨input, finds_bind_ok.2 ⟨sources, finds_ofExcept.2 hsources.symm, ?_⟩⟩
    rw [if_pos hempty]
    exact finds_pure.2 rfl
  · refine ⟨substituteMembers (fun body ↦ values.lookup body) input,
      finds_bind_ok.2 ⟨sources, finds_ofExcept.2 hsources.symm, ?_⟩⟩
    rw [if_neg hempty]
    exact finds_bind_ok.2 ⟨steps, hsteps, finds_bind_ok.2
      ⟨values, finds_ofExcept.2 hvalues.symm, finds_pure.2 rfl⟩⟩

/-- What is found for an input is the input filled with the values of its formulas. -/
theorem finds_normalize_iff {input found : Json.Object} :
    Finds t (normalize input run current) (.ok found) ↔
      FillsMembers (fun e v ↦ Finds t (evaluate run e current) (.ok v)) input found := by
  constructor
  · intro h
    obtain ⟨value?, hvalues, rfl⟩ := filled_of_normalize h
    exact fills_substituteMembers input hvalues
  · intro h
    have hone : ∀ e v w, Finds t (evaluate run e current) (.ok v) →
        Finds t (evaluate run e current) (.ok w) → v = w :=
          fun _ _ _ hv hw ↦ Except.ok.inj (hv.unique hw)
    obtain ⟨found', hfound⟩ := exists_normalize (FillsMembers.exists_value input h)
    obtain ⟨value?, hvalues, rfl⟩ := filled_of_normalize hfound
    rw [FillsMembers.unique hone input h (fills_substituteMembers input hvalues)]
    exact hfound

/-- **An input is evaluated formula by formula.** What is found for it is the input with each text
that is a formula replaced by the value of its expression, which is not looked into again, and with
everything else unchanged. Something is found exactly if each such text, wherever it stands, has a
value; and an input in which there is none is found as it is. -/
theorem normalize_pointwise (t : Store.Tables) (input : Json.Object) (run : Uid)
    (current : Option StepInstance) :
    (∀ found, Finds t (normalize input run current) (.ok found) ↔
      FillsMembers (fun e v ↦ Finds t (evaluate run e current) (.ok v)) input found) ∧
    ((∃ found, Finds t (normalize input run current) (.ok found)) ↔
      ∀ e, Occurs (formulaText e) (.obj input) → ∃ v, Finds t (evaluate run e current) (.ok v)) ∧
    ((∀ e, ¬Occurs (formulaText e) (.obj input)) →
      Finds t (normalize input run current) (.ok input)) := by
  have hmem : ∀ e, e ∈ formulasOfMembers input ↔ Occurs (formulaText e) (.obj input) :=
    fun e ↦ mem_formulas_iff (.obj input)
  refine ⟨fun _ ↦ finds_normalize_iff, ⟨?_, fun h ↦ ?_⟩, fun hnone ↦ ?_⟩
  · rintro ⟨found, hfound⟩ e he
    exact FillsMembers.exists_value input (finds_normalize_iff.1 hfound) e ((hmem e).2 he)
  · exact exists_normalize fun e he ↦ h e ((hmem e).1 he)
  · have hempty : ∀ e, e ∉ formulasOfMembers input := fun e he ↦ hnone e ((hmem e).1 he)
    have hexists : ∃ found, Finds t (normalize input run current) (.ok found) :=
      exists_normalize fun e he ↦ absurd he (hempty e)
    obtain ⟨found, hfound⟩ := hexists
    have hsame := (normalize_eq_iff hfound).2 fun e he ↦ absurd he (hempty e)
    exact hsame ▸ hfound

end Engine

end Orchestration
