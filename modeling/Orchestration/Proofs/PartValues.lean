import Orchestration.Proofs.ChainShape
import Orchestration.Proofs.Interpreter

/-!
# Steps as parts

The records of the steps of a run show the parts of a course: the one knows nothing of identifiers,
links and times, but both have the same name, do the same, and have the same data (`Shows`). The
chain of a run shows a course at one of its steps (`ShowsCourse`), with the run standing there.

Expressions then have the same values on both sides, those of stop conditions (`Shows.stops_eq`) and
those that a decision falls by (`ShowsCourse.finds_decision`). The store looks a step up by its name
in the whole run, and finds the first one; since a decision names parts before it only, this is the
part that the interpreter finds among those that have been left.
-/

namespace Orchestration

namespace Engine

open Chain
open Expression (parseSource Source DataReference)

variable {t : Store.Tables} {run : Uid} {x y : StepInstance} {p : Part}

/-! ## Cases -/

theorem get?_functionsOf? {cases : Dict CaseTarget} {functions : Dict Uid}
    (h : functionsOf? cases = some functions) (key : String) :
    cases.get? key = (functions.get? key).map .function := by
  induction cases generalizing functions with
  | nil =>
    obtain rfl := Option.some.inj h
    rfl
  | cons entry rest ih =>
    obtain ⟨name, target⟩ := entry
    cases target with
    | subWorkflow w => cases h
    | function f =>
      obtain ⟨fs, hfs, rfl⟩ := Option.map_eq_some_iff.1 h
      unfold Dict.get?
      by_cases hk : name = key
      · rw [if_pos hk, if_pos hk]
        rfl
      · rw [if_neg hk, if_neg hk]
        exact ih hfs

theorem chooseCase_functionsOf? {cases : Dict CaseTarget} {functions : Dict Uid}
    (h : functionsOf? cases = some functions) (value : String) :
    (∃ name f, chooseCase cases value = .ok (name, .function f) ∧
      Part.choose functions value = .ok f) ∨
    ∃ e, chooseCase cases value = .error e ∧ Part.choose functions value = .error e := by
  unfold chooseCase Part.choose
  rw [get?_functionsOf? h value, get?_functionsOf? h defaultCase]
  cases functions.get? value with
  | some f => exact .inl ⟨value, f, rfl, rfl⟩
  | none =>
    cases functions.get? defaultCase with
    | some f => exact .inl ⟨defaultCase, f, rfl, rfl⟩
    | none => exact .inr ⟨.noCase value, rfl, rfl⟩

/-! ## Showing -/

/-- A step shows a part. -/
structure Shows (x : StepInstance) (p : Part) : Prop where
  name : x.name = p.name
  activity : Activity.of? x.shape = some p.activity
  input : x.inputData = p.input
  output : x.outputData = p.output
  answers : x.runCount = p.answers
  retries : x.retryCount = p.retries

theorem Shows.data (h : Shows x p) (side : Expression.Section) : x.data side = p.data side := by
  cases side with
  | input => exact h.input
  | output => exact h.output

theorem Shows.shape_cases (h : Shows x p) :
    (∃ f, x.shape = .simple f ∧ p.activity = .call f) ∨
    (∃ f text, x.shape = .doWhile f text ∧ p.activity = .loop f text) ∨
    ∃ expression cases functions, x.shape = .switch expression cases ∧
      functionsOf? cases = some functions ∧ p.activity = .choice expression functions := by
  have hactivity := h.activity
  cases hshape : x.shape with
  | simple f =>
    rw [hshape] at hactivity
    exact .inl ⟨f, rfl, (Option.some.inj hactivity).symm⟩
  | doWhile f text =>
    rw [hshape] at hactivity
    exact .inr (.inl ⟨f, text, rfl, (Option.some.inj hactivity).symm⟩)
  | switch expression cases =>
    rw [hshape] at hactivity
    obtain ⟨functions, hfs, hp⟩ := Option.map_eq_some_iff.1 hactivity
    exact .inr (.inr ⟨expression, cases, functions, rfl, hfs, hp.symm⟩)
  | subWorkflow w =>
    rw [hshape] at hactivity
    cases hactivity

/-! ## Values -/

/-- References have the same values where their names stand for steps that show the parts. -/
theorem bindReferences_eq {steps : NamedSteps} {part? : String → Option Part} {source : Source}
    (h : ∀ name ∈ stepNames source, ∃ x p, steps.lookup name = some x ∧ part? name = some p ∧
      Shows x p) : bindReferences steps source = Part.bindReferences part? source := by
  have hmapM : ∀ rs : List DataReference, (∀ r ∈ rs, r ∈ source.references) →
      rs.mapM (bindReference steps) = rs.mapM (Part.bindReference part?) := by
    intro rs hrs
    induction rs with
    | nil => rfl
    | cons r rest ih =>
      obtain ⟨x, p, hx, hp, hshows⟩ :=
        h r.target.step (List.mem_map_of_mem (hrs r List.mem_cons_self))
      have hr : bindReference steps r = Part.bindReference part? r := by
        rw [bindReference, Part.bindReference, hx, hp]
        dsimp only
        rw [hshows.data]
      rw [List.mapM_cons, List.mapM_cons, hr, ih fun r' hr' ↦ hrs r' (List.mem_cons_of_mem _ hr')]
  rw [bindReferences, Part.bindReferences, hmapM _ fun _ hr ↦ hr]

/-- Whether a step is to be left that shows a part is what its stop condition says, if it has
one. -/
theorem Shows.stops_eq (h : Shows x p) {f : Uid} {text : String}
    (hshape : x.shape = .doWhile f text) (hself : RefersToSelf text) :
    stopValue x text = p.stops := by
  have hp : p.activity = .loop f text := by
    have hactivity := h.activity
    rw [hshape] at hactivity
    exact (Option.some.inj hactivity).symm
  unfold stopValue Part.stops
  rw [hp, h.answers]
  dsimp only
  cases hsource : parseSource text with
  | error e => rfl
  | ok source =>
    have hnames : ∀ name ∈ stepNames source, ∃ y q,
        ([("self", x)] : NamedSteps).lookup name = some y ∧
        (fun _ ↦ some p : String → Option Part) name = some q ∧ Shows y q := by
      intro name hname
      obtain rfl := hself source hsource name hname
      exact ⟨x, p, rfl, rfl, h⟩
    show (bindReferences [("self", x)] source >>= _) = (Part.bindReferences _ source >>= _)
    rw [bindReferences_eq hnames]

theorem Part.stops_of_not_loop (h : ∀ f text, p.activity ≠ .loop f text) : p.stops = .ok true := by
  unfold Part.stops
  split
  · next f text hp => exact absurd hp (h f text)
  · rfl
  · rfl

/-! ### Steps by their names -/

private theorem find?_steps (t : Store.Tables) (run : Uid) (name : String) :
    t.steps.find? (fun s ↦ s.workflowInstanceUid = run && s.name = name) =
      (t.chainOf run).find? fun s ↦ s.name = name := by
  rw [Store.Tables.chainOf, List.find?_filter]
  simp

private theorem finds_fetchSteps (current : Option StepInstance) {names : List String}
    {steps : NamedSteps}
    (hnames : ∀ name ∈ names, name ≠ "self" ∧
      ((t.chainOf run).find? fun s ↦ s.name = name).isSome)
    (hsteps : ∀ name x, steps.lookup name = some x →
      (t.chainOf run).find? (fun s ↦ s.name = name) = some x) :
    ∃ fetched, Finds t (fetchSteps run current names steps) (.ok fetched) ∧
      (∀ name x, fetched.lookup name = some x →
        (t.chainOf run).find? (fun s ↦ s.name = name) = some x) ∧
      ∀ name, name ∈ names ∨ (steps.lookup name).isSome → (fetched.lookup name).isSome := by
  induction names generalizing steps with
  | nil => exact ⟨steps, finds_pure.2 rfl, hsteps, fun _ hname ↦ hname.resolve_left (by simp)⟩
  | cons name rest ih =>
    have hrest : ∀ name ∈ rest, name ≠ "self" ∧
        ((t.chainOf run).find? fun s ↦ s.name = name).isSome := fun n hn ↦
      hnames n (List.mem_cons_of_mem _ hn)
    unfold fetchSteps
    by_cases hhas : (steps.lookup name).isSome
    · rw [if_pos hhas]
      obtain ⟨fetched, hfinds, hfound, hall⟩ := ih hrest hsteps
      refine ⟨fetched, hfinds, hfound, fun n hn ↦ hall n ?_⟩
      rcases hn with hn | hn
      · rcases List.mem_cons.1 hn with rfl | hn
        · exact .inr hhas
        · exact .inl hn
      · exact .inr hn
    · rw [if_neg hhas]
      obtain ⟨hself, hsome⟩ := hnames name List.mem_cons_self
      obtain ⟨x, hx⟩ := Option.isSome_iff_exists.1 hsome
      have hfetch : Finds t (fetchStep run current name) (.ok x) := by
        unfold fetchStep
        rw [if_neg hself]
        refine finds_bind.2 (.inr ⟨some x, (finds_store rfl).2 ?_, finds_pure.2 rfl⟩)
        exact congrArg Except.ok ((find?_steps t run name).trans hx).symm
      have hlookup : ∀ n, (steps ++ [(name, x)]).lookup n =
          (steps.lookup n).or (if n = name then some x else none) := by
        intro n
        rw [List.lookup_append]
        by_cases hn : n = name
        · simp [hn]
        · simp [List.lookup_cons, hn, beq_eq_false_iff_ne.2 hn]
      have hsteps' : ∀ n z, (steps ++ [(name, x)]).lookup n = some z →
          (t.chainOf run).find? (fun s ↦ s.name = n) = some z := by
        intro n z hz
        rw [hlookup, Option.or_eq_some_iff] at hz
        rcases hz with hz | ⟨-, hz⟩
        · exact hsteps n z hz
        · split at hz
          · next hn => rw [hn, hx, hz]
          · cases hz
      obtain ⟨fetched, hfinds, hfound, hall⟩ := ih hrest hsteps'
      refine ⟨fetched, finds_bind.2 (.inr ⟨x, hfetch, hfinds⟩), hfound, fun n hn ↦ hall n ?_⟩
      rw [hlookup]
      rcases hn with hn | hn
      · rcases List.mem_cons.1 hn with rfl | hn
        · exact .inr (by simp)
        · exact .inl hn
      · exact .inr (by simp [hn])

/-- Among steps and the parts that they show the same one has a name. -/
private theorem find?_shown {xs : List StepInstance} {ps : List Part} (h : List.Forall₂ Shows xs ps)
    {name : String} (hname : name ∈ ps.map (·.name)) :
    ∃ x p, xs.find? (fun s ↦ s.name = name) = some x ∧
      ps.find? (fun q ↦ q.name = name) = some p ∧ Shows x p := by
  induction h with
  | nil => cases hname
  | @cons x p xs ps hxp _ ih =>
    by_cases hp : p.name = name
    · have hx : x.name = name := hxp.name.trans hp
      exact ⟨x, p, List.find?_cons_of_pos (decide_eq_true hx),
        List.find?_cons_of_pos (decide_eq_true hp), hxp⟩
    · have hx : x.name ≠ name := fun hx ↦ hp (hxp.name.symm.trans hx)
      obtain ⟨y, q, hy, hq, hyq⟩ := ih ((List.mem_cons.1 hname).resolve_left fun hn ↦ hp hn.symm)
      refine ⟨y, q, ?_, ?_, hyq⟩
      · rw [List.find?_cons_of_neg (by simpa using hx), hy]
      · rw [List.find?_cons_of_neg (by simpa using hp), hq]

/-! ## Courses -/

/-- The chain of a run shows a course at a step, between the steps that have been left and those to
which nothing has happened. -/
structure ShowsCourse (t : Store.Tables) (run : Uid) (c : Course) (before : List StepInstance)
    (x : StepInstance) (after : List StepInstance) : Prop where
  chain : t.chainOf run = before ++ x :: after
  linked : Linked (before ++ x :: after)
  done : List.Forall₂ Shows before c.done
  current : Shows x c.current
  todo : List.Forall₂ Shows after c.todo
  left : ∀ b ∈ before, b.Left
  fresh : ∀ a ∈ after, a.Fresh
  guided : ∀ s ∈ before ++ x :: after, StepInstance.SelfGuided s.shape
  counted : 0 ≤ c.current.answers
  fits : c.Fits

variable {c : Course} {before after : List StepInstance}

theorem ShowsCourse.finds_decision (h : ShowsCourse t run c before x after)
    (hrun : x.workflowInstanceUid = run) {expression : String} {functions : Dict Uid}
    (hp : c.current.activity = .choice expression functions) :
    Finds t (evaluateSwitch x expression) (Part.decision c.done expression) := by
  subst hrun
  unfold evaluateSwitch evaluate Part.decision
  cases hsource : parseSource expression with
  | error e =>
    exact finds_bind.2 (.inl ⟨e, finds_bind.2 (.inl ⟨e, finds_ofExcept.2 rfl, rfl⟩), rfl⟩)
  | ok source =>
    have hnames := (h.fits.1.choice expression functions hp).2 source hsource
    have hfind : ∀ name ∈ stepNames source, ∃ y q,
        (t.chainOf x.workflowInstanceUid).find? (fun s ↦ s.name = name) = some y ∧
          c.done.find? (fun q ↦ q.name = name) = some q ∧ Shows y q := by
      intro name hname
      obtain ⟨y, q, hy, hq, hyq⟩ := find?_shown h.done (hnames name hname).2
      exact ⟨y, q, by rw [h.chain, List.find?_append, hy, Option.some_or], hq, hyq⟩
    have hfetchable : ∀ name ∈ stepNames source, name ≠ "self" ∧
        ((t.chainOf x.workflowInstanceUid).find? fun s ↦ s.name = name).isSome := by
      intro name hname
      obtain ⟨y, -, hy, -⟩ := hfind name hname
      exact ⟨(hnames name hname).1, by rw [hy]; rfl⟩
    have hnone : ∀ n z, ([] : List (String × StepInstance)).lookup n = some z →
        (t.chainOf x.workflowInstanceUid).find? (fun s ↦ s.name = n) = some z :=
      fun _ _ hz ↦ nomatch hz
    obtain ⟨steps, hfetch, hfound, hall⟩ := finds_fetchSteps (some x) hfetchable hnone
    have hbind : bindReferences steps source =
        Part.bindReferences (fun name ↦ c.done.find? fun d ↦ d.name = name) source := by
      refine bindReferences_eq fun name hname ↦ ?_
      obtain ⟨y, q, hy, hq, hyq⟩ := hfind name hname
      obtain ⟨z, hz⟩ := Option.isSome_iff_exists.1 (hall name (.inl hname))
      obtain rfl := Option.some.inj ((hfound name z hz).symm.trans hy)
      exact ⟨z, q, hz, hq, hyq⟩
    have hvalue : Finds t (do
        let source ← Action.ofExcept (Except.ok source)
        let steps ← fetchSteps x.workflowInstanceUid (some x) (stepNames source) []
        let bindings ← Action.ofExcept (bindReferences steps source)
        Action.ofExcept (source.evaluate bindings))
        (Part.bindReferences (fun name ↦ c.done.find? fun d ↦ d.name = name) source >>=
          source.evaluate) := by
      refine finds_bind.2 (.inr ⟨source, finds_ofExcept.2 rfl, ?_⟩)
      refine finds_bind.2 (.inr ⟨steps, hfetch, ?_⟩)
      rw [ofExcept_bind, hbind]
      exact finds_ofExcept.2 rfl
    show Finds t _ (Part.bindReferences _ source >>= fun bindings ↦
      source.evaluate bindings >>= fun v ↦ .ok (Expression.asText v))
    rw [← bind_assoc]
    cases hv : Part.bindReferences (fun name ↦ c.done.find? fun d ↦ d.name = name) source >>=
      source.evaluate with
    | error e =>
      rw [hv] at hvalue
      exact finds_bind.2 (.inl ⟨e, hvalue, rfl⟩)
    | ok v =>
      rw [hv] at hvalue
      exact finds_bind.2 (.inr ⟨v, hvalue, finds_pure.2 rfl⟩)

end Engine

end Orchestration
