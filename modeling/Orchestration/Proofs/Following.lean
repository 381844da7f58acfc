import Orchestration.Expression.Coercion
import Orchestration.Proofs.Digits
import Orchestration.Proofs.Scanning

/-!
# The places that references point to

A way down a document takes members of objects by their names and items of lists by their positions
(`Leads`). The segments of a path are a way in the making: whether one is the name of a member or
the position of an item is decided by the document it is followed in (`Denotes`), so that one
reference can stand for several ways, but for at most one in a given document. Resolving a reference
goes the way there is (`resolve_eq_ok_iff`).

A way that can be written as a path is written as the reference `DataPath.spelling`, and what is
parsed from that is the path again.
-/

namespace Orchestration

namespace Expression

variable {p : DataPath} {j node : Json} {data : Json.Object} {segment : String} {i : Nat}

/-! ## Ways down a document -/

/-- One step down a document. -/
inductive Hop where
  | member (name : String)
  | item (index : Nat)

/-- A way down a document. -/
inductive Leads : Json → List Hop → Json → Prop where
  | here (j : Json) : Leads j [] j
  | member {members : List (String × Json)} {name : String} {next node : Json} {hops : List Hop}
      (hnext : Dict.get? members name = some next) (hrest : Leads next hops node) :
      Leads (.obj members) (.member name :: hops) node
  | item {items : List Json} {i : Nat} {next node : Json} {hops : List Hop}
      (hnext : items[i]? = some next) (hrest : Leads next hops node) :
      Leads (.arr items) (.item i :: hops) node

/-- What a segment of a path can be: the name of a member, or the position of an item in decimal
digits, if it fits a machine word. -/
inductive Denotes : String → Hop → Prop where
  | member (name : String) : Denotes name (.member name)
  | item {segment : String} (hne : segment.toList ≠ [])
      (hdigits : ∀ c ∈ segment.toList, c.isDigit = true)
      (hfits : Decimal.digitsValue segment.toList < pow2 64) :
      Denotes segment (.item (Decimal.digitsValue segment.toList))

/-- The segment that a step down a document is written as. -/
def Hop.text : Hop → String
  | .member name => name
  | .item i => toString i

/-- A segment has only the characters that a path may have, and no dot. -/
def IsSegment (segment : String) : Prop :=
  ∀ c ∈ segment.toList, isPathChar c = true ∧ c ≠ '.'

instance : DecidablePred IsSegment := fun segment ↦
  List.decidableBAll (fun c ↦ isPathChar c = true ∧ c ≠ '.') segment.toList

theorem natural?_eq_some_iff {text : String} (h : '+' ∉ text.toList) :
    Decimal.natural? text = some i ↔ text.toList ≠ [] ∧ (∀ c ∈ text.toList, c.isDigit = true) ∧
    Decimal.digitsValue text.toList = i := by
  unfold Decimal.natural?
  split
  · next rest heq => exact absurd (heq ▸ List.mem_cons_self) h
  · simp [and_assoc]

theorem position?_eq_some_iff (h : IsSegment segment) :
    position? segment = some i ↔ Denotes segment (.item i) := by
  have hplus : '+' ∉ segment.toList := fun hmem ↦ absurd (h _ hmem).1 (by decide)
  rw [position?, Decimal.naturalBelow?, Option.filter_eq_some_iff, natural?_eq_some_iff hplus,
    decide_eq_true_iff]
  constructor
  · rintro ⟨⟨hne, hdigits, rfl⟩, hfits⟩
    exact .item hne hdigits hfits
  · intro hdenotes
    cases hdenotes with
    | item hne hdigits hfits => exact ⟨⟨hne, hdigits, rfl⟩, hfits⟩

theorem follow?_eq_some_iff {segments : List String} (h : ∀ segment ∈ segments, IsSegment segment) :
    follow? j segments = some node ↔ ∃ hops, List.Forall₂ Denotes segments hops ∧
      Leads j hops node := by
  induction segments generalizing j with
  | nil =>
    constructor
    · rintro ⟨⟩
      exact ⟨[], .nil, .here _⟩
    · rintro ⟨hops, hdenotes, hleads⟩
      cases hdenotes
      cases hleads
      rfl
  | cons segment rest ih =>
    have hrest : ∀ segment ∈ rest, IsSegment segment := fun s hs ↦ h s (List.mem_cons_of_mem _ hs)
    have hsegment := h segment List.mem_cons_self
    rw [follow?, Option.bind_eq_some_iff]
    constructor
    · rintro ⟨next, hchild, hfollow⟩
      obtain ⟨hops, hdenotes, hleads⟩ := (ih hrest).1 hfollow
      unfold child? at hchild
      split at hchild
      · exact ⟨_, .cons (.member segment) hdenotes, .member hchild hleads⟩
      · obtain ⟨i, hposition, hitem⟩ := Option.bind_eq_some_iff.1 hchild
        exact ⟨_, .cons ((position?_eq_some_iff hsegment).1 hposition) hdenotes, .item hitem hleads⟩
      · cases hchild
    · rintro ⟨hops, hdenotes, hleads⟩
      cases hdenotes with
      | cons hhop hdenotes =>
        cases hleads with
        | member hnext hleads =>
          cases hhop
          exact ⟨_, hnext, (ih hrest).2 ⟨_, hdenotes, hleads⟩⟩
        | item hnext hleads =>
          refine ⟨_, ?_, (ih hrest).2 ⟨_, hdenotes, hleads⟩⟩
          rw [child?, (position?_eq_some_iff hsegment).2 hhop]
          exact hnext

/-! ## Resolving -/

/-- The path of a reference can be read as a way to a place in the data of the step. -/
def DataPath.PointsTo (p : DataPath) (data : Json.Object) (node : Json) : Prop :=
  ∃ hops, List.Forall₂ Denotes p.path hops ∧ Leads (.obj data) hops node

theorem resolve?_eq_some_iff (h : ∀ segment ∈ p.path, IsSegment segment) (hne : p.path ≠ []) :
    p.resolve? data = some node ↔ p.PointsTo data node := by
  obtain ⟨step, side, path⟩ := p
  cases path with
  | nil => exact absurd rfl hne
  | cons first rest => exact follow?_eq_some_iff (j := .obj data) h

/-- **Resolving a reference reads the place that it points to.** -/
theorem resolve_eq_ok_iff (h : ∀ segment ∈ p.path, IsSegment segment) (hne : p.path ≠ []) :
    p.resolve data = .ok node ↔ p.PointsTo data node := by
  rw [← resolve?_eq_some_iff h hne, DataPath.resolve]
  cases p.resolve? data <;> simp

/-- Resolving a reference fails if it points nowhere, and only then. -/
theorem resolve_eq_error_iff (h : ∀ segment ∈ p.path, IsSegment segment) (hne : p.path ≠ []) :
    p.resolve data = .error (.keyNotFound p.path p.side p.step) ↔
      ¬∃ node, p.PointsTo data node := by
  simp only [← resolve?_eq_some_iff h hne, DataPath.resolve]
  cases p.resolve? data <;> simp

/-! ## Writing a way as a reference -/

/-- A reference as it is written, without blanks. -/
def DataPath.spelling (p : DataPath) : String :=
  "[" ++ p.step ++ "." ++ p.side.name ++ "." ++ ".".intercalate p.path ++ "]"

/-- A reference can be written in a text. -/
structure DataPath.Writable (p : DataPath) : Prop where
  name : p.step ≠ "" ∧ ∀ c ∈ p.step.toList, isNameChar c = true
  segments : ∀ segment ∈ p.path, IsSegment segment
  path : ".".intercalate p.path ≠ ""

theorem forall_splitOn {f : Char → Prop} {cs : List Char} (h : ∀ c ∈ cs, f c) :
    ∀ segment ∈ cs.splitOn '.', ∀ c ∈ segment, f c ∧ c ≠ '.' := by
  induction cs with
  | nil => simp
  | cons d rest ih =>
    obtain ⟨hd, hrest⟩ := List.forall_mem_cons.1 h
    have hsegments := ih hrest
    obtain ⟨first, segments, hsplit⟩ := List.exists_cons_of_ne_nil (List.splitOn_ne_nil '.' rest)
    rw [List.splitOn_cons_eq_if_modifyHead]
    split
    · exact List.forall_mem_cons.2 ⟨fun _ hc ↦ absurd hc List.not_mem_nil, hsegments⟩
    · next hdot =>
      rw [hsplit] at hsegments ⊢
      obtain ⟨hfirst, hsegments⟩ := List.forall_mem_cons.1 hsegments
      exact List.forall_mem_cons.2
        ⟨List.forall_mem_cons.2 ⟨⟨hd, by simpa using hdot⟩, hfirst⟩, hsegments⟩

theorem DataPath.Spelled.writable {spelled : List Char} (h : p.Spelled spelled) : p.Writable := by
  cases h with
  | @bracketed before name path after side hbefore hname hnames hpath hpaths hafter =>
    refine ⟨⟨?_, ?_⟩, ?_, ?_⟩
    · simpa [← String.toList_inj] using hname
    · simpa using hnames
    · intro segment hsegment
      obtain ⟨cs, hcs, rfl⟩ := List.mem_map.1 hsegment
      simpa [IsSegment] using forall_splitOn hpaths cs hcs
    · have hjoin : (".".intercalate (splitPath path)).toList = path := by
        rw [String.toList_intercalate, splitPath, List.map_map]
        simp [Function.comp_def]
      intro hempty
      rw [hempty] at hjoin
      exact hpath hjoin.symm

theorem DataPath.Writable.path_ne_nil (h : p.Writable) : p.path ≠ [] := by
  intro hnil
  exact h.path (by rw [hnil, String.intercalate_nil])

theorem mem_intercalate {c : Char} {segments : List (List Char)}
    (h : c ∈ ['.'].intercalate segments) : c = '.' ∨ ∃ segment ∈ segments, c ∈ segment := by
  induction segments with
  | nil => cases h
  | cons first rest ih =>
    cases rest with
    | nil => exact .inr ⟨first, List.mem_cons_self, by simpa using h⟩
    | cons second rest =>
      rw [List.intercalate_cons_cons, List.append_assoc] at h
      rcases List.mem_append.1 h with h | h
      · exact .inr ⟨first, List.mem_cons_self, h⟩
      · rcases List.mem_append.1 h with h | h
        · exact .inl (List.mem_singleton.1 h)
        · rcases ih h with hdot | ⟨segment, hsegment, hc⟩
          · exact .inl hdot
          · exact .inr ⟨segment, List.mem_cons_of_mem _ hsegment, hc⟩

theorem DataPath.Writable.spelled (h : p.Writable) : p.Spelled p.spelling.toList := by
  obtain ⟨step, side, path⟩ := p
  obtain ⟨⟨hname, hnames⟩, hsegments, hpath⟩ := h
  have htext : (".".intercalate path).toList = ['.'].intercalate (path.map String.toList) :=
    String.toList_intercalate
  have hsplit : splitPath (".".intercalate path).toList = path := by
    rw [splitPath, htext, List.splitOn_intercalate]
    · simp [Function.comp_def]
    · intro segment hsegment hdot
      obtain ⟨s, hs, rfl⟩ := List.mem_map.1 hsegment
      exact (hsegments s hs _ hdot).2 rfl
    · intro hnil
      exact hpath (by rw [List.map_eq_nil_iff.1 hnil, String.intercalate_nil])
  have hpaths : ∀ c ∈ (".".intercalate path).toList, isPathChar c = true := by
    intro c hc
    rw [htext] at hc
    rcases mem_intercalate hc with rfl | ⟨segment, hsegment, hc⟩
    · decide
    · obtain ⟨s, hs, rfl⟩ := List.mem_map.1 hsegment
      exact (hsegments s hs c hc).1
  have hspelled := @DataPath.Spelled.bracketed [] step.toList (".".intercalate path).toList [] side
    (fun _ hc ↦ absurd hc List.not_mem_nil) (mt String.toList_eq_nil_iff.1 hname) hnames
    (mt String.toList_eq_nil_iff.1 hpath) hpaths (fun _ hc ↦ absurd hc List.not_mem_nil)
  rw [hsplit, String.ofList_toList] at hspelled
  simpa [DataPath.spelling] using hspelled

theorem isSegment_toString (i : Nat) : IsSegment (toString i) := by
  intro c hc
  rw [Nat.toString_eq_ofList_toDigits, String.toList_ofList] at hc
  have hdigit := Decimal.isDigit_of_mem hc
  refine ⟨by simp [isPathChar, Char.isAlphanum, hdigit], ?_⟩
  rintro rfl
  exact absurd hdigit (by decide)

/-- A step down a document can be read from what is written for it. -/
theorem denotes_text {hop : Hop} (h : ∀ i, hop = .item i → i < pow2 64) : Denotes hop.text hop := by
  cases hop with
  | member name => exact .member name
  | item i =>
    refine (position?_eq_some_iff (isSegment_toString i)).1 ?_
    rw [position?, Decimal.naturalBelow?, Decimal.natural?_toString, Option.filter_some,
      if_pos (decide_eq_true (h i rfl))]

theorem forall₂_denotes_text {hops : List Hop} (h : ∀ i, Hop.item i ∈ hops → i < pow2 64) :
    List.Forall₂ Denotes (hops.map Hop.text) hops := by
  induction hops with
  | nil => exact .nil
  | cons hop rest ih =>
    exact .cons (denotes_text fun i hi ↦ h i (hi ▸ List.mem_cons_self))
      (ih fun i hi ↦ h i (List.mem_cons_of_mem _ hi))

/-! ## Parsing -/

/-- A text that holds more than blanks is parsed into the references in it, the i-th of them
replaced by the i-th variable. -/
theorem exists_cuts_of_parseSource {text : String} (h : Text.isBlankText text = false) :
    ∃ cuts last, IsCut text.toList cuts last ∧ parseSource text = .ok
      { text
        rewritten := rewriteOperators (String.ofList (replaceCuts 0 cuts last))
        references := numberCuts 0 cuts } := by
  obtain ⟨cuts, last, hcut, hnumber, hreplace⟩ := exists_cuts text.toList 0
  refine ⟨cuts, last, hcut, ?_⟩
  rw [parseSource, Source.parse?, h, if_neg Bool.false_ne_true]
  dsimp only
  rw [hnumber, hreplace]

theorem variableName_zero : variableName 0 = "__ref_0" := by decide

theorem rewriteOperators_variable : rewriteOperators "__ref_0" = "__ref_0" := by decide

theorem parseSource_of_spelled {text : String} (h : p.Spelled text.toList) :
    parseSource text = .ok { text, rewritten := "__ref_0", references := [⟨p, "__ref_0"⟩] } := by
  have hblank : Text.isBlankText text = false := by
    obtain ⟨body, htext, -⟩ := h.exists_body
    rw [Text.isBlankText, htext]
    rfl
  have hscan : scan text.toList = [.reference p] := by
    rw [← List.append_nil text.toList, scan_of_spelled h, scan]
  rw [parseSource, Source.parse?, hblank, if_neg Bool.false_ne_true]
  dsimp only
  rw [hscan, substitute, substitute, numberReferences, numberReferences,
    variableName_zero, List.append_nil, String.ofList_toList, rewriteOperators_variable]

/-- **References are parsed and resolved exactly.** A text that holds more than blanks is cut at the
places where a reference is spelled, at all of them and at no others; the i-th is bound to the i-th
variable, which stands in its place while the rest of the text is kept, and it resolves to what it
points to, or fails if it points nowhere. And a way that leads to a place in the data of a step is
resolved to that place from the reference that is written for it. -/
theorem references_exact :
    (∀ text : String, Text.isBlankText text = false → ∃ cuts last, IsCut text.toList cuts last ∧
      parseSource text = .ok
        { text
          rewritten := rewriteOperators (String.ofList (replaceCuts 0 cuts last))
          references := numberCuts 0 cuts } ∧
      ∀ cut ∈ cuts, ∀ data : Json.Object,
        (∀ node, cut.target.resolve data = .ok node ↔ cut.target.PointsTo data node) ∧
        (cut.target.resolve data =
            .error (.keyNotFound cut.target.path cut.target.side cut.target.step) ↔
          ¬∃ node, cut.target.PointsTo data node)) ∧
    ∀ (p : DataPath) (hops : List Hop) (data : Json.Object) (node : Json),
      p.path = hops.map Hop.text → p.Writable → (∀ i, Hop.item i ∈ hops → i < pow2 64) →
      Leads (.obj data) hops node →
      parseSource p.spelling =
        .ok { text := p.spelling, rewritten := "__ref_0", references := [⟨p, "__ref_0"⟩] } ∧
      p.resolve data = .ok node := by
  refine ⟨fun text htext ↦ ?_, fun p hops data node hpath hp hfits hleads ↦ ?_⟩
  · obtain ⟨cuts, last, hcut, hparse⟩ := exists_cuts_of_parseSource htext
    refine ⟨cuts, last, hcut, hparse, fun cut hmem data ↦ ?_⟩
    have hwritable := (hcut.spelled cut hmem).writable
    exact ⟨fun node ↦ resolve_eq_ok_iff hwritable.segments hwritable.path_ne_nil,
      resolve_eq_error_iff hwritable.segments hwritable.path_ne_nil⟩
  · refine ⟨parseSource_of_spelled hp.spelled, ?_⟩
    refine (resolve_eq_ok_iff hp.segments hp.path_ne_nil).2 ⟨hops, ?_, hleads⟩
    rw [hpath]
    exact forall₂_denotes_text hfits

/-- The identifier in the first row of a step's output. -/
theorem reference_of_rows :
    (∃ cuts last, IsCut "[s.output.rows.0.id]".toList cuts last ∧
      numberCuts 0 cuts = [⟨⟨"s", .output, ["rows", "0", "id"]⟩, "__ref_0"⟩]) ∧
    parseSource "[s.output.rows.0.id]" = .ok
      { text := "[s.output.rows.0.id]"
        rewritten := "__ref_0"
        references := [⟨⟨"s", .output, ["rows", "0", "id"]⟩, "__ref_0"⟩] } ∧
    (⟨"s", .output, ["rows", "0", "id"]⟩ : DataPath).resolve
      [("rows", .arr [.obj [("id", .int 7)]])] = .ok (.int 7) := by
  have hwritable : (⟨"s", .output, ["rows", "0", "id"]⟩ : DataPath).Writable :=
    { name := by simp [isNameChar, Text.isBlank]
      segments := by decide
      path := by decide }
  obtain ⟨hparse, hresolve⟩ := references_exact.2 ⟨"s", .output, ["rows", "0", "id"]⟩
    [.member "rows", .item 0, .member "id"] [("rows", .arr [.obj [("id", .int 7)]])]
      (.int 7) (by decide)
    hwritable (by simp [pow2]) (.member rfl (.item rfl (.member rfl (.here _))))
  obtain ⟨cuts, last, hcut, hcuts, -⟩ := references_exact.1 "[s.output.rows.0.id]" (by decide)
  have hsame := Except.ok.inj (hcuts.symm.trans hparse)
  exact ⟨⟨cuts, last, hcut, congrArg Source.references hsame⟩, hparse, hresolve⟩

end Expression

end Orchestration
