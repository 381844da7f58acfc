import Mathlib.Data.List.Basic
import Mathlib.Data.List.TakeWhile
import Orchestration.Expression.Source

/-!
# The references in a text

What the scan of a text takes for a reference is said here by a grammar (`DataPath.Spelled`):
blanks, a name, the word for a section, a path and blanks, between two brackets. A text has such
parts in some places, and the scan finds all of them, and nothing else, from left to right
(`exists_cuts`).

It finds all of them although it goes on behind each that it has found, since no two of them
overlap: a bracket opens a reference only at its beginning, and closes it only at its end. And it
makes no difference whether as many characters of the path are taken as possible or as few, since
what follows a path is no part of one.
-/

namespace Orchestration

namespace Expression

variable {c : Char} {cs rest before after name path spelled : List Char} {side : Section}
  {p q : DataPath}

/-! ## Characters -/

theorem isNameChar_iff : isNameChar c = true ↔ c ≠ '[' ∧ c ≠ ']' ∧ c ≠ '.' ∧ Text.isBlank c =
    false := by
  simp [isNameChar, and_assoc]

theorem not_isBlank_of_isPathChar (h : isPathChar c = true) :
    Text.isBlank c = false ∧ c ≠ '[' ∧ c ≠ ']' := by
  have hcode : c.toNat ≠ 91 ∧ c.toNat ≠ 93 ∧ 45 ≤ c.toNat ∧ c.toNat ≤ 122 := by
    unfold isPathChar Char.isAlphanum Char.isAlpha Char.isUpper Char.isLower Char.isDigit at h
    simp only [Bool.or_eq_true, Bool.and_eq_true, decide_eq_true_eq, ge_iff_le,
      UInt32.le_iff_toNat_le] at h
    have hval : c.val.toNat = c.toNat := rfl
    rw [hval] at h
    rcases h with ((((⟨h₁, h₂⟩ | ⟨h₁, h₂⟩) | ⟨h₁, h₂⟩) | rfl) | rfl) | rfl
    · change 65 ≤ _ at h₁
      change _ ≤ 90 at h₂
      omega
    · change 97 ≤ _ at h₁
      change _ ≤ 122 at h₂
      omega
    · change 48 ≤ _ at h₁
      change _ ≤ 57 at h₂
      omega
    all_goals decide
  refine ⟨?_, ?_, ?_⟩
  · simp only [Text.isBlank, Bool.or_eq_false_iff, Bool.and_eq_false_iff, decide_eq_false_iff_not,
      beq_eq_false_iff_ne]
    omega
  · rintro rfl
    exact hcode.1 rfl
  · rintro rfl
    exact hcode.2.1 rfl

/-! ## What spells a reference -/

/-- A text spells a reference. -/
inductive DataPath.Spelled : DataPath → List Char → Prop where
  | bracketed {before name path after : List Char} {side : Section}
      (hbefore : ∀ c ∈ before, Text.isBlank c = true)
      (hname : name ≠ []) (hnames : ∀ c ∈ name, isNameChar c = true)
      (hpath : path ≠ []) (hpaths : ∀ c ∈ path, isPathChar c = true)
      (hafter : ∀ c ∈ after, Text.isBlank c = true) :
      Spelled ⟨String.ofList name, side, splitPath path⟩
        ('[' :: (before ++
          (name ++ ('.' :: (side.name.toList ++ ('.' :: (path ++ (after ++ [']']))))))))

theorem afterWord?_eq_some_iff {ws : List Char} :
    afterWord? ws cs = some rest ↔ cs = ws ++ rest := by
  induction ws generalizing cs with
  | nil => simp [afterWord?]
  | cons w ws ih =>
    cases cs with
    | nil => simp [afterWord?]
    | cons c cs =>
      by_cases hw : w = c
      · simp [afterWord?, hw, ih]
      · simp [afterWord?, hw, Ne.symm hw]

theorem readSection?_eq_some_iff : readSection? cs = some (side, rest) ↔
    cs = '.' :: (side.name.toList ++ '.' :: rest) := by
  unfold readSection?
  constructor
  · intro h
    split at h
    · next hword =>
      obtain ⟨rfl, rfl⟩ := Prod.mk.inj (Option.some.inj h)
      exact afterWord?_eq_some_iff.1 hword
    · obtain ⟨rest', hword, h⟩ := Option.map_eq_some_iff.1 h
      obtain ⟨rfl, rfl⟩ := Prod.mk.inj h
      exact afterWord?_eq_some_iff.1 hword
  · rintro rfl
    cases side with
    | input =>
      have hword : afterWord? ".input.".toList ('.' :: (Section.input.name.toList ++ '.' :: rest)) =
          some rest := afterWord?_eq_some_iff.2 rfl
      rw [hword]
    | output =>
      have hno : afterWord? ".input.".toList ('.' :: (Section.output.name.toList ++ '.' :: rest)) =
          none := rfl
      have hword : afterWord? ".output.".toList
          ('.' :: (Section.output.name.toList ++ '.' :: rest)) = some rest :=
          afterWord?_eq_some_iff.2 rfl
      rw [hno, hword]
      rfl

theorem takeWhile_append_cons {f : Char → Bool} (hall : ∀ c ∈ name, f c = true)
    (hstop : f c = false) (rest : List Char) :
    (name ++ c :: rest).takeWhile f = name ∧ (name ++ c :: rest).dropWhile f = c :: rest := by
  rw [List.takeWhile_append_of_pos hall, List.dropWhile_append_of_pos hall,
    List.takeWhile_cons_of_neg (by simp [hstop]), List.dropWhile_cons_of_neg (by simp [hstop]),
    List.append_nil]
  exact ⟨rfl, rfl⟩

theorem all_takeWhile {f : Char → Bool} : ∀ d ∈ cs.takeWhile f, f d = true :=
  fun _ hd ↦ List.mem_takeWhile_imp hd

theorem spelled_of_readReference? (h : readReference? cs = some (p, rest)) :
    ∃ body, cs = body ++ rest ∧ p.Spelled ('[' :: body) := by
  unfold readReference? at h
  dsimp only at h
  split at h
  · cases h
  · next hname =>
    split at h
    · cases h
    · next side rest' hsection =>
      split at h
      · cases h
      · next hpath =>
        split at h
        · next last hlast =>
          obtain ⟨rfl, rfl⟩ := Prod.mk.inj (Option.some.inj h)
          have hsection := readSection?_eq_some_iff.1 hsection
          have hspelled := @DataPath.Spelled.bracketed (cs.takeWhile Text.isBlank)
            ((cs.dropWhile Text.isBlank).takeWhile isNameChar) (rest'.takeWhile isPathChar)
            ((rest'.dropWhile isPathChar).takeWhile Text.isBlank) side all_takeWhile
            (fun h ↦ hname (List.isEmpty_iff.2 h)) all_takeWhile
            (fun h ↦ hpath (List.isEmpty_iff.2 h)) all_takeWhile all_takeWhile
          refine ⟨_, ?_, hspelled⟩
          simp only [List.append_assoc, List.cons_append, List.nil_append]
          rw [← hlast, List.takeWhile_append_dropWhile, List.takeWhile_append_dropWhile, ← hsection,
            List.takeWhile_append_dropWhile, List.takeWhile_append_dropWhile]
        · cases h

/-- What follows the path of a reference is a blank or the closing bracket, and no character of a
path. -/
theorem exists_cons_of_blanks (hafter : ∀ c ∈ after, Text.isBlank c = true) (rest : List Char) :
    ∃ d tail, after ++ ']' :: rest = d :: tail ∧ isPathChar d = false := by
  cases after with
  | nil => exact ⟨']', rest, rfl, by decide⟩
  | cons d after =>
    refine ⟨d, _, rfl, Bool.eq_false_iff.2 fun hd ↦ ?_⟩
    exact Bool.false_ne_true ((not_isBlank_of_isPathChar hd).1.symm.trans
      (hafter d List.mem_cons_self))

theorem DataPath.Spelled.readReference? {body : List Char} (h : p.Spelled ('[' :: body))
    (rest : List Char) : readReference? (body ++ rest) = some (p, rest) := by
  cases h with
  | @bracketed before name path after side hbefore hname hnames hpath hpaths hafter =>
    obtain ⟨d, tail, htail, hd⟩ := exists_cons_of_blanks hafter rest
    obtain ⟨a, name, rfl⟩ := List.exists_cons_of_ne_nil hname
    have ha := (isNameChar_iff.1 (hnames a List.mem_cons_self)).2.2.2
    have hstart := takeWhile_append_cons hbefore ha
      (name ++ '.' :: (side.name.toList ++ '.' :: (path ++ d :: tail)))
    have hdot : isNameChar '.' = false := by decide
    have hnamechars := takeWhile_append_cons hnames hdot
      (side.name.toList ++ '.' :: (path ++ d :: tail))
    have hsection : readSection? ('.' :: (side.name.toList ++ '.' :: (path ++ d :: tail))) =
        some (side, path ++ d :: tail) := readSection?_eq_some_iff.2 rfl
    have hpathchars := takeWhile_append_cons hpaths hd tail
    have hclose : Text.isBlank ']' = false := by decide
    have hblank := takeWhile_append_cons hafter hclose rest
    rw [htail] at hblank
    have htext : before ++
        (a :: name ++ '.' :: (side.name.toList ++ '.' :: (path ++ (after ++ [']'])))) ++ rest =
        before ++ a :: (name ++ '.' :: (side.name.toList ++ '.' :: (path ++ d :: tail))) := by
      rw [← htail]
      simp
    have hcons : a :: (name ++ '.' :: (side.name.toList ++ '.' :: (path ++ d :: tail))) =
        a :: name ++ '.' :: (side.name.toList ++ '.' :: (path ++ d :: tail)) := rfl
    have hne : (a :: name).isEmpty = false := rfl
    have hpath' : path.isEmpty = false := Bool.eq_false_iff.2 fun h ↦ hpath (List.isEmpty_iff.1 h)
    rw [htext]
    unfold Expression.readReference?
    dsimp only
    rw [hstart.2, hcons, hnamechars.1, hnamechars.2, hsection, hne, if_neg Bool.false_ne_true]
    dsimp only
    rw [hpathchars.1, hpathchars.2, hblank.2, hpath', if_neg Bool.false_ne_true]
    rfl

/-! ## Brackets in what spells a reference -/

theorem DataPath.Spelled.exists_body (h : p.Spelled spelled) :
    ∃ body, spelled = '[' :: body ∧ '[' ∉ body := by
  cases h with
  | @bracketed before name path after side hbefore hname hnames hpath hpaths hafter =>
    refine ⟨_, rfl, fun hmem ↦ ?_⟩
    simp only [List.mem_append, List.mem_cons, List.not_mem_nil, or_false] at hmem
    rcases hmem with h | h | h | h | h | h | h | h
    · exact absurd (hbefore _ h) (by decide)
    · exact (isNameChar_iff.1 (hnames _ h)).1 rfl
    · exact absurd h (by decide)
    · revert h
      cases side <;> decide
    · exact absurd h (by decide)
    · exact absurd (hpaths _ h) (by decide)
    · exact absurd (hafter _ h) (by decide)
    · exact absurd h (by decide)

/-- What spells a reference at the beginning of a text is determined by the text, and so is the
reference. -/
theorem DataPath.Spelled.eq_of_append {spelled' rest' : List Char} (h : p.Spelled spelled)
    (h' : q.Spelled spelled') (heq : spelled ++ rest = spelled' ++ rest') :
    p = q ∧ spelled = spelled' ∧ rest = rest' := by
  obtain ⟨body, rfl, -⟩ := h.exists_body
  obtain ⟨body', rfl, -⟩ := h'.exists_body
  have hbodies : body ++ rest = body' ++ rest' := (List.cons.inj heq).2
  have hread' : Expression.readReference? (body ++ rest) = some (q, rest') :=
    hbodies ▸ h'.readReference? rest'
  obtain ⟨rfl, rfl⟩ := Prod.mk.inj (Option.some.inj ((h.readReference? rest).symm.trans hread'))
  exact ⟨rfl, List.append_cancel_right heq, rfl⟩

/-! ## Cutting a text at its references -/

/-- A reference in a text, with the text between the reference before it and this one. -/
structure Cut where
  gap : List Char
  spelled : List Char
  target : DataPath

/-- The part of the text that a cut covers. -/
def Cut.source (cut : Cut) : List Char := cut.gap ++ cut.spelled

/-- The cuts are all the references in a text, from left to right. -/
structure IsCut (cs : List Char) (cuts : List Cut) (last : List Char) : Prop where
  text : cs = cuts.flatMap Cut.source ++ last
  spelled : ∀ cut ∈ cuts, cut.target.Spelled cut.spelled
  complete : ∀ {p : DataPath} {before spelled after : List Char}, p.Spelled spelled →
    cs = before ++ (spelled ++ after) → ∃ earlier cut later, cuts = earlier ++ cut :: later ∧
      before = earlier.flatMap Cut.source ++ cut.gap ∧ spelled = cut.spelled ∧ p = cut.target

/-- The references of the cuts, the i-th bound to the i-th variable from `index` on. -/
def numberCuts (index : Nat) (cuts : List Cut) : List DataReference :=
  cuts.mapIdx fun i cut ↦ ⟨cut.target, variableName (index + i)⟩

/-- The text with the i-th variable from `index` on in the place of the i-th reference. -/
def replaceCuts (index : Nat) (cuts : List Cut) (last : List Char) : List Char :=
  (cuts.mapIdx fun i cut ↦ cut.gap ++ (variableName (index + i)).toList).flatten ++ last

theorem numberCuts_cons (index : Nat) (cut : Cut) (cuts : List Cut) :
    numberCuts index (cut :: cuts) =
      ⟨cut.target, variableName index⟩ :: numberCuts (index + 1) cuts := by
  simp only [numberCuts, List.mapIdx_cons, Nat.add_zero, Nat.add_right_comm, Nat.add_assoc]

theorem replaceCuts_cons (index : Nat) (cut : Cut) (cuts : List Cut) (last : List Char) :
    replaceCuts index (cut :: cuts) last =
      cut.gap ++ ((variableName index).toList ++ replaceCuts (index + 1) cuts last) := by
  simp only [replaceCuts, List.mapIdx_cons, List.flatten_cons, List.append_assoc, Nat.add_zero,
    Nat.add_right_comm, Nat.add_assoc]

/-- Puts a character in front of what is cut. -/
def padCuts (c : Char) : List Cut → List Char → List Cut × List Char
  | [], last => ([], c :: last)
  | cut :: cuts, last => ({ cut with gap := c :: cut.gap } :: cuts, last)

theorem numberCuts_padCuts (index : Nat) (cuts : List Cut) (last : List Char) :
    numberCuts index (padCuts c cuts last).1 = numberCuts index cuts := by
  cases cuts with
  | nil => rfl
  | cons cut cuts => rw [padCuts, numberCuts_cons, numberCuts_cons]

theorem replaceCuts_padCuts (index : Nat) (cuts : List Cut) (last : List Char) :
    replaceCuts index (padCuts c cuts last).1 (padCuts c cuts last).2 =
      c :: replaceCuts index cuts last := by
  cases cuts with
  | nil => rfl
  | cons cut cuts =>
    rw [padCuts, replaceCuts_cons, replaceCuts_cons]
    rfl

theorem isCut_nil : IsCut [] [] [] where
  text := rfl
  spelled := fun _ h ↦ absurd h List.not_mem_nil
  complete := by
    intro p before spelled after hspelled heq
    obtain ⟨body, rfl, -⟩ := hspelled.exists_body
    cases before <;> cases heq

/-- A character that opens no reference belongs to the text before the next one. -/
theorem IsCut.pad {cuts : List Cut} {last : List Char} (h : IsCut rest cuts last)
    (hnone : ∀ (p : DataPath) (spelled after : List Char), p.Spelled spelled →
      c :: rest ≠ spelled ++ after) :
    IsCut (c :: rest) (padCuts c cuts last).1 (padCuts c cuts last).2 where
  text := by
    rw [h.text]
    cases cuts with
    | nil => rfl
    | cons cut cuts => rfl
  spelled := by
    cases cuts with
    | nil => exact h.spelled
    | cons cut cuts =>
      exact List.forall_mem_cons.2
        ⟨h.spelled cut List.mem_cons_self, fun d hd ↦ h.spelled d (List.mem_cons_of_mem _ hd)⟩
  complete := by
    intro p before spelled after hspelled heq
    cases before with
    | nil => exact absurd heq (hnone p spelled after hspelled)
    | cons d before =>
      obtain ⟨rfl, hrest⟩ := List.cons.inj heq
      obtain ⟨earlier, cut, later, rfl, rfl, rfl, rfl⟩ := h.complete hspelled hrest
      cases earlier with
      | nil => exact ⟨[], _, later, rfl, rfl, rfl, rfl⟩
      | cons e earlier => exact ⟨_ :: earlier, cut, later, rfl, rfl, rfl, rfl⟩

/-- Behind a reference the search goes on: no other one begins inside it. -/
theorem IsCut.cut {cuts : List Cut} {last : List Char} (h : IsCut rest cuts last)
    (hp : p.Spelled spelled) : IsCut (spelled ++ rest) (⟨[], spelled, p⟩ :: cuts) last where
  text := by
    rw [h.text, List.flatMap_cons, List.append_assoc]
    rfl
  spelled := List.forall_mem_cons.2 ⟨hp, h.spelled⟩
  complete := by
    intro q before spelled' after hq heq
    obtain ⟨body, rfl, hbody⟩ := hp.exists_body
    obtain ⟨body', rfl, hbody'⟩ := hq.exists_body
    cases before with
    | nil =>
      obtain ⟨rfl, hsame, rfl⟩ := hp.eq_of_append hq heq
      exact ⟨[], _, cuts, rfl, rfl, hsame.symm, rfl⟩
    | cons d before =>
      obtain ⟨rfl, hbodies⟩ := List.cons.inj heq
      rcases List.append_eq_append_iff.1 hbodies with ⟨gap, rfl, hrest⟩ | ⟨inside, hin, hout⟩
      · obtain ⟨earlier, cut, later, rfl, rfl, hsame, rfl⟩ := h.complete hq hrest
        exact ⟨_ :: earlier, cut, later, rfl, by simp [Cut.source], hsame, rfl⟩
      · cases inside with
        | nil =>
          have hrest : rest = [] ++ ('[' :: body' ++ after) := hout.symm
          obtain ⟨earlier, cut, later, rfl, hgap, hsame, rfl⟩ := h.complete hq hrest
          refine ⟨_ :: earlier, cut, later, rfl, ?_, hsame, rfl⟩
          rw [List.append_nil] at hin
          rw [List.flatMap_cons, List.append_assoc, ← hgap, hin]
          simp [Cut.source]
        | cons e inside =>
          obtain ⟨rfl, -⟩ := List.cons.inj hout
          exact absurd (hin ▸ List.mem_append_right _ List.mem_cons_self) hbody

theorem scan_of_spelled (h : p.Spelled spelled) :
    scan (spelled ++ rest) = .reference p :: scan rest := by
  obtain ⟨body, rfl, -⟩ := h.exists_body
  have hread := h.readReference? rest
  rw [List.cons_append, scan, if_pos rfl]
  split
  · next q rest' hq =>
    obtain ⟨rfl, rfl⟩ := Prod.mk.inj (Option.some.inj (hread.symm.trans hq))
    rfl
  · next hq => cases hread.symm.trans hq

theorem exists_cuts_cons {index : Nat} (hscan : scan (c :: rest) = .char c :: scan rest)
    (hnone : ∀ (p : DataPath) (spelled after : List Char), p.Spelled spelled →
      c :: rest ≠ spelled ++ after)
    (h : ∃ cuts last, IsCut rest cuts last ∧
      numberReferences index (scan rest) = numberCuts index cuts ∧
      substitute index (scan rest) = replaceCuts index cuts last) :
    ∃ cuts last, IsCut (c :: rest) cuts last ∧
      numberReferences index (scan (c :: rest)) = numberCuts index cuts ∧
      substitute index (scan (c :: rest)) = replaceCuts index cuts last := by
  obtain ⟨cuts, last, hcut, hnumber, hreplace⟩ := h
  refine ⟨_, _, hcut.pad hnone, ?_, ?_⟩
  · rw [hscan, numberReferences, numberCuts_padCuts, hnumber]
  · rw [hscan, substitute, replaceCuts_padCuts, hreplace]

/-- **Scanning finds the references in a text**, all of them, and puts a variable in the place of
each. -/
theorem exists_cuts (cs : List Char) (index : Nat) : ∃ cuts last, IsCut cs cuts last ∧
    numberReferences index (scan cs) = numberCuts index cuts ∧
    substitute index (scan cs) = replaceCuts index cuts last := by
  induction cs using scan.induct generalizing index with
  | case1 =>
    refine ⟨[], [], isCut_nil, ?_, ?_⟩ <;> rw [scan] <;> rfl
  | case2 rest p rest' hread ih =>
    obtain ⟨cuts, last, hcut, hnumber, hreplace⟩ := ih (index + 1)
    obtain ⟨body, rfl, hspelled⟩ := spelled_of_readReference? hread
    have hscan : scan ('[' :: (body ++ rest')) = .reference p :: scan rest' :=
      scan_of_spelled hspelled
    refine ⟨_, last, hcut.cut hspelled, ?_, ?_⟩
    · rw [hscan, numberReferences, numberCuts_cons, hnumber]
    · rw [hscan, substitute, replaceCuts_cons, hreplace]
      rfl
  | case3 rest hread ih =>
    have hscan : scan ('[' :: rest) = .char '[' :: scan rest := by
      rw [scan, if_pos rfl]
      split
      · next q rest'' hq => cases hread.symm.trans hq
      · rfl
    refine exists_cuts_cons hscan (fun p spelled after hspelled heq ↦ ?_) (ih index)
    obtain ⟨body, rfl, -⟩ := hspelled.exists_body
    obtain ⟨-, rfl⟩ := List.cons.inj heq
    cases hread.symm.trans (hspelled.readReference? after)
  | case4 c rest hc ih =>
    have hscan : scan (c :: rest) = .char c :: scan rest := by rw [scan, if_neg hc]
    refine exists_cuts_cons hscan (fun p spelled after hspelled heq ↦ ?_) (ih index)
    obtain ⟨body, rfl, -⟩ := hspelled.exists_body
    exact hc (List.cons.inj heq).1

end Expression

end Orchestration
