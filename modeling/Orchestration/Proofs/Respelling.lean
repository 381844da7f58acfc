import Orchestration.Proofs.Quoting

/-!
# Operators as words

The logical operators may be written with signs, and are rewritten as words before an expression is
read. Every text is divided in one way only into quoted texts and the code around them
(`Quotation.Divides`). A quoted text that is never closed reaches to the end.

What becomes of a stretch of code is said by a relation that reads it from left to right and takes
the longest sign that stands at a place (`Respelled`). A word is written between two spaces, so no
sign comes about where a word meets what is next to it. The result therefore has no more signs to be
rewritten, and is divided at the same quoted texts: to rewrite it once more changes nothing
(`operators_become_words`).
-/

namespace Orchestration

namespace Expression

variable {c mark : Char} {cs ds rest body literal : List Char}

/-! ## Quoted texts and code -/

/-- A quoted text that is never closed, with the mark that opens it. -/
inductive IsUnclosed : List Char → Prop where
  | opened {mark : Char} {rest : List Char} (hmark : isMark mark = true)
      (hopen : ∀ body after : List Char, Quotable mark body → rest ≠ body ++ mark :: after) :
      IsUnclosed (mark :: rest)

/-- The quoted texts of a text, each with the code in front of it, and the code behind the last one.
If a mark opens a quoted text there that is never closed, this comes last. -/
structure Quotation where
  stretches : List Stretch
  code : List Char
  unclosed : List Char

namespace Quotation

def text (q : Quotation) : List Char := q.stretches.flatMap Stretch.source ++ (q.code ++ q.unclosed)

/-- The quoted texts in their order. The last is the one that is never closed, and empty if there is
none. -/
def literals (q : Quotation) : List (List Char) := q.stretches.map Stretch.literal ++ [q.unclosed]

/-- The code between the quoted texts. -/
def codes (q : Quotation) : List (List Char) := q.stretches.map Stretch.code ++ [q.code]

/-- A text is divided into its quoted texts and the code around them. -/
structure Divides (q : Quotation) (cs : List Char) : Prop where
  text : q.text = cs
  code : ∀ code ∈ q.codes, ∀ c ∈ code, isMark c = false
  literal : ∀ s ∈ q.stretches, IsLiteral s.literal
  unclosed : q.unclosed = [] ∨ IsUnclosed q.unclosed

/-- The quotation with another stretch in front. -/
def consStretch (s : Stretch) (q : Quotation) : Quotation :=
  { q with stretches := s :: q.stretches }

/-- The quotation with one more character of code in front. -/
def consChar (c : Char) (q : Quotation) : Quotation :=
  match q.stretches with
  | [] => { q with code := c :: q.code }
  | s :: stretches => { q with stretches := ⟨c :: s.code, s.literal⟩ :: stretches }

/-- The quotation with other code around the same quoted texts. -/
def mapCode (f : List Char → List Char) (q : Quotation) : Quotation :=
  { q with stretches := q.stretches.map fun s ↦ ⟨f s.code, s.literal⟩, code := f q.code }

variable {q q' : Quotation} {s : Stretch}

@[simp] theorem text_consStretch : (q.consStretch s).text = s.code ++ (s.literal ++ q.text) := by
  simp [consStretch, text, Stretch.source]

@[simp] theorem codes_consStretch : (q.consStretch s).codes = s.code :: q.codes := rfl

@[simp] theorem codes_mapCode (f : List Char → List Char) :
    (q.mapCode f).codes = q.codes.map f := by
  simp [mapCode, codes]

@[simp] theorem literals_mapCode (f : List Char → List Char) :
    (q.mapCode f).literals = q.literals := by
  simp [mapCode, literals]

theorem Divides.consStretch (h : q.Divides cs) (hcode : ∀ c ∈ s.code, isMark c = false)
    (hliteral : IsLiteral s.literal) : (q.consStretch s).Divides (s.code ++ (s.literal ++ cs)) where
  text := by rw [text_consStretch, h.text]
  code := List.forall_mem_cons.2 ⟨hcode, h.code⟩
  literal := List.forall_mem_cons.2 ⟨hliteral, h.literal⟩
  unclosed := h.unclosed

theorem Divides.of_consStretch (h : (q.consStretch s).Divides cs) :
    (∀ c ∈ s.code, isMark c = false) ∧ IsLiteral s.literal ∧ q.Divides q.text :=
  ⟨(List.forall_mem_cons.1 h.code).1, (List.forall_mem_cons.1 h.literal).1,
    ⟨rfl, (List.forall_mem_cons.1 h.code).2, (List.forall_mem_cons.1 h.literal).2, h.unclosed⟩⟩

theorem Divides.consChar (h : q.Divides cs) (hc : isMark c = false) :
    (q.consChar c).Divides (c :: cs) := by
  obtain ⟨stretches, code, unclosed⟩ := q
  obtain ⟨rfl, hcode, hliteral, hunclosed⟩ := h
  cases stretches with
  | nil =>
    refine ⟨rfl, ?_, hliteral, hunclosed⟩
    have hcode := hcode code List.mem_cons_self
    exact List.forall_mem_singleton.2 (List.forall_mem_cons.2 ⟨hc, hcode⟩)
  | cons s stretches =>
    obtain ⟨hs, hcode⟩ := List.forall_mem_cons.1 hcode
    obtain ⟨hs', hliteral⟩ := List.forall_mem_cons.1 hliteral
    exact ⟨rfl, List.forall_mem_cons.2 ⟨List.forall_mem_cons.2 ⟨hc, hs⟩, hcode⟩,
      List.forall_mem_cons.2 ⟨hs', hliteral⟩, hunclosed⟩

theorem exists_divides (cs : List Char) : ∃ q : Quotation, q.Divides cs := by
  induction hlength : cs.length using Nat.strongRecOn generalizing cs with
  | ind n ih =>
    subst hlength
    cases cs with
    | nil => exact ⟨⟨[], [], []⟩, rfl, by simp [codes], by simp, .inl rfl⟩
    | cons c rest =>
      cases hmark : isMark c with
      | false =>
        obtain ⟨q, hq⟩ := ih _ (Nat.lt_succ_self _) rest rfl
        exact ⟨q.consChar c, hq.consChar hmark⟩
      | true =>
        by_cases hclosed : ∃ body after, Quotable c body ∧ rest = body ++ c :: after
        · obtain ⟨body, after, hbody, rfl⟩ := hclosed
          have hshorter : after.length < (c :: (body ++ c :: after)).length := by
            simp only [List.length_append, List.length_cons]
            omega
          obtain ⟨q, hq⟩ := ih after.length hshorter after rfl
          have hdivides :=
            hq.consStretch (s := ⟨[], c :: (body ++ [c])⟩) (by simp) (.quoted hmark hbody)
          simp only [List.nil_append, List.cons_append, List.append_assoc] at hdivides
          exact ⟨_, hdivides⟩
        · refine ⟨⟨[], [], c :: rest⟩, rfl, by simp [codes], by simp, .inr (.opened hmark ?_)⟩
          exact fun body after hbody heq ↦ hclosed ⟨body, after, hbody, heq⟩

end Quotation

/-! ### Only one way to divide a text -/

/-- What stands behind code begins with a mark, if there is anything. -/
def BeginsMarked (cs : List Char) : Prop := ∀ c ∈ cs.head?, isMark c = true

theorem IsLiteral.beginsMarked (h : IsLiteral literal) (rest : List Char) :
    BeginsMarked (literal ++ rest) := by
  cases h with
  | quoted hmark hbody => simpa [BeginsMarked] using hmark

theorem beginsMarked_of_unclosed (h : rest = [] ∨ IsUnclosed rest) : BeginsMarked rest := by
  rcases h with rfl | ⟨hmark, hopen⟩
  · simp [BeginsMarked]
  · simpa [BeginsMarked] using hmark

theorem code_unique {code code' rest' : List Char} (hcode : ∀ c ∈ code, isMark c = false)
    (hcode' : ∀ c ∈ code', isMark c = false) (hrest : BeginsMarked rest)
    (hrest' : BeginsMarked rest')
    (h : code ++ rest = code' ++ rest') : code = code' ∧ rest = rest' := by
  have htake : ∀ {code rest : List Char}, (∀ c ∈ code, isMark c = false) → BeginsMarked rest →
      (code ++ rest).takeWhile (fun c ↦ !isMark c) = code := by
    intro code rest hcode hrest
    rw [List.takeWhile_append_of_pos fun c hc ↦ by simp [hcode c hc]]
    cases rest with
    | nil => simp
    | cons c rest => simp [hrest c rfl]
  obtain rfl : code = code' := by rw [← htake hcode hrest, h, htake hcode' hrest']
  exact ⟨rfl, List.append_cancel_left h⟩

theorem quotable_unique {body' rest' : List Char} (hmark : mark ≠ '\\') (h : Quotable mark body)
    (h' : Quotable mark body') (heq : body ++ mark :: rest = body' ++ mark :: rest') :
    body = body' ∧ rest = rest' := by
  induction h generalizing body' with
  | nil =>
    cases h' with
    | nil => exact ⟨rfl, (List.cons.inj heq).2⟩
    | plain hescape hne h' => exact absurd (List.cons.inj heq).1.symm hne
    | escaped c h' => exact absurd (List.cons.inj heq).1 hmark
  | plain hescape hne h ih =>
    cases h' with
    | nil => exact absurd (List.cons.inj heq).1 hne
    | plain hescape' hne' h' =>
      obtain ⟨rfl, heq'⟩ := List.cons.inj heq
      obtain ⟨rfl, rfl⟩ := ih h' heq'
      exact ⟨rfl, rfl⟩
    | escaped c h' => exact absurd (List.cons.inj heq).1 hescape
  | escaped c h ih =>
    cases h' with
    | nil => exact absurd (List.cons.inj heq).1.symm hmark
    | plain hescape' hne' h' => exact absurd (List.cons.inj heq).1.symm hescape'
    | escaped c' h' =>
      obtain ⟨rfl, heq'⟩ := List.cons.inj (List.cons.inj heq).2
      obtain ⟨rfl, rfl⟩ := ih h' heq'
      exact ⟨rfl, rfl⟩

theorem ne_backslash_of_isMark (h : isMark mark = true) : mark ≠ '\\' := by
  rintro rfl
  cases h

theorem IsLiteral.unique {literal' rest' : List Char} (h : IsLiteral literal)
    (h' : IsLiteral literal') (heq : literal ++ rest = literal' ++ rest') :
    literal = literal' ∧ rest = rest' := by
  obtain ⟨hmark, hbody⟩ := h
  obtain ⟨hmark', hbody'⟩ := h'
  simp only [List.cons_append, List.append_assoc, List.nil_append] at heq
  obtain ⟨rfl, heq⟩ := List.cons.inj heq
  obtain ⟨rfl, rfl⟩ := quotable_unique (ne_backslash_of_isMark hmark) hbody hbody' heq
  exact ⟨rfl, rfl⟩

theorem IsUnclosed.ne_literal (h : IsUnclosed cs) (hliteral : IsLiteral literal) :
    cs ≠ literal ++ rest := by
  obtain ⟨hmark, hopen⟩ := h
  obtain ⟨hmark', hbody⟩ := hliteral
  intro heq
  simp only [List.cons_append, List.append_assoc, List.nil_append] at heq
  obtain ⟨rfl, heq⟩ := List.cons.inj heq
  exact hopen _ _ hbody heq

namespace Quotation

theorem unclosed_ne_literal {unclosed : List Char} (h : unclosed = [] ∨ IsUnclosed unclosed)
    (hliteral : IsLiteral literal) : unclosed ≠ literal ++ rest := by
  rcases h with rfl | h
  · obtain ⟨hmark, hbody⟩ := hliteral
    exact (List.cons_ne_nil _ _).symm
  · exact h.ne_literal hliteral

/-- **A text is divided in one way only.** -/
theorem Divides.unique {q q' : Quotation} (h : q.Divides cs) (h' : q'.Divides cs) : q = q' := by
  obtain ⟨stretches, code, unclosed⟩ := q
  obtain ⟨stretches', code', unclosed'⟩ := q'
  induction stretches generalizing cs stretches' with
  | nil =>
    have htext := h.text.trans h'.text.symm
    have hcode := h.code code List.mem_cons_self
    have hmarked := beginsMarked_of_unclosed h.unclosed
    cases stretches' with
    | nil =>
      obtain ⟨rfl, rfl⟩ := code_unique hcode (h'.code code' List.mem_cons_self) hmarked
        (beginsMarked_of_unclosed h'.unclosed) htext
      rfl
    | cons s stretches' =>
      obtain ⟨hcode', hliteral, -⟩ :=
        Divides.of_consStretch (q := ⟨stretches', code', unclosed'⟩) h'
      have htext' := htext.trans (text_consStretch (q := ⟨stretches', code', unclosed'⟩))
      have hrest := (code_unique hcode hcode' hmarked (hliteral.beginsMarked _) htext').2
      exact absurd hrest (unclosed_ne_literal h.unclosed hliteral)
  | cons s stretches ih =>
    obtain ⟨hcode, hliteral, hrest⟩ := Divides.of_consStretch (q := ⟨stretches, code, unclosed⟩) h
    have htext := (text_consStretch (q := ⟨stretches, code, unclosed⟩)).symm.trans
      (h.text.trans h'.text.symm)
    cases stretches' with
    | nil =>
      have hrest' := (code_unique hcode (h'.code code' List.mem_cons_self) (hliteral.beginsMarked _)
        (beginsMarked_of_unclosed h'.unclosed) htext).2
      exact absurd hrest'.symm (unclosed_ne_literal h'.unclosed hliteral)
    | cons s' stretches' =>
      obtain ⟨hcode', hliteral', hrest'⟩ :=
        Divides.of_consStretch (q := ⟨stretches', code', unclosed'⟩) h'
      have htext := htext.trans (text_consStretch (q := ⟨stretches', code', unclosed'⟩))
      obtain ⟨hcodes, hbehind⟩ :=
        code_unique hcode hcode' (hliteral.beginsMarked _) (hliteral'.beginsMarked _) htext
      obtain ⟨hliterals, hbehind⟩ := hliteral.unique hliteral' hbehind
      have hsame := ih hrest stretches' (hbehind ▸ hrest')
      obtain ⟨code₁, literal₁⟩ := s
      obtain ⟨code₂, literal₂⟩ := s'
      obtain rfl : code₁ = code₂ := hcodes
      obtain rfl : literal₁ = literal₂ := hliterals
      cases hsame
      rfl

end Quotation

/-! ## Signs and words -/

theorem pair_prefix_iff {a b : Char} : [a, b] <+: c :: cs ↔ c = a ∧ cs.head? = some b := by
  rw [List.cons_prefix_cons, eq_comm, List.head?_eq_some_iff]
  exact and_congr_right fun _ ↦ exists_congr fun _ ↦ eq_comm

/-- The operators that are written with signs. The one for unequal values has no word. -/
inductive Sign where
  | and
  | or
  | unequal
  | not
deriving DecidableEq, Repr

namespace Sign

/-- How an operator is written with signs. -/
def written : Sign → List Char
  | .and => ['&', '&']
  | .or => ['|', '|']
  | .unequal => ['!', '=']
  | .not => ['!']

/-- What is written for an operator in the end: its word between two spaces, if it has one. -/
def word : Sign → List Char
  | .and => " and ".toList
  | .or => " or ".toList
  | .unequal => "!=".toList
  | .not => " not ".toList

/-- Of the signs that begin a text, none is longer than this one. -/
def IsLongest (g : Sign) (cs : List Char) : Prop :=
  ∀ g' : Sign, g'.written <+: cs → g'.written.length ≤ g.written.length

theorem isLongest_of_two {g : Sign} (h : g.written.length = 2) (cs : List Char) :
    g.IsLongest cs := by
  intro g' _
  rw [h]
  cases g' <;> decide

end Sign

/-- Code with words in the place of signs. It is read from left to right, the longest sign first. -/
inductive Respelled : List Char → List Char → Prop where
  | nil : Respelled [] []
  | sign (g : Sign) {cs ds : List Char} (hlongest : g.IsLongest (g.written ++ cs))
      (h : Respelled cs ds) : Respelled (g.written ++ cs) (g.word ++ ds)
  | char {c : Char} {cs ds : List Char} (hnone : ∀ g : Sign, ¬g.written <+: c :: cs)
      (h : Respelled cs ds) : Respelled (c :: cs) (c :: ds)

/-- No operator in code is written with signs for which there is a word. -/
structure IsWorded (cs : List Char) : Prop where
  and : ¬['&', '&'] <:+: cs
  or : ¬['|', '|'] <:+: cs
  not : ∀ before after : List Char, cs = before ++ '!' :: after → after.head? = some '='

namespace Respelled

theorem sign_unique {g g' : Sign} {rest' : List Char} (h : g.IsLongest (g.written ++ rest))
    (h' : g'.IsLongest (g'.written ++ rest')) (heq : g.written ++ rest = g'.written ++ rest') :
    g = g' ∧ rest = rest' := by
  have hle := h g' (heq ▸ List.prefix_append _ _)
  have hge := h' g (heq ▸ List.prefix_append _ _)
  have hwritten : g.written = g'.written :=
    (List.append_inj heq (Nat.le_antisymm hge hle)).1
  obtain rfl : g = g' := by
    revert hwritten
    cases g <;> cases g' <;> decide
  exact ⟨rfl, List.append_cancel_left heq⟩

/-- **What becomes of code is determined.** -/
theorem unique {ds' : List Char} (h : Respelled cs ds) (h' : Respelled cs ds') : ds = ds' := by
  induction h generalizing ds' with
  | nil =>
    generalize hcs : ([] : List Char) = cs at h'
    cases h' with
    | nil => rfl
    | sign g hlongest h' => cases g <;> cases hcs
    | char hnone h' => cases hcs
  | @sign g cs ds hlongest h ih =>
    generalize hcs : g.written ++ cs = cs' at h'
    cases h' with
    | nil => cases g <;> cases hcs
    | sign g' hlongest' h' =>
      obtain ⟨rfl, rfl⟩ := sign_unique hlongest hlongest' hcs
      rw [ih h']
    | char hnone h' => exact absurd (hcs ▸ List.prefix_append _ _) (hnone g)
  | @char c cs ds hnone h ih =>
    generalize hcs : c :: cs = cs' at h'
    cases h' with
    | nil => cases hcs
    | sign g hlongest h' => exact absurd (hcs ▸ List.prefix_append _ _) (hnone g)
    | char hnone' h' =>
      obtain ⟨rfl, rfl⟩ := List.cons.inj hcs
      rw [ih h']

theorem head?_eq (h : Respelled cs ds) (hc : c ≠ ' ') (hd : ds.head? = some c) :
    cs.head? = some c := by
  cases h with
  | nil => exact hd
  | sign g hlongest h =>
    cases g with
    | unequal => exact hd
    | and | or | not => exact absurd (Option.some.inj hd).symm hc
  | char hnone h => exact hd

theorem not_isMark (h : Respelled cs ds) (hcs : ∀ c ∈ cs, isMark c = false) :
    ∀ c ∈ ds, isMark c = false := by
  induction h with
  | nil => exact hcs
  | sign g hlongest h ih =>
    have hword : ∀ c ∈ g.word, isMark c = false := by cases g <;> simp [Sign.word, isMark]
    exact List.forall_mem_append.2 ⟨hword, ih (List.forall_mem_append.1 hcs).2⟩
  | char hnone h ih =>
    obtain ⟨hc, hcs⟩ := List.forall_mem_cons.1 hcs
    exact List.forall_mem_cons.2 ⟨hc, ih hcs⟩

end Respelled

namespace IsWorded

theorem nil : IsWorded [] where
  and := by simp
  or := by simp
  not before after h := by simp at h

/-- A character in front of code makes no sign if it does not go together with the next one. -/
theorem cons (h : IsWorded cs) (hand : c = '&' → cs.head? ≠ some '&')
    (hor : c = '|' → cs.head? ≠ some '|') (hnot : c = '!' → cs.head? = some '=') :
    IsWorded (c :: cs) where
  and hpart := by
    rcases List.infix_cons_iff.1 hpart with hprefix | hpart
    · obtain ⟨hc, hnext⟩ := pair_prefix_iff.1 hprefix
      exact hand hc hnext
    · exact h.and hpart
  or hpart := by
    rcases List.infix_cons_iff.1 hpart with hprefix | hpart
    · obtain ⟨hc, hnext⟩ := pair_prefix_iff.1 hprefix
      exact hor hc hnext
    · exact h.or hpart
  not before after heq := by
    cases before with
    | nil =>
      obtain ⟨rfl, rfl⟩ := List.cons.inj heq
      exact hnot rfl
    | cons d before => exact h.not before after (List.cons.inj heq).2

theorem of_cons (h : IsWorded (c :: cs)) : IsWorded cs where
  and hpart := h.and (hpart.trans (List.suffix_cons _ _).isInfix)
  or hpart := h.or (hpart.trans (List.suffix_cons _ _).isInfix)
  not before after heq := h.not (c :: before) after (congrArg (c :: ·) heq)

theorem append {word : List Char} (h : IsWorded cs) (hword : ∀ c ∈ word, c ∉ ['&', '|', '!']) :
    IsWorded (word ++ cs) := by
  induction word with
  | nil => exact h
  | cons c word ih =>
    obtain ⟨hc, hword⟩ := List.forall_mem_cons.1 hword
    refine (ih hword).cons ?_ ?_ ?_
    all_goals
      rintro rfl
      simp at hc

end IsWorded

namespace Respelled

theorem isWorded (h : Respelled cs ds) : IsWorded ds := by
  induction h with
  | nil => exact .nil
  | sign g hlongest h ih =>
    cases g with
    | and | or | not => exact ih.append (by simp [Sign.word])
    | unequal =>
      exact (show IsWorded (['='] ++ _) from ih.append (by simp)).cons
        (fun h ↦ absurd h (by decide)) (fun h ↦ absurd h (by decide)) fun _ ↦ rfl
  | @char c cs ds hnone h ih =>
    refine ih.cons (fun hc hnext ↦ ?_) (fun hc hnext ↦ ?_) fun hc ↦ ?_
    · exact hnone .and (pair_prefix_iff.2 ⟨hc, h.head?_eq (by decide) hnext⟩)
    · exact hnone .or (pair_prefix_iff.2 ⟨hc, h.head?_eq (by decide) hnext⟩)
    · exact absurd ⟨cs, congrArg (· :: cs) hc.symm⟩ (hnone .not)

/-- Where no sign is left for which there is a word, nothing becomes of code. -/
theorem of_isWorded (h : IsWorded cs) : Respelled cs cs := by
  induction hlength : cs.length using Nat.strongRecOn generalizing cs with
  | ind n ih =>
    subst hlength
    cases cs with
    | nil => exact .nil
    | cons c cs =>
      by_cases hc : c = '!'
      · subst hc
        obtain ⟨tail, rfl⟩ := List.head?_eq_some_iff.1 (h.not [] cs rfl)
        have hrest := ih tail.length (by simp only [List.length_cons]; omega) h.of_cons.of_cons rfl
        exact .sign .unequal (Sign.isLongest_of_two rfl _) hrest
      · refine .char (fun g hprefix ↦ ?_) (ih _ (Nat.lt_succ_self _) h.of_cons rfl)
        cases g with
        | and => exact h.and hprefix.isInfix
        | or => exact h.or hprefix.isInfix
        | unequal | not => exact hc (List.cons_prefix_cons.1 hprefix).1.symm

end Respelled

/-! ## The rewriting -/

theorem respelled_rewriteFrom (hcs : ∀ c ∈ cs, isMark c = false) :
    Respelled cs (rewriteFrom .code cs) := by
  suffices hall : ∀ place, place = .code → Respelled cs (rewriteFrom place cs) from hall .code rfl
  intro place hplace
  fun_induction rewriteFrom place cs with
  | case1 => exact .nil
  | case2 => cases hplace
  | case3 => cases hplace
  | case4 cs ih =>
    have hcs := (List.forall_mem_cons.1 (List.forall_mem_cons.1 hcs).2).2
    exact .sign .and (Sign.isLongest_of_two rfl _) (ih hcs rfl)
  | case5 cs ih =>
    have hcs := (List.forall_mem_cons.1 (List.forall_mem_cons.1 hcs).2).2
    exact .sign .or (Sign.isLongest_of_two rfl _) (ih hcs rfl)
  | case6 cs ih =>
    have hcs := (List.forall_mem_cons.1 (List.forall_mem_cons.1 hcs).2).2
    exact .sign .unequal (Sign.isLongest_of_two rfl _) (ih hcs rfl)
  | case7 cs hequal ih =>
    refine .sign .not (fun g hprefix ↦ ?_) (ih (List.forall_mem_cons.1 hcs).2 rfl)
    cases g with
    | and | or => exact absurd (pair_prefix_iff.1 hprefix).1 (by decide)
    | unequal =>
      obtain ⟨tail, htail⟩ := List.head?_eq_some_iff.1 (pair_prefix_iff.1 hprefix).2
      exact absurd htail (hequal tail)
    | not => exact Nat.le_refl _
  | case8 c cs hand hor hequal hnot ih =>
    obtain ⟨hc, hcs⟩ := List.forall_mem_cons.1 hcs
    have hplace : (if isMark c = true then Place.quoted c else Place.code) = .code :=
      if_neg (Bool.eq_false_iff.1 hc)
    refine .char (fun g hprefix ↦ ?_) (ih hcs hplace)
    cases g with
    | and =>
      obtain ⟨hc, hnext⟩ := pair_prefix_iff.1 hprefix
      obtain ⟨tail, htail⟩ := List.head?_eq_some_iff.1 hnext
      exact hand tail hc htail
    | or =>
      obtain ⟨hc, hnext⟩ := pair_prefix_iff.1 hprefix
      obtain ⟨tail, htail⟩ := List.head?_eq_some_iff.1 hnext
      exact hor tail hc htail
    | unequal | not => exact hnot (List.cons_prefix_cons.1 hprefix).1.symm

theorem rewriteFrom_mark (hmark : isMark mark = true) (rest : List Char) :
    rewriteFrom .code (mark :: rest) = mark :: rewriteFrom (.quoted mark) rest := by
  rcases Bool.or_eq_true_iff.1 hmark with h | h
  · rw [of_decide_eq_true h]
    rfl
  · rw [of_decide_eq_true h]
    rfl

theorem rewriteFrom_unclosed
    (hopen : ∀ body after : List Char, Quotable mark body → rest ≠ body ++ mark :: after) :
    rewriteFrom (.quoted mark) rest = rest := by
  induction hlength : rest.length using Nat.strongRecOn generalizing rest with
  | ind n ih =>
    subst hlength
    cases rest with
    | nil => rfl
    | cons c rest =>
      have hne : c ≠ mark := fun hc ↦ hopen [] rest .nil (congrArg (· :: rest) hc)
      by_cases hc : c = '\\'
      · subst hc
        rw [rewriteFrom, if_pos rfl]
        cases rest with
        | nil => rfl
        | cons d rest =>
          have hkept := ih rest.length (by simp only [List.length_cons]; omega)
            (fun body after hbody heq ↦
              hopen ('\\' :: d :: body) after (.escaped d hbody) (by rw [heq]; rfl)) rfl
          rw [rewriteFrom, hkept]
      · have hkept := ih rest.length (Nat.lt_succ_self _)
          (fun body after hbody heq ↦ hopen (c :: body) after (.plain hc hne hbody)
            (by rw [heq]; rfl)) rfl
        rw [rewriteFrom, if_neg hc, if_neg hne, hkept]

theorem rewriteFrom_of_unclosed {unclosed : List Char} (h : unclosed = [] ∨ IsUnclosed unclosed) :
    rewriteFrom .code unclosed = unclosed := by
  rcases h with rfl | ⟨hmark, hopen⟩
  · rfl
  · rw [rewriteFrom_mark hmark, rewriteFrom_unclosed hopen]

theorem rewriteFrom_append (hcs : ∀ c ∈ cs, isMark c = false) (hrest : BeginsMarked rest) :
    rewriteFrom .code (cs ++ rest) = rewriteFrom .code cs ++ rewriteFrom .code rest := by
  cases rest with
  | nil => simp [rewriteFrom]
  | cons mark rest => exact rewriteFrom_code_append hcs (hrest mark rfl)

namespace Quotation

variable {q : Quotation}

/-- **Only the code of a text is rewritten.** -/
theorem Divides.rewriteFrom_text (h : q.Divides cs) :
    rewriteFrom .code q.text = (q.mapCode (rewriteFrom .code)).text := by
  obtain ⟨stretches, code, unclosed⟩ := q
  induction stretches generalizing cs with
  | nil =>
    have hcode := h.code code List.mem_cons_self
    have hkept := rewriteFrom_append hcode (beginsMarked_of_unclosed h.unclosed)
    rw [rewriteFrom_of_unclosed h.unclosed] at hkept
    exact hkept
  | cons s stretches ih =>
    obtain ⟨hcode, hliteral, hrest⟩ := Divides.of_consStretch (q := ⟨stretches, code, unclosed⟩) h
    calc rewriteFrom .code (Quotation.consStretch s ⟨stretches, code, unclosed⟩).text
        = rewriteFrom .code s.code ++
            (s.literal ++ rewriteFrom .code (Quotation.text ⟨stretches, code, unclosed⟩)) := by
          rw [text_consStretch, rewriteFrom_append hcode (hliteral.beginsMarked _),
            hliteral.rewriteFrom_append]
      _ = (Quotation.consStretch ⟨rewriteFrom .code s.code, s.literal⟩
            (mapCode (rewriteFrom .code) ⟨stretches, code, unclosed⟩)).text := by
          rw [text_consStretch, ih hrest]

theorem Divides.respelled (h : q.Divides cs) :
    List.Forall₂ Respelled q.codes (q.mapCode (rewriteFrom .code)).codes := by
  rw [codes_mapCode, List.forall₂_map_right_iff, List.forall₂_same]
  exact fun code hcode ↦ respelled_rewriteFrom (h.code code hcode)

theorem Divides.rewritten (h : q.Divides cs) :
    (q.mapCode (rewriteFrom .code)).Divides (rewriteFrom .code cs) where
  text := by rw [← h.rewriteFrom_text, h.text]
  code := by
    rw [codes_mapCode]
    refine List.forall_mem_map.2 fun code hcode ↦ ?_
    exact (respelled_rewriteFrom (h.code code hcode)).not_isMark (h.code code hcode)
  literal := List.forall_mem_map.2 h.literal
  unclosed := h.unclosed

/-- Where no sign is left for which there is a word, nothing is rewritten. -/
theorem Divides.rewriteFrom_eq_self (h : q.Divides cs) (hworded : ∀ code ∈ q.codes, IsWorded code) :
    rewriteFrom .code cs = cs := by
  have hsame : ∀ code ∈ q.codes, rewriteFrom .code code = code := fun code hcode ↦
    (respelled_rewriteFrom (h.code code hcode)).unique (.of_isWorded (hworded code hcode))
  have hmap : q.mapCode (rewriteFrom .code) = q := by
    obtain ⟨stretches, code, unclosed⟩ := q
    have hcode := hsame code (List.mem_append_right _ (List.mem_singleton_self code))
    have hstretches : ∀ s ∈ stretches, (⟨rewriteFrom .code s.code, s.literal⟩ : Stretch) = s :=
      fun s hs ↦ by rw [hsame s.code (List.mem_append_left _ (List.mem_map_of_mem hs))]
    simp only [mapCode, hcode, List.map_congr_left hstretches, List.map_id']
  rw [← h.text, h.rewriteFrom_text, hmap]

end Quotation

/-- **Operators become words, and nothing else changes.** A text and what it is rewritten to are
each divided in one way only. They have the same quoted texts in the same order, and the code
between them is respelled, so that no sign is left in it for which there is a word. To rewrite the
text once more changes nothing. -/
theorem operators_become_words (source : String) :
    ∃ q q' : Quotation,
      (∀ p : Quotation, p.Divides source.toList ↔ p = q) ∧
      (∀ p : Quotation, p.Divides (rewriteOperators source).toList ↔ p = q') ∧
      q'.literals = q.literals ∧
      List.Forall₂ Respelled q.codes q'.codes ∧
      (∀ code ∈ q'.codes, IsWorded code) ∧
      rewriteOperators (rewriteOperators source) = rewriteOperators source := by
  obtain ⟨q, hq⟩ := Quotation.exists_divides source.toList
  have hq' := hq.rewritten
  have hworded : ∀ code ∈ (q.mapCode (rewriteFrom .code)).codes, IsWorded code := by
    rw [Quotation.codes_mapCode]
    exact List.forall_mem_map.2 fun code hcode ↦
      (respelled_rewriteFrom (hq.code code hcode)).isWorded
  have hlist : (rewriteOperators source).toList = rewriteFrom .code source.toList :=
    String.toList_ofList
  refine ⟨q, q.mapCode (rewriteFrom .code), fun p ↦ ⟨fun hp ↦ hp.unique hq, fun hp ↦ hp ▸ hq⟩,
    fun p ↦ ?_, Quotation.literals_mapCode _, hq.respelled, hworded, ?_⟩
  · rw [hlist]
    exact ⟨fun hp ↦ hp.unique hq', fun hp ↦ hp ▸ hq'⟩
  · rw [rewriteOperators, hlist, hq'.rewriteFrom_eq_self hworded, rewriteOperators]

/-- Signs that run into one another, an escaped mark, and a mark that is never closed. -/
example : rewriteOperators "!!=&&&'\\'||'\"|| !" = " not != and &'\\'||'\"|| !" := by decide

end Expression

end Orchestration
