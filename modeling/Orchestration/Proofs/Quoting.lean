import Orchestration.Proofs.Following

/-!
# Quoted texts in the source of an expression

Parsing goes over a text twice. The scan for references knows of no quotation marks, and the
rewriting of operators, which does, looks at what the scan has left. Here a text is laid out as one
pass would read it: code, in which a mark stands only inside a reference, alternates with quoted
texts (`IsLaidOut`).

The two passes agree with this if and only if no reference begins inside a quoted text
(`literals_kept_iff`). Then the code between two quoted texts is parsed as if it stood alone, since
no reference reaches from it into a quoted text, no operator is written across a mark, and a
variable has no mark in it. Otherwise there are more references than in the code: each that begins
inside a quoted text is found as well, and nothing that is found is lost by it, because references
do not overlap.
-/

namespace Orchestration

namespace Expression

variable {c mark : Char} {cs rest code literal body last : List Char} {p : DataPath} {index : Nat}

/-! ## Layouts -/

/-- A reference begins a text. -/
def OpensReference (cs : List Char) : Prop :=
  ∃ (p : DataPath) (spelled rest : List Char), p.Spelled spelled ∧ cs = spelled ++ rest

/-- What can stand between two marks. A backslash takes the next character with it. -/
inductive Quotable (mark : Char) : List Char → Prop where
  | nil : Quotable mark []
  | plain {c : Char} {cs : List Char} (hescape : c ≠ '\\') (hmark : c ≠ mark)
      (h : Quotable mark cs) : Quotable mark (c :: cs)
  | escaped (c : Char) {cs : List Char} (h : Quotable mark cs) : Quotable mark ('\\' :: c :: cs)

theorem quotable_of_all (h : cs.all (fun c ↦ c != '\\' && c != mark) = true) :
    Quotable mark cs := by
  induction cs with
  | nil => exact .nil
  | cons c cs ih =>
    rw [List.all_cons, Bool.and_eq_true, Bool.and_eq_true, bne_iff_ne, bne_iff_ne] at h
    exact .plain h.1.1 h.1.2 (ih h.2)

/-- A quoted text, with its marks. -/
inductive IsLiteral : List Char → Prop where
  | quoted {mark : Char} {body : List Char} (hmark : isMark mark = true)
      (hbody : Quotable mark body) : IsLiteral (mark :: (body ++ [mark]))

/-- Code in front of a text: a mark stands in it only inside a reference. -/
inductive IsCode : List Char → List Char → Prop where
  | nil (rest : List Char) : IsCode [] rest
  | char {c : Char} {cs rest : List Char} (hmark : isMark c = false)
      (hnone : ¬OpensReference (c :: (cs ++ rest))) (h : IsCode cs rest) : IsCode (c :: cs) rest
  | reference {p : DataPath} {spelled cs rest : List Char} (hp : p.Spelled spelled)
      (h : IsCode cs rest) : IsCode (spelled ++ cs) rest

/-- A quoted text, with the code between the quoted text before it and this one. -/
structure Stretch where
  code : List Char
  literal : List Char

/-- The part of the text that a stretch covers. -/
def Stretch.source (s : Stretch) : List Char := s.code ++ s.literal

/-- The stretches of a text are its quoted texts with the code in front of each. The code behind the
last one may end in a mark that opens a quoted text which is never closed. -/
inductive IsLaidOut : List Char → List Stretch → List Char → Prop where
  | code {code : List Char} (hcode : IsCode code []) : IsLaidOut code [] code
  | unclosed {code rest : List Char} {mark : Char} (hcode : IsCode code (mark :: rest))
      (hmark : isMark mark = true)
      (hopen : ∀ body after : List Char, Quotable mark body → rest ≠ body ++ mark :: after) :
      IsLaidOut (code ++ mark :: rest) [] (code ++ mark :: rest)
  | literal {code literal rest last : List Char} {stretches : List Stretch}
      (hcode : IsCode code (literal ++ rest)) (hliteral : IsLiteral literal)
      (hrest : IsLaidOut rest stretches last) :
      IsLaidOut (code ++ (literal ++ rest)) (⟨code, literal⟩ :: stretches) last

/-- A reference begins inside one of the quoted texts. It may end behind it. -/
def BeginsQuoted : List Stretch → List Char → Prop
  | [], _ => False
  | s :: stretches, last =>
    (∃ before inside : List Char, s.literal = before ++ inside ∧ inside ≠ [] ∧
      OpensReference (inside ++ (stretches.flatMap Stretch.source ++ last))) ∨
    BeginsQuoted stretches last

/-- The references in the code, numbered from the first. -/
def codeReferences (stretches : List Stretch) (last : List Char) : List DataReference :=
  numberReferences 0 (stretches.flatMap (fun s ↦ scan s.code) ++ scan last)

/-- Whether a piece of a text is a reference. -/
def Piece.isReference : Piece → Bool
  | .char _ => false
  | .reference _ => true

/-- The text with each quoted text as it is, and the code before and behind it parsed as if it stood
alone, with the variables numbered from `index` on. -/
def rewriteStretches (index : Nat) : List Stretch → List Char → List Char
  | [], last => rewriteFrom .code (substitute index (scan last))
  | s :: stretches, last =>
    rewriteFrom .code (substitute index (scan s.code)) ++
      (s.literal ++
        rewriteStretches (index + (scan s.code).countP Piece.isReference) stretches last)

/-! ## Every text has a layout -/

theorem OpensReference.append (h : OpensReference cs) (rest : List Char) :
    OpensReference (cs ++ rest) := by
  obtain ⟨p, spelled, after, hp, rfl⟩ := h
  exact ⟨p, spelled, after ++ rest, hp, List.append_assoc ..⟩

theorem not_opensReference_cons (hc : c ≠ '[') : ¬OpensReference (c :: rest) := by
  rintro ⟨p, spelled, after, hp, heq⟩
  obtain ⟨body, rfl, -⟩ := hp.exists_body
  exact hc (List.cons.inj heq).1

theorem isCode_of_all (h : cs.all (fun c ↦ !isMark c && c != '[') = true) (rest : List Char) :
    IsCode cs rest := by
  induction cs with
  | nil => exact .nil rest
  | cons c cs ih =>
    rw [List.all_cons, Bool.and_eq_true, Bool.and_eq_true, Bool.not_eq_true', bne_iff_ne] at h
    exact .char h.1.1 (not_opensReference_cons h.1.2) (ih h.2)

/-- More code in front of a text belongs to the code in front of the first quoted text. -/
theorem exists_isLaidOut_append (before : List Char)
    (hbefore : ∀ code after, rest = code ++ after → IsCode code after →
      IsCode (before ++ code) after)
    (h : ∃ stretches last, IsLaidOut rest stretches last) :
    ∃ stretches last, IsLaidOut (before ++ rest) stretches last := by
  obtain ⟨stretches, last, h⟩ := h
  cases h with
  | code hcode => exact ⟨[], _, .code (hbefore _ _ (List.append_nil _).symm hcode)⟩
  | unclosed hcode hmark hopen =>
    have h := IsLaidOut.unclosed (hbefore _ _ rfl hcode) hmark hopen
    rw [List.append_assoc] at h
    exact ⟨_, _, h⟩
  | literal hcode hliteral hrest =>
    have h := IsLaidOut.literal (hbefore _ _ rfl hcode) hliteral hrest
    rw [List.append_assoc] at h
    exact ⟨_, _, h⟩

/-- A mark opens a quoted text, or the text behind it has no other one that closes it. -/
theorem exists_isLaidOut_mark (hmark : isMark mark = true)
    (h : ∀ after : List Char, after.length < rest.length →
      ∃ stretches last, IsLaidOut after stretches last) :
    ∃ stretches last, IsLaidOut (mark :: rest) stretches last := by
  by_cases hclosed : ∃ body after, Quotable mark body ∧ rest = body ++ mark :: after
  · obtain ⟨body, after, hbody, rfl⟩ := hclosed
    have hshort : after.length < (body ++ mark :: after).length := by
      rw [List.length_append, List.length_cons]
      omega
    obtain ⟨stretches, last, hafter⟩ := h after hshort
    have hlaid := IsLaidOut.literal (.nil _) (.quoted hmark hbody) hafter
    simp only [List.nil_append, List.cons_append, List.append_assoc] at hlaid
    exact ⟨_, _, hlaid⟩
  · refine ⟨[], _, .unclosed (.nil _) hmark fun body after hbody heq ↦ ?_⟩
    exact hclosed ⟨body, after, hbody, heq⟩

theorem exists_isLaidOut (cs : List Char) : ∃ stretches last, IsLaidOut cs stretches last := by
  induction hlength : cs.length using Nat.strongRecOn generalizing cs with
  | ind n ih =>
    subst hlength
    have hshorter : ∀ after : List Char, after.length < cs.length →
        ∃ stretches last, IsLaidOut after stretches last := fun after hafter ↦ ih _ hafter after rfl
    cases cs with
    | nil => exact ⟨[], [], .code (.nil [])⟩
    | cons c rest =>
      by_cases hopens : OpensReference (c :: rest)
      · obtain ⟨p, spelled, after, hp, htext⟩ := hopens
        obtain ⟨body, hbody, -⟩ := hp.exists_body
        have hshort : after.length < (c :: rest).length := by
          rw [htext, hbody, List.length_append, List.length_cons]
          omega
        rw [htext]
        exact exists_isLaidOut_append spelled (fun _ _ _ hcode ↦ .reference hp hcode)
          (hshorter after hshort)
      · cases hmark : isMark c with
        | false =>
          refine exists_isLaidOut_append [c] (fun code after hrest hcode ↦ ?_)
            (hshorter rest (Nat.lt_succ_self _))
          exact .char hmark (hrest ▸ hopens) hcode
        | true =>
          exact exists_isLaidOut_mark hmark fun after hafter ↦
            hshorter after (Nat.lt_succ_of_lt hafter)

theorem IsLaidOut.text {stretches : List Stretch} (h : IsLaidOut cs stretches last) :
    cs = stretches.flatMap Stretch.source ++ last := by
  induction h with
  | code => rfl
  | unclosed => rfl
  | literal hcode hliteral hrest ih =>
    rw [List.flatMap_cons, Stretch.source, List.append_assoc, List.append_assoc, ← ih]

/-! ## The scan -/

theorem scan_cons (h : ¬OpensReference (c :: rest)) : scan (c :: rest) = .char c :: scan rest := by
  rw [scan]
  split
  · next hc =>
    subst hc
    split
    · next p rest' hread =>
      obtain ⟨body, rfl, hp⟩ := spelled_of_readReference? hread
      exact absurd ⟨p, _, rest', hp, rfl⟩ h
    · rfl
  · rfl

/-- Characters at which no reference begins are kept by the scan. -/
theorem scan_append (h : ∀ before inside : List Char, cs = before ++ inside → inside ≠ [] →
    ¬OpensReference (inside ++ rest)) : scan (cs ++ rest) = cs.map .char ++ scan rest := by
  induction cs with
  | nil => rfl
  | cons c cs ih =>
    have hnone : ¬OpensReference (c :: (cs ++ rest)) := h [] (c :: cs) rfl (List.cons_ne_nil c cs)
    rw [List.cons_append, scan_cons hnone, ih]
    · rfl
    · intro before inside hcs
      exact h (c :: before) inside (congrArg (c :: ·) hcs)

theorem IsCode.scan_append (h : IsCode cs rest) : scan (cs ++ rest) = scan cs ++ scan rest := by
  induction h with
  | nil rest => rw [scan, List.nil_append, List.nil_append]
  | @char c cs rest hmark hnone h ih =>
    have hnone' : ¬OpensReference (c :: cs) := fun hopens ↦ hnone (hopens.append rest)
    rw [List.cons_append, scan_cons hnone, scan_cons hnone', ih]
    rfl
  | reference hp h ih =>
    rw [List.append_assoc, scan_of_spelled hp, scan_of_spelled hp, ih]
    rfl

theorem countP_map_char (cs : List Char) : (cs.map Piece.char).countP Piece.isReference = 0 := by
  simp [List.countP_eq_zero, Piece.isReference]

/-- Where a reference begins, one more is found than from the next character on. -/
theorem OpensReference.countP_scan (h : OpensReference (c :: rest)) :
    (scan (c :: rest)).countP Piece.isReference = (scan rest).countP Piece.isReference + 1 := by
  obtain ⟨p, spelled, after, hp, heq⟩ := h
  obtain ⟨body, rfl, hbody⟩ := hp.exists_body
  have hcons : c = '[' ∧ rest = body ++ after := List.cons.inj heq
  obtain ⟨rfl, rfl⟩ := hcons
  have hrest : scan (body ++ after) = body.map .char ++ scan after := by
    refine Expression.scan_append fun before inside hsplit hne ↦ ?_
    obtain ⟨d, inside, rfl⟩ := List.exists_cons_of_ne_nil hne
    refine not_opensReference_cons fun hd ↦ hbody ?_
    rw [hsplit, hd]
    exact List.mem_append_right _ List.mem_cons_self
  have hscan : scan ('[' :: (body ++ after)) = .reference p :: scan after := scan_of_spelled hp
  rw [hscan, hrest, List.countP_append, countP_map_char, Nat.zero_add]
  exact List.countP_cons_of_pos rfl

theorem countP_scan_le (cs rest : List Char) :
    (scan rest).countP Piece.isReference ≤ (scan (cs ++ rest)).countP Piece.isReference := by
  induction cs with
  | nil => exact Nat.le_refl _
  | cons c cs ih =>
    rw [List.cons_append]
    by_cases h : OpensReference (c :: (cs ++ rest))
    · rw [h.countP_scan]
      exact Nat.le_succ_of_le ih
    · rw [scan_cons h, List.countP_cons_of_neg Bool.false_ne_true]
      exact ih

theorem countP_scan_lt {before inside : List Char} (hne : inside ≠ [])
    (h : OpensReference (inside ++ rest)) : (scan rest).countP Piece.isReference <
      (scan (before ++ inside ++ rest)).countP Piece.isReference := by
  obtain ⟨c, inside, rfl⟩ := List.exists_cons_of_ne_nil hne
  have h : OpensReference (c :: (inside ++ rest)) := h
  calc (scan rest).countP Piece.isReference
      ≤ (scan (inside ++ rest)).countP Piece.isReference := countP_scan_le inside rest
    _ < (scan (c :: (inside ++ rest))).countP Piece.isReference := by
      rw [h.countP_scan]
      exact Nat.lt_succ_self _
    _ ≤ (scan (before ++ (c :: inside ++ rest))).countP Piece.isReference := countP_scan_le before _
    _ = (scan (before ++ c :: inside ++ rest)).countP Piece.isReference := by rw [List.append_assoc]

/-! ## Pieces -/

theorem length_numberReferences (pieces : List Piece) :
    (numberReferences index pieces).length = pieces.countP Piece.isReference := by
  induction pieces generalizing index with
  | nil => rfl
  | cons piece pieces ih =>
    cases piece with
    | char c => rw [numberReferences, ih, List.countP_cons_of_neg Bool.false_ne_true]
    | reference p => rw [numberReferences, List.length_cons, ih, List.countP_cons_of_pos rfl]

theorem substitute_append (l m : List Piece) : substitute index (l ++ m) =
    substitute index l ++ substitute (index + l.countP Piece.isReference) m := by
  induction l generalizing index with
  | nil => rfl
  | cons piece l ih =>
    cases piece with
    | char c =>
      rw [List.cons_append, substitute, substitute, ih, List.countP_cons_of_neg Bool.false_ne_true]
      rfl
    | reference p =>
      rw [List.cons_append, substitute, substitute, ih, List.countP_cons_of_pos rfl,
        List.append_assoc, Nat.add_right_comm, Nat.add_assoc]

theorem substitute_map_char (cs : List Char) : substitute index (cs.map .char) = cs := by
  induction cs with
  | nil => rfl
  | cons c cs ih => rw [List.map_cons, substitute, ih]

theorem filter_map_char (cs : List Char) : (cs.map Piece.char).filter Piece.isReference = [] := by
  simp [Piece.isReference]

theorem numberReferences_filter (pieces : List Piece) :
    numberReferences index (pieces.filter Piece.isReference) = numberReferences index pieces := by
  induction pieces generalizing index with
  | nil => rfl
  | cons piece pieces ih =>
    cases piece with
    | char c => rw [List.filter_cons_of_neg Bool.false_ne_true, ih, numberReferences]
    | reference p => rw [List.filter_cons_of_pos rfl, numberReferences, ih, numberReferences]

/-! ## The rewriting -/

theorem not_isMark_of_mem_variableName (hc : c ∈ (variableName index).toList) :
    isMark c = false := by
  rw [variableName, String.toList_append, List.mem_append] at hc
  rcases hc with hc | hc
  · have hprefix : "__ref_".toList.all (fun c ↦ !isMark c) = true := rfl
    simpa using List.all_eq_true.1 hprefix c hc
  · rw [Nat.toString_eq_ofList_toDigits, String.toList_ofList] at hc
    have hdigit := Decimal.isDigit_of_mem hc
    refine Bool.eq_false_iff.2 fun hmark ↦ ?_
    rcases Bool.or_eq_true_iff.1 hmark with h | h
    · rw [of_decide_eq_true h] at hdigit
      exact absurd hdigit (by decide)
    · rw [of_decide_eq_true h] at hdigit
      exact absurd hdigit (by decide)

theorem IsCode.not_isMark (h : IsCode cs rest) (index : Nat) :
    ∀ c ∈ substitute index (scan cs), isMark c = false := by
  induction h generalizing index with
  | nil => simp [scan, substitute]
  | @char c cs rest hmark hnone h ih =>
    rw [scan_cons fun hopens ↦ hnone (hopens.append rest), substitute]
    exact List.forall_mem_cons.2 ⟨hmark, ih index⟩
  | reference hp h ih =>
    rw [scan_of_spelled hp, substitute]
    exact List.forall_mem_append.2 ⟨fun c hc ↦ not_isMark_of_mem_variableName hc, ih (index + 1)⟩

theorem rewriteFrom_code_append (hcs : ∀ c ∈ cs, isMark c = false) (hmark : isMark mark = true) :
    rewriteFrom .code (cs ++ mark :: rest) = rewriteFrom .code cs ++
      rewriteFrom .code (mark :: rest) := by
  have hnext : ∀ (l : List Char) (d : Char) (tail : List Char), isMark d = false →
      l ++ mark :: rest = d :: tail → ∃ tail', l = d :: tail' := by
    intro l d tail hd heq
    cases l with
    | nil =>
      obtain ⟨rfl, -⟩ := List.cons.inj heq
      cases hd.symm.trans hmark
    | cons e l =>
      obtain ⟨rfl, -⟩ := List.cons.inj heq
      exact ⟨l, rfl⟩
  suffices hall : ∀ place, place = .code → rewriteFrom place (cs ++ mark :: rest) =
      rewriteFrom place cs ++ rewriteFrom .code (mark :: rest) from hall .code rfl
  intro place hplace
  fun_induction rewriteFrom place cs with
  | case1 => rw [hplace, List.nil_append, List.nil_append]
  | case2 => cases hplace
  | case3 => cases hplace
  | case4 cs ih =>
    have hcs := (List.forall_mem_cons.1 (List.forall_mem_cons.1 hcs).2).2
    rw [List.cons_append, List.cons_append, rewriteFrom, ih hcs rfl, List.append_assoc]
  | case5 cs ih =>
    have hcs := (List.forall_mem_cons.1 (List.forall_mem_cons.1 hcs).2).2
    rw [List.cons_append, List.cons_append, rewriteFrom, ih hcs rfl, List.append_assoc]
  | case6 cs ih =>
    have hcs := (List.forall_mem_cons.1 (List.forall_mem_cons.1 hcs).2).2
    rw [List.cons_append, List.cons_append, rewriteFrom, ih hcs rfl, List.cons_append,
      List.cons_append]
  | case7 cs hequal ih =>
    rw [List.cons_append, rewriteFrom, ih (List.forall_mem_cons.1 hcs).2 rfl, List.append_assoc]
    intro tail htail
    obtain ⟨tail', rfl⟩ := hnext cs '=' tail (by decide) htail
    exact hequal tail' rfl
  | case8 c cs hand hor hequal hnot ih =>
    obtain ⟨hc, hcs⟩ := List.forall_mem_cons.1 hcs
    have hplace : (if isMark c = true then Place.quoted c else Place.code) = .code :=
      if_neg (Bool.eq_false_iff.1 hc)
    rw [List.cons_append, rewriteFrom, ih hcs hplace, List.cons_append]
    · intro tail hc htail
      obtain ⟨tail', rfl⟩ := hnext cs '&' tail (by decide) htail
      exact hand tail' hc rfl
    · intro tail hc htail
      obtain ⟨tail', rfl⟩ := hnext cs '|' tail (by decide) htail
      exact hor tail' hc rfl
    · intro tail hc htail
      exact hnot hc
    · exact hnot

theorem rewriteFrom_quoted (hescape : mark ≠ '\\') (hbody : Quotable mark body) :
    rewriteFrom (.quoted mark) (body ++ mark :: rest) = body ++ mark :: rewriteFrom .code rest := by
  induction hbody with
  | nil => rw [List.nil_append, List.nil_append, rewriteFrom, if_neg hescape, if_pos rfl]
  | plain hescape' hmark h ih =>
    rw [List.cons_append, rewriteFrom, if_neg hescape', if_neg hmark, ih, List.cons_append]
  | escaped c h ih =>
    rw [List.cons_append, List.cons_append, rewriteFrom, if_pos rfl, rewriteFrom, ih,
      List.cons_append, List.cons_append]

theorem IsLiteral.rewriteFrom_append (h : IsLiteral literal) (rest : List Char) :
    rewriteFrom .code (literal ++ rest) = literal ++ rewriteFrom .code rest := by
  cases h with
  | @quoted mark body hmark hbody =>
    have hescape : mark ≠ '\\' := by
      rintro rfl
      cases hmark
    have hopen : rewriteFrom .code (mark :: (body ++ mark :: rest)) =
        mark :: rewriteFrom (.quoted mark) (body ++ mark :: rest) := by
      rcases Bool.or_eq_true_iff.1 hmark with h | h
      · rw [of_decide_eq_true h]
        rfl
      · rw [of_decide_eq_true h]
        rfl
    rw [List.cons_append, List.append_assoc, List.singleton_append, hopen,
      rewriteFrom_quoted hescape hbody, List.cons_append, List.append_assoc, List.singleton_append]

/-! ## What is parsed -/

/-- The code and the quoted texts of a text one by one, the references of the code apart. -/
def layoutPieces (stretches : List Stretch) (last : List Char) : List Piece :=
  stretches.flatMap (fun s ↦ scan s.code ++ s.literal.map .char) ++ scan last

variable {stretches : List Stretch}

theorem layoutPieces_cons (s : Stretch) (stretches : List Stretch) (last : List Char) :
    layoutPieces (s :: stretches) last =
      scan s.code ++ (s.literal.map .char ++ layoutPieces stretches last) := by
  rw [layoutPieces, List.flatMap_cons, List.append_assoc, List.append_assoc, layoutPieces]

/-- If no reference begins inside a quoted text, the scan goes over the code alone. -/
theorem IsLaidOut.scan_eq (h : IsLaidOut cs stretches last) (hnone : ¬BeginsQuoted stretches last) :
    scan cs = layoutPieces stretches last := by
  induction h with
  | code => rfl
  | unclosed => rfl
  | @literal code literal rest last stretches hcode hliteral hrest ih =>
    rw [BeginsQuoted, not_or, ← hrest.text] at hnone
    rw [layoutPieces_cons, hcode.scan_append, Expression.scan_append, ih hnone.2]
    intro before inside hsplit hne hopens
    exact hnone.1 ⟨before, inside, hsplit, hne, hopens⟩

theorem numberReferences_layoutPieces (stretches : List Stretch) (last : List Char) :
    numberReferences 0 (layoutPieces stretches last) = codeReferences stretches last := by
  have hfilter : (layoutPieces stretches last).filter Piece.isReference =
      (stretches.flatMap (fun s ↦ scan s.code) ++ scan last).filter Piece.isReference := by
    induction stretches with
    | nil => rfl
    | cons s stretches ih =>
      rw [layoutPieces_cons, List.flatMap_cons, List.append_assoc, List.filter_append,
        List.filter_append, filter_map_char, ih, List.nil_append, ← List.filter_append]
  rw [codeReferences, ← numberReferences_filter, hfilter, numberReferences_filter]

theorem countP_layoutPieces (stretches : List Stretch) (last : List Char) :
    (layoutPieces stretches last).countP Piece.isReference =
      (codeReferences stretches last).length := by
  rw [← numberReferences_layoutPieces, length_numberReferences]

theorem IsLaidOut.length_le (h : IsLaidOut cs stretches last) :
    (codeReferences stretches last).length ≤ (scan cs).countP Piece.isReference := by
  rw [← countP_layoutPieces]
  induction h with
  | code => exact Nat.le_refl _
  | unclosed => exact Nat.le_refl _
  | @literal code literal rest last stretches hcode hliteral hrest ih =>
    rw [layoutPieces_cons, hcode.scan_append, List.countP_append, List.countP_append,
      List.countP_append, countP_map_char, Nat.zero_add]
    exact Nat.add_le_add_left (Nat.le_trans ih (countP_scan_le literal rest)) _

theorem IsLaidOut.length_lt (h : IsLaidOut cs stretches last)
    (hbegins : BeginsQuoted stretches last) :
    (codeReferences stretches last).length < (scan cs).countP Piece.isReference := by
  induction h with
  | code => cases hbegins
  | unclosed => cases hbegins
  | @literal code literal rest last stretches hcode hliteral hrest ih =>
    have hle := hrest.length_le
    rw [← countP_layoutPieces] at hle ih ⊢
    rw [layoutPieces_cons, hcode.scan_append, List.countP_append, List.countP_append,
      List.countP_append, countP_map_char, Nat.zero_add]
    refine Nat.add_lt_add_left ?_ _
    rcases hbegins with ⟨before, inside, rfl, hne, hopens⟩ | hbegins
    · rw [← hrest.text] at hopens
      exact Nat.lt_of_le_of_lt hle (countP_scan_lt hne hopens)
    · exact Nat.lt_of_lt_of_le (ih hbegins) (countP_scan_le literal rest)

theorem IsLaidOut.rewriteFrom_eq (h : IsLaidOut cs stretches last) (index : Nat) :
    rewriteFrom .code (substitute index (layoutPieces stretches last)) =
      rewriteStretches index stretches last := by
  induction h generalizing index with
  | code => rfl
  | unclosed => rfl
  | @literal code literal rest last stretches hcode hliteral hrest ih =>
    rw [layoutPieces_cons, substitute_append, substitute_append,
      substitute_map_char, countP_map_char, Nat.add_zero, rewriteStretches, ← ih,
      ← hliteral.rewriteFrom_append]
    cases hliteral with
    | quoted hmark hbody => exact rewriteFrom_code_append (hcode.not_isMark index) hmark

/-- **Parsing leaves quoted texts alone exactly if no reference begins inside one.** A text that
holds more than blanks has a layout. It is parsed, and in what comes out each quoted text stands in
its place, character for character, with the code around it parsed as if it stood alone and no
references but those of the code, if and only if no reference begins inside a quoted text. -/
theorem literals_kept_iff (text : String) (h : Text.isBlankText text = false) :
    (∃ stretches last, IsLaidOut text.toList stretches last) ∧
    ∀ stretches last, IsLaidOut text.toList stretches last →
      ∃ source, parseSource text = .ok source ∧
        (source.rewritten.toList = rewriteStretches 0 stretches last ∧ source.references =
        codeReferences stretches last ↔ ¬BeginsQuoted stretches last) := by
  refine ⟨exists_isLaidOut _, fun stretches last hlaid ↦ ?_⟩
  refine ⟨_, by rw [parseSource, Source.parse?, h, if_neg Bool.false_ne_true], ?_⟩
  dsimp only
  rw [rewriteOperators, String.toList_ofList, String.toList_ofList]
  constructor
  · rintro ⟨-, href⟩ hbegins
    have hlt := hlaid.length_lt hbegins
    rw [← href, length_numberReferences] at hlt
    exact Nat.lt_irrefl _ hlt
  · intro hnone
    rw [hlaid.scan_eq hnone, hlaid.rewriteFrom_eq, numberReferences_layoutPieces]
    exact ⟨rfl, rfl⟩

/-- A mark in the name of a step, a reference in quotes, and a quoted text with a mark and an
operator. -/
def quotingText : String := "[\"a\".output.x] == '[b.output.y]' && \"\\\"&&\""

/-- The quoted texts of `quotingText`. -/
def quotingStretches : List Stretch :=
  [⟨"[\"a\".output.x] == ".toList, "'[b.output.y]'".toList⟩, ⟨" && ".toList, "\"\\\"&&\"".toList⟩]

theorem isLaidOut_quotingText : IsLaidOut quotingText.toList quotingStretches [] := by
  have hspelled : DataPath.Spelled ⟨"\"a\"", .output, ["x"]⟩ "[\"a\".output.x]".toList := by
    refine DataPath.Writable.spelled (p := ⟨"\"a\"", .output, ["x"]⟩) ⟨?_, by decide, by decide⟩
    simp [isNameChar, Text.isBlank]
  have hfirst : IsCode "[\"a\".output.x] == ".toList
      ("'[b.output.y]'".toList ++ " && \"\\\"&&\"".toList) :=
    @IsCode.reference _ "[\"a\".output.x]".toList " == ".toList _ hspelled
      (isCode_of_all rfl _)
  have hsecond : IsCode " && ".toList "\"\\\"&&\"".toList := isCode_of_all rfl _
  have hquoted : IsLiteral "'[b.output.y]'".toList :=
    @IsLiteral.quoted '\'' "[b.output.y]".toList rfl (quotable_of_all rfl)
  have hescaped : IsLiteral "\"\\\"&&\"".toList :=
    @IsLiteral.quoted '"' "\\\"&&".toList rfl (.escaped '"' (quotable_of_all rfl))
  exact .literal hfirst hquoted (.literal hsecond hescaped (.code (.nil [])))

theorem literals_of_quotingText :
    Text.isBlankText quotingText = false ∧ BeginsQuoted quotingStretches [] ∧
    ∃ source, parseSource quotingText = .ok source ∧
      ¬(source.rewritten.toList = rewriteStretches 0 quotingStretches [] ∧
        source.references = codeReferences quotingStretches []) := by
  have hblank : Text.isBlankText quotingText = false := by decide
  have hspelled : DataPath.Spelled ⟨"b", .output, ["y"]⟩ "[b.output.y]".toList := by
    refine DataPath.Writable.spelled (p := ⟨"b", .output, ["y"]⟩) ⟨?_, by decide, by decide⟩
    simp [isNameChar, Text.isBlank]
  have hbegins : BeginsQuoted quotingStretches [] :=
    .inl ⟨['\''], "[b.output.y]'".toList, rfl, by decide, _, _, _, hspelled, rfl⟩
  obtain ⟨source, hparse, hkept⟩ :=
    (literals_kept_iff quotingText hblank).2 _ _ isLaidOut_quotingText
  exact ⟨hblank, hbegins, source, hparse, fun h ↦ hkept.1 h hbegins⟩

end Expression

end Orchestration
