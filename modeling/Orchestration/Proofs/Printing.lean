import Orchestration.Proofs.Digits
import Orchestration.Proofs.Texts

/-!
# What is printed is read back

The reader takes one character after another. A text is read as a value if the reader ends up where
it would be with the value put into its place (`Json.Reader.Reads`). A number has no end of its own,
so this is meant up to what the reader can tell before it sees what follows (`Json.Reader.Ends`).
That the text of a document is read as the document (`Json.Reader.reads_text`) goes along the
document, with a lemma for the items of a list and one for the members of an object.

Two things can go wrong. Integers must have 64 bits, and only so many lists and objects may be open
at a time (`Json.Bounded`). And the number that is read is not always the nearest one to what is
written: of a floating-point number it has to be said that it is read as it is written
(`Json.Reader.IsReadAsWritten`). Otherwise all documents are read back (`Json.parse?_text`).
-/

namespace Orchestration

namespace Json

mutual

/-- The floating numbers in a document. -/
def floats : Json → List Float
  | .null | .bool _ | .int _ | .str _ => []
  | .float x => [x]
  | .arr items => floatsItems items
  | .obj members => floatsMembers members

/-- The floating numbers in the items of a list. -/
def floatsItems : List Json → List Float
  | [] => []
  | item :: rest => item.floats ++ floatsItems rest

/-- The floating numbers in the members of an object. -/
def floatsMembers : List (String × Json) → List Float
  | [] => []
  | (_, value) :: rest => value.floats ++ floatsMembers rest

end

mutual

/-- A document whose integers have 64 bits, with room for so many lists and objects to be open at a
time. -/
def Bounded (room : Nat) : Json → Prop
  | .null | .bool _ | .float _ | .str _ => True
  | .int n => IsInteger n
  | .arr items => 0 < room ∧ BoundedItems (room - 1) items
  | .obj members => 0 < room ∧ BoundedMembers (room - 1) members

/-- `Bounded` for every item. -/
def BoundedItems (room : Nat) : List Json → Prop
  | [] => True
  | item :: rest => Bounded room item ∧ BoundedItems room rest

/-- `Bounded` for every member. -/
def BoundedMembers (room : Nat) : List (String × Json) → Prop
  | [] => True
  | (_, value) :: rest => Bounded room value ∧ BoundedMembers room rest

end

theorem boundedItems_iff {room : Nat} {items : List Json} :
    BoundedItems room items ↔ ∀ j ∈ items, j.Bounded room := by
  induction items with
  | nil => simp [BoundedItems]
  | cons j rest ih => simp [BoundedItems, ih]

theorem boundedMembers_iff {room : Nat} {members : List (String × Json)} :
    BoundedMembers room members ↔ ∀ e ∈ members, e.2.Bounded room := by
  induction members with
  | nil => simp [BoundedMembers]
  | cons e rest ih => simp [BoundedMembers, ih]

/-! ## Reading -/

namespace Reader

variable {r : Reader} {text : List Char}

/-- A text is read up to its end, as far as the reader can tell before it sees what follows: the
number that the text may end with goes on with another digit. -/
structure Ends (r s : Reader) : Prop where
  step : ∀ c, isNumberChar c = false → r.step c = s.step c
  finish : r.finish = s.finish

theorem Ends.refl (r : Reader) : Ends r r := ⟨fun _ _ ↦ rfl, rfl⟩

/-- A value may come next. -/
structure Awaits (r : Reader) : Prop where
  lexeme : r.lexeme = .none
  place : r.place = .value ∨ r.place = .valueOrClose

/-- A text is read as a value. -/
def Reads (r : Reader) (cs : List Char) (value : Json) : Prop :=
  ∃ s, cs.foldlM step r = some s ∧ s.Ends (r.deliver value)

theorem deliver_congr {r s : Reader} (hs : r.stack = s.stack)
    (hr : r.result = s.result) (value : Json) : r.deliver value = s.deliver value := by
  unfold deliver
  rw [← hs]
  cases r with
  | mk lexeme place stack result =>
    cases s with
    | mk lexeme' place' stack' result' =>
      obtain rfl : stack = stack' := hs
      obtain rfl : result = result' := hr
      cases stack with
      | nil => rfl
      | cons f rest => cases f <;> rfl

theorem step_of_none (hl : r.lexeme = .none) (c : Char) : r.step c = r.between c := by
  unfold step
  rw [hl]

theorem step_of_awaits (h : r.Awaits) {c : Char} (hblank : isBlank c = false) (hclose : c ≠ ']') :
    r.step c = r.beginValue c := by
  rw [step_of_none h.lexeme]
  unfold between
  rw [if_neg (by simp [hblank])]
  rcases h.place with hp | hp
  · rw [hp]
  · rw [hp]
    exact if_neg hclose

/-! ### Texts -/

theorem controlEscape : ∀ n < 32, ("\\u" ++ "".pushn '0' (4 - (Nat.toDigits 16 n).length) ++
    String.ofList (Nat.toDigits 16 n)).toList =
      ['\\', 'u', '0', '0', Nat.digitChar (n / 16), Nat.digitChar (n % 16)] := by
  decide

theorem foldlM_escapeChar (c : Char) :
    (escapeChar c).toList.foldlM step { r with lexeme := .text text } =
      some { r with lexeme := .text (c :: text) } := by
  unfold escapeChar
  split
  · rfl
  · rfl
  · rfl
  · rfl
  · rfl
  · rfl
  · rfl
  · next hquote hbackslash _ _ _ _ _ =>
    split
    · next hc =>
      have hlow : c.toNat / 16 * 16 + c.toNat % 16 = c.toNat := by omega
      have htrail : isTrail c.toNat = false := by
        simp [isTrail]
        omega
      have hlead : isLead c.toNat = false := by
        simp [isLead]
        omega
      rw [controlEscape _ hc]
      -- Two of the four digits are zeros.
      show (step { r with lexeme := .hex text none 2 0 } (Nat.digitChar (c.toNat / 16)) >>= fun s ↦
        step s (Nat.digitChar (c.toNat % 16)) >>= some) = _
      simp [step, hexDigit?_digitChar _ (show c.toNat / 16 < 16 by omega),
        hexDigit?_digitChar _ (show c.toNat % 16 < 16 by omega), hlow, deliverCode, htrail, hlead,
        Char.ofNat_toNat]
    · next hc =>
      have hstep : step { r with lexeme := .text text } c =
          some { r with lexeme := .text (c :: text) } := by
        simp only [step]
        rw [if_neg hquote, if_neg hbackslash, if_neg hc]
      rw [Char.toString_eq_singleton, String.toList_singleton, List.foldlM_cons, hstep]
      rfl

theorem foldlM_escaped (cs : List Char) :
    (cs.flatMap fun c ↦ (escapeChar c).toList).foldlM step { r with lexeme := .text text } =
      some { r with lexeme := .text (cs.reverse ++ text) } := by
  induction cs generalizing text with
  | nil => rfl
  | cons c rest ih =>
    rw [List.flatMap_cons, List.foldlM_append, foldlM_escapeChar]
    refine ih.trans ?_
    rw [List.reverse_cons, List.append_assoc]
    rfl

theorem toList_quote (s : String) :
    (quote s).toList = '"' :: (s.toList.flatMap fun c ↦ (escapeChar c).toList) ++ ['"'] := by
  have hfold (cs : List Char) (out : String) :
      (cs.foldl (fun out c ↦ out ++ escapeChar c) out).toList = out.toList ++ cs.flatMap fun c ↦
      (escapeChar c).toList := by
    induction cs generalizing out with
    | nil => simp
    | cons c rest ih =>
      rw [List.foldl_cons, ih, List.flatMap_cons, String.toList_append, List.append_assoc]
  rw [quote, String.toList_append, hfold]
  rfl

theorem foldlM_quote (s : String) (h : r.step '"' = some { r with lexeme := .text [] }) :
    (quote s).toList.foldlM step r =
      some (deliverText { r with lexeme := .text s.toList.reverse } s.toList.reverse) := by
  rw [toList_quote, List.cons_append, List.foldlM_cons, h]
  show (_ : List Char).foldlM step _ = _
  rw [List.foldlM_append, foldlM_escaped, List.append_nil]
  rfl

theorem reads_str (s : String) (h : r.Awaits) : r.Reads (quote s).toList (.str s) := by
  have hopen : r.step '"' = some { r with lexeme := .text [] } :=
    step_of_awaits h (by decide) (by decide)
  refine ⟨_, foldlM_quote s hopen, ?_⟩
  have hdeliver : deliverText { r with lexeme := .text s.toList.reverse } s.toList.reverse =
      r.deliver (.str s) := by
    unfold deliverText
    rw [List.reverse_reverse, String.ofList_toList]
    rcases h.place with hp | hp <;> rw [hp] <;> exact deliver_congr rfl rfl _
  exact hdeliver ▸ .refl _

theorem foldlM_name (s : String) {done : List (String × Json)} {name : String} {stack : List Frame}
    (hl : r.lexeme = .none) (hp : r.place = .name ∨ r.place = .nameOrClose)
    (hs : r.stack = .members done name :: stack) :
    (quote s).toList.foldlM step r =
      some { r with lexeme := .none, place := .colon, stack := .members done s :: stack } := by
  have hopen : r.step '"' = some { r with lexeme := .text [] } := by
    rw [step_of_none hl]
    unfold between
    rcases hp with hp | hp <;> rw [hp] <;> rfl
  rw [foldlM_quote s hopen]
  unfold deliverText
  rw [List.reverse_reverse, String.ofList_toList, hs]
  rcases hp with hp | hp <;> rw [hp]

/-! ### Words and numbers -/

theorem foldlM_word (c : Char) (left : List Char) (value : Json) :
    (c :: left).foldlM step { r with lexeme := .word (c :: left) value } =
      some (r.deliver value) := by
  induction left generalizing c with
  | nil =>
    have hstep : step { r with lexeme := .word [c] value } c =
        some (deliver { r with lexeme := .word [c] value } value) := if_pos rfl
    rw [List.foldlM_cons, hstep]
    exact congrArg some (deliver_congr rfl rfl value)
  | cons d rest ih =>
    have hstep : step { r with lexeme := .word (c :: d :: rest) value } c =
        some { r with lexeme := .word (d :: rest) value } := if_pos rfl
    rw [List.foldlM_cons, hstep]
    exact ih d

theorem reads_word {c d : Char} {left : List Char} {value : Json} (h : r.Awaits)
    (hblank : isBlank c = false) (hclose : c ≠ ']')
    (hbegin : r.beginValue c = some { r with lexeme := .word (d :: left) value }) :
    r.Reads (c :: d :: left) value := by
  refine ⟨r.deliver value, ?_, .refl _⟩
  rw [List.foldlM_cons, step_of_awaits h hblank hclose, hbegin]
  exact foldlM_word d left value

theorem foldlM_number (cs : List Char) (h : ∀ c ∈ cs, isNumberChar c = true) :
    cs.foldlM step { r with lexeme := .number text } =
      some { r with lexeme := .number (cs.reverse ++ text) } := by
  induction cs generalizing text with
  | nil => rfl
  | cons c rest ih =>
    have hstep : step { r with lexeme := .number text } c =
        some { r with lexeme := .number (c :: text) } := if_pos (h c List.mem_cons_self)
    rw [List.foldlM_cons, hstep]
    refine (ih fun d hd ↦ h d (List.mem_cons_of_mem _ hd)).trans ?_
    rw [List.reverse_cons, List.append_assoc]
    rfl

theorem beginValue_of_first {c : Char} (hc : c = '-' ∨ c.isDigit = true) :
    r.beginValue c = some { r with lexeme := .number [c] } := by
  have hother : ∀ d ∈ ['"', '[', '\x7b', 't', 'f', 'n'], ¬(d = '-' ∨ d.isDigit = true) := by simp
  have hne : ∀ d ∈ ['"', '[', '\x7b', 't', 'f', 'n'], c ≠ d := fun d hd heq ↦ hother d hd (heq ▸ hc)
  unfold beginValue
  rw [if_neg (hne _ (by decide)), if_neg (hne _ (by decide)), if_neg (hne _ (by decide)),
    if_neg (hne _ (by decide)), if_neg (hne _ (by decide)), if_neg (hne _ (by decide)), if_pos hc]

theorem step_deliver (value : Json) (c : Char) :
    (r.deliver value).step c = (r.deliver value).between c := by
  refine step_of_none ?_ c
  unfold deliver
  split <;> rfl

theorem finish_number {value : Json} (hvalue : readNumber? text.reverse = some value) :
    finish { r with lexeme := .number text } = (r.deliver value).finish := by
  unfold deliver
  split
  · next hs => simp only [finish, hs, hvalue]
  · next hs => simp only [finish, hs]
  · next hs => simp only [finish, hs]

theorem reads_numeral {cs : List Char} {value : Json} (hn : IsNumeral cs value) (h : r.Awaits) :
    r.Reads cs value := by
  obtain ⟨c, hc, hfirst⟩ := hn.first
  obtain ⟨rest, rfl⟩ : ∃ rest, cs = c :: rest := by
    cases cs with
    | nil => cases hc
    | cons d rest => exact ⟨rest, by rw [Option.some.inj hc]⟩
  have hbegin : r.step c = some { r with lexeme := .number [c] } := by
    have hother : ∀ d ∈ [' ', '\t', '\n', '\r', ']'], ¬(d = '-' ∨ d.isDigit = true) := by simp
    have hne : ∀ d ∈ [' ', '\t', '\n', '\r', ']'], c ≠ d :=
        fun d hd heq ↦ hother d hd (heq ▸ hfirst)
    have hblank : isBlank c = false := by
      simp [isBlank, hne ' ' (by decide), hne '\t' (by decide), hne '\n' (by decide),
        hne '\r' (by decide)]
    rw [step_of_awaits h hblank (hne _ (by decide)), beginValue_of_first hfirst]
  have hvalue : readNumber? (rest.reverse ++ [c]).reverse = some value := by
    rw [← List.reverse_cons, List.reverse_reverse, hn.value]
  refine ⟨{ r with lexeme := .number (rest.reverse ++ [c]) }, ?_, fun d hd ↦ ?_,
    finish_number hvalue⟩
  · rw [List.foldlM_cons, hbegin]
    exact foldlM_number rest fun d hd ↦ hn.chars d (List.mem_cons_of_mem _ hd)
  · -- The number is complete when the next character is none of a number.
    have hsame : deliver { r with lexeme := .number (rest.reverse ++ [c]) } value =
        r.deliver value :=
      deliver_congr rfl rfl value
    rw [step_deliver, ← hsame]
    simp only [step, hd, hvalue]
    rfl

/-! ### Lists and objects -/

theorem deliver_items {done : List Json} {stack : List Frame} (hs : r.stack = .items done :: stack)
    (value : Json) :
    r.deliver value =
      { r with
        lexeme := .none, place := .commaOrClose, stack := .items (value :: done) :: stack } := by
  unfold deliver
  rw [hs]

theorem deliver_members {done : List (String × Json)} {name : String} {stack : List Frame}
    (hs : r.stack = .members done name :: stack) (value : Json) : r.deliver value =
      { r with
        lexeme := .none
        place := .commaOrClose
        stack := .members ((name, value) :: done) name :: stack } := by
  unfold deliver
  rw [hs]

theorem step_closeBracket {done : List Json} {stack : List Frame} (hl : r.lexeme = .none)
    (hp : r.place = .valueOrClose ∨ r.place = .commaOrClose) (hs : r.stack = .items done :: stack) :
    r.step ']' = some (deliver { r with stack } (.arr done.reverse)) := by
  have hclose : r.close = some (deliver { r with stack } (.arr done.reverse)) := by
    unfold close
    rw [hs]
  rw [step_of_none hl, ← hclose]
  unfold between
  rcases hp with hp | hp
  · rw [hp]
    rfl
  · rw [hp, hs]
    rfl

theorem step_closeBrace {done : List (String × Json)} {name : String} {stack : List Frame}
    (hl : r.lexeme = .none) (hp : r.place = .nameOrClose ∨ r.place = .commaOrClose)
    (hs : r.stack = .members done name :: stack) :
    r.step '\x7d' = some (deliver { r with stack } (.obj done.reverse)) := by
  have hclose : r.close = some (deliver { r with stack } (.obj done.reverse)) := by
    unfold close
    rw [hs]
  rw [step_of_none hl, ← hclose]
  unfold between
  rcases hp with hp | hp
  · rw [hp]
    rfl
  · rw [hp, hs]
    rfl

theorem step_openBracket (h : r.Awaits) (hroom : r.stack.length < maxDepth) :
    r.step '[' = some { r with place := .valueOrClose, stack := .items [] :: r.stack } :=
  (step_of_awaits h (by decide) (by decide)).trans (if_pos hroom)

theorem step_openBrace (h : r.Awaits) (hroom : r.stack.length < maxDepth) :
    r.step '\x7b' = some { r with place := .nameOrClose, stack := .members [] "" :: r.stack } :=
  (step_of_awaits h (by decide) (by decide)).trans (if_pos hroom)

end Reader

theorem printItems_cons (item next : Json) (rest : List Json) :
    printItems "" (item :: next :: rest) = item.text ++ ("," ++ printItems "" (next :: rest)) := by
  have hstep : printItems "" (item :: next :: rest) = printItems (printOnto "" item ++ ",")
      (next :: rest) :=
    rfl
  rw [hstep, printItems_eq, text, String.append_assoc]

theorem printMembers_singleton (name : String) (value : Json) :
    printMembers "" [(name, value)] = quote name ++ (":" ++ value.text) := by
  rw [printMembers, printOnto_eq, String.empty_append, String.append_assoc]

theorem printMembers_cons (name : String) (value : Json) (next : String × Json)
    (rest : List (String × Json)) : printMembers "" ((name, value) :: next :: rest) =
      quote name ++ (":" ++ (value.text ++ ("," ++ printMembers "" (next :: rest)))) := by
  have hstep : printMembers "" ((name, value) :: next :: rest) =
      printMembers (printOnto ("" ++ quote name ++ ":") value ++ ",") (next :: rest) := rfl
  rw [hstep, printMembers_eq, printOnto_eq, String.empty_append]
  simp only [String.append_assoc]

theorem text_arr (items : List Json) : (arr items).text = "[" ++ (printItems "" items ++ "]") := by
  rw [text, printOnto, printItems_eq, String.empty_append, String.append_assoc]

theorem text_obj (members : List (String × Json)) :
    (obj members).text = "\x7b" ++ (printMembers "" members ++ "\x7d") := by
  rw [text, printOnto, printMembers_eq, String.empty_append, String.append_assoc]

namespace Reader

variable {r : Reader} {text : List Char}

theorem reads_member {name : String} {value : Json} {done : List (String × Json)} {last : String}
    {stack : List Frame} (hl : r.lexeme = .none) (hp : r.place = .name ∨ r.place = .nameOrClose)
    (hs : r.stack = .members done last :: stack)
    (hvalue :
      Reads { r with lexeme := .none, place := .value, stack := .members done name :: stack }
        value.text.toList value) :
    ∃ s, (quote name ++ (":" ++ value.text)).toList.foldlM step r = some s ∧ s.Ends { r with
      lexeme := .none
      place := .commaOrClose
      stack := .members ((name, value) :: done) name :: stack } := by
  rw [Reads, deliver_members rfl] at hvalue
  obtain ⟨s, hfold, hends⟩ := hvalue
  refine ⟨s, ?_, hends⟩
  rw [String.toList_append, List.foldlM_append, foldlM_name name hl hp hs, String.toList_append]
  exact hfold

/-- A number is read as it is written. -/
def IsReadAsWritten (x : Float) : Prop :=
  IsNumeral (Decimal.floatText .document x).toList (.float x)

mutual

theorem reads_text (room : Nat) (r : Reader) : (j : Json) → j.Bounded room →
    (∀ x ∈ j.floats, IsReadAsWritten x) → r.Awaits → r.stack.length + room ≤ maxDepth →
    r.Reads j.text.toList j
  | .null, _, _, h, _ => @reads_word r 'n' 'u' ['l', 'l'] .null h (by decide) (by decide) rfl
  | .bool true, _, _, h, _ =>
    @reads_word r 't' 'r' ['u', 'e'] (.bool true) h (by decide) (by decide) rfl
  | .bool false, _, _, h, _ =>
    @reads_word r 'f' 'a' ['l', 's', 'e'] (.bool false) h (by decide) (by decide) rfl
  | .int n, hb, _, h, _ => by
    rw [Json.text, printOnto, String.empty_append]
    exact reads_numeral (isNumeral_int hb) h
  | .float x, _, hf, h, _ => by
    rw [Json.text, printOnto, String.empty_append]
    exact reads_numeral (hf x (List.mem_singleton_self x)) h
  | .str s, _, _, h, _ => by
    rw [Json.text, printOnto, String.empty_append]
    exact reads_str s h
  | .arr [], hb, _, h, hroom => by
    have hopen := step_openBracket h (Nat.lt_of_lt_of_le (Nat.lt_add_of_pos_right hb.1) hroom)
    refine ⟨r.deliver (.arr []), ?_, .refl _⟩
    show (r.step '[' >>= fun s ↦ [']'].foldlM step s) = _
    rw [hopen]
    have hclose :=
      @step_closeBracket { r with place := .valueOrClose, stack := .items [] :: r.stack } [] r.stack
      h.lexeme (.inl rfl) rfl
    exact (bind_pure _).trans (hclose.trans (congrArg some (deliver_congr rfl rfl _)))
  | .arr (item :: rest), hb, hf, h, hroom => by
    have hopen := step_openBracket h (Nat.lt_of_lt_of_le (Nat.lt_add_of_pos_right hb.1) hroom)
    have hawaits : Awaits { r with place := .valueOrClose, stack := .items [] :: r.stack } :=
      ⟨h.lexeme, .inr rfl⟩
    obtain ⟨s, hfold, hends⟩ := reads_items (room - 1)
      { r with place := .valueOrClose, stack := .items [] :: r.stack } (item :: rest)
      (List.cons_ne_nil _ _) hb.2 hf hawaits [] r.stack rfl (by have := hb.1; omega)
    have hclose : s.step ']' = some (r.deliver (.arr (item :: rest))) := by
      rw [hends.step _ rfl, step_closeBracket rfl (.inr rfl) rfl, List.append_nil,
        List.reverse_reverse]
      exact congrArg some (deliver_congr rfl rfl _)
    refine ⟨r.deliver (.arr (item :: rest)), ?_, .refl _⟩
    rw [text_arr, String.toList_append, String.toList_append]
    show (r.step '[' >>= fun s ↦ List.foldlM step s _) = _
    rw [hopen]
    show List.foldlM step _ ((printItems "" (item :: rest)).toList ++ [']']) = _
    rw [List.foldlM_append, hfold]
    exact (bind_pure _).trans hclose
  | .obj [], hb, _, h, hroom => by
    have hopen := step_openBrace h (Nat.lt_of_lt_of_le (Nat.lt_add_of_pos_right hb.1) hroom)
    have hclose :=
      @step_closeBrace { r with place := .nameOrClose, stack := .members [] "" :: r.stack } []
      "" r.stack h.lexeme (.inl rfl) rfl
    refine ⟨r.deliver (.obj []), ?_, .refl _⟩
    show (r.step '\x7b' >>= fun s ↦ ['\x7d'].foldlM step s) = _
    rw [hopen]
    exact (bind_pure _).trans (hclose.trans (congrArg some (deliver_congr rfl rfl _)))
  | .obj (member :: rest), hb, hf, h, hroom => by
    have hopen := step_openBrace h (Nat.lt_of_lt_of_le (Nat.lt_add_of_pos_right hb.1) hroom)
    obtain ⟨s, name, hfold, hends⟩ := reads_members (room - 1)
      { r with place := .nameOrClose, stack := .members [] "" :: r.stack } (member :: rest)
      (List.cons_ne_nil _ _) hb.2 hf h.lexeme (.inr rfl) [] "" r.stack rfl (by have := hb.1; omega)
    have hclose : s.step '\x7d' = some (r.deliver (.obj (member :: rest))) := by
      rw [hends.step _ rfl, step_closeBrace rfl (.inr rfl) rfl, List.append_nil,
        List.reverse_reverse]
      exact congrArg some (deliver_congr rfl rfl _)
    refine ⟨r.deliver (.obj (member :: rest)), ?_, .refl _⟩
    rw [text_obj, String.toList_append, String.toList_append]
    show (r.step '\x7b' >>= fun s ↦ List.foldlM step s _) = _
    rw [hopen]
    show List.foldlM step _ ((printMembers "" (member :: rest)).toList ++ ['\x7d']) = _
    rw [List.foldlM_append, hfold]
    exact (bind_pure _).trans hclose

theorem reads_items (room : Nat) (r : Reader) : (items : List Json) → items ≠ [] →
    BoundedItems room items → (∀ x ∈ floatsItems items, IsReadAsWritten x) → r.Awaits →
    ∀ (done : List Json) (stack : List Frame), r.stack = .items done :: stack →
    stack.length + 1 + room ≤ maxDepth →
    ∃ s, (printItems "" items).toList.foldlM step r = some s ∧ s.Ends { r with
      lexeme := .none
      place := .commaOrClose
      stack := .items (items.reverse ++ done) :: stack }
  | [], hne, _, _, _, _, _, _, _ => absurd rfl hne
  | [item], _, hb, hf, h, done, stack, hs, hroom => by
    have hitem : r.Reads item.text.toList item :=
      reads_text room r item hb.1 (fun x hx ↦ hf x (List.mem_append_left _ hx)) h
        (by rw [hs, List.length_cons]; exact hroom)
    rw [Reads, deliver_items hs] at hitem
    exact hitem
  | item :: next :: rest, _, hb, hf, h, done, stack, hs, hroom => by
    have hitem : r.Reads item.text.toList item :=
      reads_text room r item hb.1 (fun x hx ↦ hf x (List.mem_append_left _ hx)) h
        (by rw [hs, List.length_cons]; exact hroom)
    rw [Reads, deliver_items hs] at hitem
    obtain ⟨s, hfold, hends⟩ := hitem
    have hrest := reads_items room
      { r with
        lexeme := .none, place := .value, stack := .items (item :: done) :: stack } (next :: rest)
      (List.cons_ne_nil _ _) hb.2 (fun x hx ↦ hf x (List.mem_append_right _ hx)) ⟨rfl, .inl rfl⟩
      (item :: done) stack rfl hroom
    rw [printItems_cons, String.toList_append, List.foldlM_append, hfold, String.toList_append,
      List.reverse_cons, List.append_assoc]
    obtain ⟨t, hfold', hends'⟩ := hrest
    have hcomma : s.step ',' = some
        { r with lexeme := .none, place := .value, stack := .items (item :: done) :: stack } :=
      (hends.step ',' rfl).trans rfl
    refine ⟨t, ?_, hends'⟩
    show (s.step ',' >>= fun s ↦ (printItems "" (next :: rest)).toList.foldlM step s) = some t
    rw [hcomma]
    exact hfold'

theorem reads_members (room : Nat) (r : Reader) : (members : List (String × Json)) → members ≠ [] →
    BoundedMembers room members → (∀ x ∈ floatsMembers members, IsReadAsWritten x) →
    r.lexeme = .none → r.place = .name ∨ r.place = .nameOrClose →
    ∀ (done : List (String × Json)) (last : String) (stack : List Frame),
    r.stack = .members done last :: stack → stack.length + 1 + room ≤ maxDepth →
    ∃ s name, (printMembers "" members).toList.foldlM step r = some s ∧ s.Ends { r with
      lexeme := .none
      place := .commaOrClose
      stack := .members (members.reverse ++ done) name :: stack }
  | [], hne, _, _, _, _, _, _, _, _, _ => absurd rfl hne
  | [(name, value)], _, hb, hf, hl, hp, done, last, stack, hs, hroom => by
    obtain ⟨s, hfold, hends⟩ := reads_member hl hp hs (reads_text room
      { r with lexeme := .none, place := .value, stack := .members done name :: stack } value hb.1
      (fun x hx ↦ hf x (List.mem_append_left _ hx)) ⟨rfl, .inl rfl⟩ hroom)
    exact ⟨s, name, printMembers_singleton name value ▸ hfold, hends⟩
  | (name, value) :: next :: rest, _, hb, hf, hl, hp, done, last, stack, hs, hroom => by
    obtain ⟨s, hfold, hends⟩ := reads_member hl hp hs (reads_text room
      { r with lexeme := .none, place := .value, stack := .members done name :: stack } value hb.1
      (fun x hx ↦ hf x (List.mem_append_left _ hx)) ⟨rfl, .inl rfl⟩ hroom)
    obtain ⟨t, name', hfold', hends'⟩ := reads_members room
      { r with
        lexeme := .none, place := .name, stack := .members ((name, value) :: done) name :: stack }
      (next :: rest) (List.cons_ne_nil _ _) hb.2 (fun x hx ↦ hf x (List.mem_append_right _ hx)) rfl
      (.inl rfl) ((name, value) :: done) name stack rfl hroom
    have hcomma : s.step ',' = some { r with
        lexeme := .none, place := .name, stack :=
          .members ((name, value) :: done) name :: stack } :=
      (hends.step ',' rfl).trans rfl
    have htext : (printMembers "" ((name, value) :: next :: rest)).toList =
        (quote name ++ (":" ++ value.text)).toList ++
          ',' :: (printMembers "" (next :: rest)).toList := by
      rw [printMembers_cons]
      simp only [String.toList_append, List.append_assoc]
      rfl
    rw [htext, List.foldlM_append, hfold, List.reverse_cons, List.append_assoc]
    refine ⟨t, name', ?_, hends'⟩
    show (s.step ',' >>= fun s ↦ (printMembers "" (next :: rest)).toList.foldlM step s) = some t
    rw [hcomma]
    exact hfold'

end

end Reader

/-- **What is printed is read back**, if integers have 64 bits, floating numbers are read as they
are written, and not too many lists and objects are open at a time. -/
theorem parse?_text {j : Json} (hb : j.Bounded Reader.maxDepth)
    (hf : ∀ x ∈ j.floats, Reader.IsReadAsWritten x) : parse? j.text = some j := by
  obtain ⟨s, hfold, hends⟩ := Reader.reads_text Reader.maxDepth {} j hb hf ⟨rfl, .inl rfl⟩
    (Nat.le_of_eq (Nat.zero_add _))
  rw [parse?, hfold]
  exact hends.finish

end Json

end Orchestration
