import Orchestration.Proofs.Formats
import Orchestration.Proofs.Printing

/-!
# What is read can be read again

Whatever the reader reads, it can read again from what is printed, as far as integers and depth go
(`Json.bounded_of_parse?`): it turns integers that are too large into floating-point numbers, and it
refuses to open too many lists and objects. One character keeps what has been read so far in these
bounds (`Json.Reader.Sound.step`), so a text does.

So does decoding. The data of a function's answer leave room for the object that they are put into,
and so the result that is made of them is read back from what is printed, if its floating-point
numbers are (`StepResult.decode_parse?_text`).
-/

namespace Orchestration

namespace Json

/-! ## Reading -/

namespace Reader

variable {r s : Reader} {text : List Char}

/-- What a frame holds has room for so many lists and objects to be open. -/
def SoundFrame (room : Nat) : Frame → Prop
  | .items done => ∀ j ∈ done, j.Bounded room
  | .members done _ => ∀ e ∈ done, e.2.Bounded room

/-- What the frames of a stack hold leaves room for the lists and objects that are open around
it. -/
def SoundStack : List Frame → Prop
  | [] => True
  | f :: rest =>
    rest.length < maxDepth ∧ SoundFrame (maxDepth - (rest.length + 1)) f ∧ SoundStack rest

/-- What a reader has read so far can be read again. -/
structure Sound (r : Reader) : Prop where
  stack : SoundStack r.stack
  result : ∀ j ∈ r.result, j.Bounded maxDepth
  word : ∀ left value, r.lexeme = .word left value → ∀ room, value.Bounded room

theorem Sound.deliver (h : r.Sound) {value : Json}
    (hv : value.Bounded (maxDepth - r.stack.length)) : (r.deliver value).Sound := by
  have hstack := h.stack
  unfold Reader.deliver
  split
  · next hs =>
    rw [hs] at hv
    exact ⟨hs ▸ trivial, fun j hj ↦ Option.some.inj hj ▸ hv, nofun⟩
  · next done rest hs =>
    rw [hs] at hv hstack
    exact ⟨⟨hstack.1, List.forall_mem_cons.2 ⟨hv, hstack.2.1⟩, hstack.2.2⟩, h.result, nofun⟩
  · next done name rest hs =>
    rw [hs] at hv hstack
    exact ⟨⟨hstack.1, List.forall_mem_cons.2 ⟨hv, hstack.2.1⟩, hstack.2.2⟩, h.result, nofun⟩

theorem Sound.withLexeme (h : r.Sound) {lexeme : Lexeme} (place : Place)
    (hl : ∀ left value, lexeme ≠ .word left value) : Sound { r with lexeme, place } :=
  ⟨h.stack, h.result, fun left value heq ↦ absurd heq (hl left value)⟩

theorem Sound.openFrame (h : r.Sound) {frame : Frame} {place : Place}
    (hf : ∀ room, SoundFrame room frame) (hs : r.openFrame frame place = some s) : s.Sound := by
  obtain ⟨hroom, hs⟩ := Option.ite_none_right_eq_some.1 hs
  obtain rfl := Option.some.inj hs
  exact ⟨⟨hroom, hf _, h.stack⟩, h.result, h.word⟩

theorem Sound.close (h : r.Sound) (hs : r.close = some s) : s.Sound := by
  have hstack := h.stack
  unfold Reader.close at hs
  split at hs
  · cases hs
  · next done rest hframe =>
    obtain rfl := Option.some.inj hs
    rw [hframe] at hstack
    obtain ⟨hroom, hdone, hrest⟩ := hstack
    refine Sound.deliver (r := { r with stack := rest }) ⟨hrest, h.result, h.word⟩
      ⟨Nat.sub_pos_of_lt hroom, boundedItems_iff.2 ?_⟩
    rw [Nat.sub_sub]
    exact fun j hj ↦ hdone j (List.mem_reverse.1 hj)
  · next done name rest hframe =>
    obtain rfl := Option.some.inj hs
    rw [hframe] at hstack
    obtain ⟨hroom, hdone, hrest⟩ := hstack
    refine Sound.deliver (r := { r with stack := rest }) ⟨hrest, h.result, h.word⟩
      ⟨Nat.sub_pos_of_lt hroom, boundedMembers_iff.2 ?_⟩
    rw [Nat.sub_sub]
    exact fun j hj ↦ hdone j (List.mem_reverse.1 hj)

theorem Sound.withWord (h : r.Sound) {left : List Char} {value : Json}
    (hv : ∀ room, value.Bounded room) : Sound { r with lexeme := .word left value } :=
  ⟨h.stack, h.result, fun left' value' heq ↦ by cases heq; exact hv⟩

theorem Sound.beginValue (h : r.Sound) {c : Char} (hs : r.beginValue c = some s) : s.Sound := by
  unfold Reader.beginValue at hs
  split_ifs at hs
  · exact Option.some.inj hs ▸ h.withLexeme r.place nofun
  · exact @Sound.openFrame r s h (.items []) .valueOrClose (fun _ ↦ List.forall_mem_nil _) hs
  · exact @Sound.openFrame r s h (.members [] "") .nameOrClose (fun _ ↦ List.forall_mem_nil _) hs
  · exact Option.some.inj hs ▸ h.withWord fun _ ↦ trivial
  · exact Option.some.inj hs ▸ h.withWord fun _ ↦ trivial
  · exact Option.some.inj hs ▸ h.withWord fun _ ↦ trivial
  · exact Option.some.inj hs ▸ h.withLexeme r.place nofun

theorem growSignificand_le {n : Nat} (h : n ≤ maxSignificand) (cs : List Char) :
    (growSignificand n cs).1 ≤ maxSignificand := by
  induction cs generalizing n with
  | nil => exact h
  | cons c rest ih =>
    rw [growSignificand]
    split
    · next hfits => exact ih hfits
    · exact h

theorem bounded_of_makeNumber {negative : Bool} {whole : List Char} {fraction : Option (List Char)}
    {exponent : Option ExponentText} {value : Json}
    (h : makeNumber negative whole fraction exponent = some value) (room : Nat) :
    value.Bounded room := by
  have hfloat {x : Option Float}
      (hx : x.map (fun x ↦ Json.float (if negative then -x else x)) = some value) :
      value.Bounded room := by
    obtain ⟨y, -, rfl⟩ := Option.map_eq_some_iff.1 hx
    trivial
  have hgrown : (growSignificand 0 whole).1 ≤ maxSignificand :=
    growSignificand_le (Nat.zero_le _) whole
  unfold makeNumber at h
  dsimp only at h
  split at h
  · split at h
    · split at h
      · obtain rfl := Option.some.inj h
        have hmax : maxSignificand < pow2 64 := by decide
        exact ⟨by omega, Int.ofNat_lt.2 (Nat.lt_of_le_of_lt hgrown hmax)⟩
      · split at h
        · next hneg =>
          obtain rfl := Option.some.inj h
          exact ⟨by omega, by omega⟩
        · exact Option.some.inj h ▸ trivial
    · exact hfloat h
  · exact hfloat h

theorem bounded_of_readNumber? {value : Json} (h : readNumber? text = some value) (room : Nat) :
    value.Bounded room := by
  unfold readNumber? at h
  dsimp only at h
  split at h
  all_goals
    split_ifs at h
    split at h
    · split_ifs at h
      obtain ⟨e, -, h⟩ := Option.bind_eq_some_iff.1 h
      exact bounded_of_makeNumber h room
    · obtain ⟨e, -, h⟩ := Option.bind_eq_some_iff.1 h
      exact bounded_of_makeNumber h room

theorem Sound.between (h : r.Sound) {c : Char} (hs : r.between c = some s) : s.Sound := by
  unfold Reader.between at hs
  split at hs
  · exact Option.some.inj hs ▸ h
  split at hs
  · exact h.beginValue hs
  · split_ifs at hs
    · exact h.close hs
    · exact h.beginValue hs
  · split_ifs at hs
    exact Option.some.inj hs ▸ h.withLexeme r.place nofun
  · split_ifs at hs
    · exact h.close hs
    · exact Option.some.inj hs ▸ h.withLexeme r.place nofun
  · split_ifs at hs
    exact Option.some.inj hs ▸ ⟨h.stack, h.result, h.word⟩
  · split at hs
    · cases hs
    · split_ifs at hs
      · exact Option.some.inj hs ▸ ⟨h.stack, h.result, h.word⟩
      · exact h.close hs
    · split_ifs at hs
      · exact Option.some.inj hs ▸ ⟨h.stack, h.result, h.word⟩
      · exact h.close hs

theorem Sound.deliverText (h : r.Sound) : (r.deliverText text).Sound := by
  have hstack := h.stack
  unfold Reader.deliverText
  dsimp only
  split
  · next hs =>
    rw [hs] at hstack
    exact ⟨hstack, h.result, nofun⟩
  · next hs =>
    rw [hs] at hstack
    exact ⟨hstack, h.result, nofun⟩
  · exact h.deliver trivial

theorem Sound.deliverCode (h : r.Sound) {lead : Option Nat} {code : Nat}
    (hs : r.deliverCode text lead code = some s) : s.Sound := by
  unfold Reader.deliverCode at hs
  split at hs
  · split_ifs at hs
    · exact Option.some.inj hs ▸ h.withLexeme r.place nofun
    · exact Option.some.inj hs ▸ h.withLexeme r.place nofun
  · split_ifs at hs
    exact Option.some.inj hs ▸ h.withLexeme r.place nofun

theorem Sound.step (h : r.Sound) {c : Char} (hs : r.step c = some s) : s.Sound := by
  unfold Reader.step at hs
  split at hs
  · exact h.between hs
  · cases hs
  · next d value hl =>
    obtain ⟨-, hs⟩ := Option.ite_none_right_eq_some.1 hs
    obtain rfl := Option.some.inj hs
    exact h.deliver (h.word _ _ hl _)
  · next d left value hl =>
    obtain ⟨-, hs⟩ := Option.ite_none_right_eq_some.1 hs
    obtain rfl := Option.some.inj hs
    refine ⟨h.stack, h.result, fun left' value' heq ↦ ?_⟩
    cases heq
    exact h.word _ _ hl
  · split_ifs at hs
    · exact Option.some.inj hs ▸ h.withLexeme r.place nofun
    · obtain ⟨value, hvalue, hs⟩ := Option.bind_eq_some_iff.1 hs
      exact Sound.between (h.deliver (bounded_of_readNumber? hvalue _)) hs
  · split_ifs at hs
    · exact Option.some.inj hs ▸ h.deliverText
    · exact Option.some.inj hs ▸ h.withLexeme r.place nofun
    · exact Option.some.inj hs ▸ h.withLexeme r.place nofun
  · split_ifs at hs
    · exact Option.some.inj hs ▸ h.withLexeme r.place nofun
    · obtain ⟨e, -, rfl⟩ := Option.map_eq_some_iff.1 hs
      exact h.withLexeme r.place nofun
  · obtain ⟨d, -, hs⟩ := Option.bind_eq_some_iff.1 hs
    dsimp only at hs
    split_ifs at hs
    · exact h.deliverCode hs
    · exact Option.some.inj hs ▸ h.withLexeme r.place nofun
  · split_ifs at hs
    exact Option.some.inj hs ▸ h.withLexeme r.place nofun
  · split_ifs at hs
    exact Option.some.inj hs ▸ h.withLexeme r.place nofun

theorem Sound.foldlM (h : r.Sound) {cs : List Char} (hs : cs.foldlM Reader.step r = some s) :
    s.Sound := by
  induction cs generalizing r with
  | nil => exact Option.some.inj hs ▸ h
  | cons c rest ih =>
    rw [List.foldlM_cons] at hs
    obtain ⟨t, ht, hs⟩ := Option.bind_eq_some_iff.1 hs
    exact ih (h.step ht) hs

end Reader

/-- **What is read is bounded**: its integers have 64 bits, and at most 127 lists and objects are
open at a time. -/
theorem bounded_of_parse? {text : String} {j : Json} (h : parse? text = some j) :
    j.Bounded Reader.maxDepth := by
  obtain ⟨r, hr, hfinish⟩ := Option.bind_eq_some_iff.1 h
  have hsound : r.Sound := Reader.Sound.foldlM (r := {}) ⟨trivial, nofun, nofun⟩ hr
  unfold Reader.finish at hfinish
  split at hfinish
  · exact hsound.result j hfinish
  · exact Reader.bounded_of_readNumber? hfinish _
  · cases hfinish

mutual

theorem bounded_canonical (room : Nat) : (j : Json) → j.Bounded room → j.canonical.Bounded room
  | .null, h | .bool _, h | .int _, h | .float _, h | .str _, h => h
  | .arr items, h => ⟨h.1, boundedItems_canonical _ items h.2⟩
  | .obj members, h => by
    refine ⟨h.1, boundedMembers_iff.2 fun e he ↦ ?_⟩
    rw [canonicalMembers_eq_ofList] at he
    obtain ⟨e', he', rfl⟩ := List.mem_map.1 (Dict.mem_of_mem_ofList he)
    exact bounded_canonicalValues _ members h.2 e' he'

theorem boundedItems_canonical (room : Nat) : (items : List Json) → BoundedItems room items →
    BoundedItems room (canonicalItems items)
  | [], _ => trivial
  | item :: rest, h => ⟨bounded_canonical room item h.1, boundedItems_canonical room rest h.2⟩

theorem bounded_canonicalValues (room : Nat) : (members : List (String × Json)) →
    BoundedMembers room members → ∀ e ∈ members, e.2.canonical.Bounded room
  | [], _ => nofun
  | (_, value) :: rest, h => List.forall_mem_cons.2
    ⟨bounded_canonical room value h.1, bounded_canonicalValues room rest h.2⟩

end

/-! ## Records -/

namespace Decoder

theorem bounded_of_named {names : List String} {members : List (String × Json)}
    {r : Record} {room : Nat} (h : named names (.obj members) = some r)
    (hm : BoundedMembers room members) :
    ∀ e ∈ r.fields, e.2.Bounded room := by
  obtain ⟨fields, hfields, rfl⟩ := Option.map_eq_some_iff.1 h
  obtain ⟨-, hfields⟩ := Option.ite_none_right_eq_some.1 hfields
  obtain rfl := Option.some.inj hfields
  exact fun e he ↦ boundedMembers_iff.1 hm e (List.mem_of_mem_filter he)

theorem bounded_of_record {names : List String} {j : Json} {r : Record} {room : Nat}
    (h : record names j = some r) (hj : j.Bounded (room + 1)) :
    ∀ e ∈ r.fields, e.2.Bounded room := by
  cases j with
  | arr items =>
    obtain ⟨-, h⟩ := Option.ite_none_right_eq_some.1 h
    obtain rfl := Option.some.inj h
    exact fun e he ↦ boundedItems_iff.1 hj.2 e.2 (List.of_mem_zip he).2
  | obj members => exact bounded_of_named h hj.2
  | _ => cases h

theorem Record.bounded_of_object {r : Record} {room : Nat} (hr : ∀ e ∈ r.fields, e.2.Bounded room)
    (hroom : 0 < room) {name : String} {d : Object} (h : r.withDefault name object [] = some d) :
    (obj d).Bounded room := by
  unfold withDefault at h
  split at h
  · next j hfield =>
    have hj : j.Bounded room := hr _ (Dict.mem_of_get? hfield)
    cases j with
    | obj members =>
      obtain rfl := Option.some.inj h
      exact bounded_canonical room (.obj members) hj
    | _ => cases h
  · obtain rfl := Option.some.inj h
    exact ⟨hroom, trivial⟩

end Decoder

theorem mem_floatsMembers {x : Float} {members : List (String × Json)} :
    x ∈ floatsMembers members ↔ ∃ e ∈ members, x ∈ e.2.floats := by
  induction members with
  | nil => simp [floatsMembers]
  | cons e rest ih => simp [floatsMembers, ih]

end Json

open Json

theorem CallbackBody.bounded_of_decode {j : Json} {b : CallbackBody} {room : Nat}
    (h : decode j = some b) (hj : j.Bounded (room + 1)) (hroom : 0 < room) :
    (obj b.inputData).Bounded room ∧ (obj b.outputData).Bounded room := by
  simp only [decode, Option.bind_eq_bind, Option.bind_eq_some_iff, Option.pure_def,
    Option.some.injEq] at h
  obtain ⟨r, hr, _, -, _, -, input, hinput, output, houtput, rfl⟩ := h
  have hfields := Decoder.bounded_of_record hr hj
  exact ⟨Decoder.Record.bounded_of_object hfields hroom hinput,
    Decoder.Record.bounded_of_object hfields hroom houtput⟩

namespace StepResult

variable {m : StepResult}

theorem exists_toJson_eq (m : StepResult) : ∃ members, m.toJson = .obj members ∧ ∀ e ∈ members,
    (∃ s, e.2 = .str s) ∨ (∃ d, (d = m.inputData ∨ d = m.outputData) ∧ e.2 = .obj d) ∨
      ∃ n ∈ m.attempt, e.2 = .int n := by
  have htext {name : String} {o : Option String} {e : String × Json}
      (he : e ∈ optionalMember name .str o) : ∃ s, e.2 = .str s := by
    cases o with
    | none => cases he
    | some s => exact ⟨s, congrArg Prod.snd (List.mem_singleton.1 he)⟩
  refine ⟨_, rfl, fun e he ↦ ?_⟩
  rcases List.mem_append.1 (Dict.mem_of_mem_ofList he) with he | he
  · rcases List.mem_append.1 he with he | he
    · rcases List.mem_append.1 he with he | he
      · simp only [List.mem_cons, List.not_mem_nil, or_false] at he
        obtain rfl | rfl | rfl | rfl | rfl := he
        · exact .inl ⟨_, rfl⟩
        · exact .inl ⟨_, rfl⟩
        · exact .inl ⟨_, rfl⟩
        · exact .inr (.inl ⟨_, .inl rfl, rfl⟩)
        · exact .inr (.inl ⟨_, .inr rfl, rfl⟩)
      · exact .inl (htext he)
    · exact .inl (htext he)
  · cases hattempt : m.attempt with
    | none =>
      rw [hattempt] at he
      cases he
    | some n =>
      rw [hattempt] at he
      exact .inr (.inr ⟨n, rfl, congrArg Prod.snd (List.mem_singleton.1 he)⟩)

theorem bounded_toJson {room : Nat} (hinput : (obj m.inputData).Bounded room)
    (houtput : (obj m.outputData).Bounded room) (hattempt : ∀ n ∈ m.attempt, IsInt32 n) :
    m.toJson.Bounded (room + 1) := by
  obtain ⟨members, hmembers, hvalues⟩ := m.exists_toJson_eq
  rw [hmembers]
  refine ⟨Nat.succ_pos room, boundedMembers_iff.2 fun e he ↦ ?_⟩
  obtain ⟨s, hs⟩ | ⟨d, rfl | rfl, hd⟩ | ⟨n, hn, he⟩ := hvalues e he
  · exact hs ▸ trivial
  · exact hd ▸ hinput
  · exact hd ▸ houtput
  · obtain ⟨hlow, hhigh⟩ := hattempt n hn
    have hpowers : pow2 31 ≤ pow2 63 ∧ pow2 31 < pow2 64 := by decide
    rw [he]
    exact ⟨by omega, by omega⟩

theorem floats_toJson {x : Float} (hx : x ∈ m.toJson.floats) :
    x ∈ floatsMembers m.inputData ∨ x ∈ floatsMembers m.outputData := by
  obtain ⟨members, hmembers, hvalues⟩ := m.exists_toJson_eq
  rw [hmembers] at hx
  obtain ⟨e, he, hx⟩ := mem_floatsMembers.1 hx
  obtain ⟨s, hs⟩ | ⟨d, rfl | rfl, hd⟩ | ⟨n, -, hn⟩ := hvalues e he
  · rw [hs] at hx
    cases hx
  · rw [hd] at hx
    exact .inl hx
  · rw [hd] at hx
    exact .inr hx
  · rw [hn] at hx
    cases hx

/-- **A result is read back from what is printed**, if its data are data as the engine reads
them. -/
theorem decode_parse?_text (hm : m.Fits) (hb : m.toJson.Bounded Reader.maxDepth)
    (hf : ∀ x ∈ m.toJson.floats, Reader.IsReadAsWritten x) :
    (parse? m.toJson.text).bind decode = some m := by
  rw [parse?_text hb hf]
  exact faithful.decode_encode hm

end StepResult

end Orchestration
