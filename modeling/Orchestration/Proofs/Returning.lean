import Orchestration.Proofs.Collaborators
import Orchestration.Proofs.Doubles
import Orchestration.Proofs.Filling
import Orchestration.Proofs.Following

/-!
# Values that are read and returned

An expression that is a reference and nothing else has the value that the reference points to, as it
comes back from the expression language (`finds_evaluate_reference`). There an integer has 64 bits
with a sign, and a greater one, although a document can hold it, is taken for a double
(`Json.returned`). So the value is returned as it is exactly if it has no such integer in it
(`evaluate_reference_iff`).
-/

namespace Orchestration

namespace Json

open Expression (Value)

/-! ## Values that a document holds -/

mutual

/-- A document that can be stored: its integers have 64 bits, with or without a sign, its doubles
are finite, and the members of its objects are in order, one of a name. -/
def Storable : Json → Prop
  | .null | .bool _ | .str _ => True
  | .int n => IsInteger n
  | .float x => Decimal.IsFinite x
  | .arr items => StorableItems items
  | .obj members => Dict.Sorted members ∧ StorableMembers members

/-- `Storable` for every item. -/
def StorableItems : List Json → Prop
  | [] => True
  | item :: rest => item.Storable ∧ StorableItems rest

/-- `Storable` for every member. -/
def StorableMembers : List (String × Json) → Prop
  | [] => True
  | (_, value) :: rest => value.Storable ∧ StorableMembers rest

end

mutual

def integers : Json → List Int
  | .null | .bool _ | .float _ | .str _ => []
  | .int n => [n]
  | .arr items => integersOfItems items
  | .obj members => integersOfMembers members

/-- The integers in the items of a list. -/
def integersOfItems : List Json → List Int
  | [] => []
  | item :: rest => item.integers ++ integersOfItems rest

/-- The integers in the members of an object. -/
def integersOfMembers : List (String × Json) → List Int
  | [] => []
  | (_, value) :: rest => value.integers ++ integersOfMembers rest

end

mutual

/-- The document with a double in the place of each integer that has no 64 bits with a sign. -/
def returned : Json → Json
  | .null => .null
  | .bool b => .bool b
  | .int n => if n < pow2 63 then .int n else .float (Float.ofInt n)
  | .float x => .float x
  | .str s => .str s
  | .arr items => .arr (returnedItems items)
  | .obj members => .obj (returnedMembers members)

/-- `returned` on every item. -/
def returnedItems : List Json → List Json
  | [] => []
  | item :: rest => item.returned :: returnedItems rest

/-- `returned` on every member. -/
def returnedMembers : List (String × Json) → List (String × Json)
  | [] => []
  | (name, value) :: rest => (name, value.returned) :: returnedMembers rest

end

theorem returnedMembers_eq (members : List (String × Json)) :
    returnedMembers members = Dict.mapValues returned members := by
  induction members with
  | nil => rfl
  | cons e rest ih =>
    rw [returnedMembers, ih]
    rfl

mutual

/-- A document is returned as it is exactly if each of its integers has 64 bits with a sign. -/
theorem returned_eq_self_iff : (j : Json) → (j.returned = j ↔ ∀ n ∈ j.integers, n < pow2 63)
  | .null | .bool _ | .float _ | .str _ => by simp [returned, integers]
  | .int n => by
    by_cases h : n < pow2 63
    · simp [returned, integers, h]
    · simp [returned, integers, h]
  | .arr items => by
    rw [returned, integers, ← returnedItems_eq_self_iff items]
    exact ⟨Json.arr.inj, congrArg _⟩
  | .obj members => by
    rw [returned, integers, ← returnedMembers_eq_self_iff members]
    exact ⟨Json.obj.inj, congrArg _⟩

theorem returnedItems_eq_self_iff : (items : List Json) →
    (returnedItems items = items ↔ ∀ n ∈ integersOfItems items, n < pow2 63)
  | [] => by simp [returnedItems, integersOfItems]
  | j :: rest => by
    rw [returnedItems, integersOfItems, List.cons.injEq, returned_eq_self_iff j,
      returnedItems_eq_self_iff rest, List.forall_mem_append]

theorem returnedMembers_eq_self_iff : (members : List (String × Json)) →
    (returnedMembers members = members ↔ ∀ n ∈ integersOfMembers members, n < pow2 63)
  | [] => by simp [returnedMembers, integersOfMembers]
  | (name, j) :: rest => by
    rw [returnedMembers, integersOfMembers, List.cons.injEq, Prod.mk.injEq, returned_eq_self_iff j,
      returnedMembers_eq_self_iff rest, List.forall_mem_append]
    simp

end

/-! ## To a value and back -/

theorem toJson?_float {x : Float} (h : Decimal.IsFinite x) :
    (Value.float x).toJson? = some (.float x) := by
  rw [Value.toJson?, h.1, h.2]
  rfl

theorem toJson?_ofJson_int {n : Int} (h : IsInteger n) :
    (Value.ofJson (.int n)).toJson? = some (Json.int n).returned := by
  obtain ⟨hlow, hhigh⟩ := h
  rw [Value.ofJson, returned]
  by_cases hsigned : n < pow2 63
  · rw [if_pos ⟨hlow, hsigned⟩, if_pos hsigned, Value.toJson?, if_pos ⟨hlow, hhigh⟩]
  · rw [if_neg (fun h ↦ hsigned h.2), if_neg hsigned]
    exact toJson?_float (Decimal.isFinite_ofInt (Int.not_lt.1 hsigned) hhigh)

mutual

/-- A document that is made a value becomes the returned document again. -/
theorem toJson?_ofJson : (j : Json) → j.Storable → (Value.ofJson j).toJson? = some j.returned
  | .null, _ | .bool _, _ | .str _, _ => rfl
  | .int _, h => toJson?_ofJson_int h
  | .float _, h => toJson?_float h
  | .arr items, h => by
    rw [Value.ofJson, Value.toJson?, itemsToJson?_ofJsonItems items h]
    rfl
  | .obj members, h => by
    obtain ⟨hsorted, hmembers⟩ := h
    rw [Value.ofJson, Value.toJson?, entriesToJson?_ofJsonMembers members hmembers, Option.map_some,
      returnedMembers_eq, Dict.ofList_eq_of_perm (hsorted.mapValues returned) (.refl _), returned,
      returnedMembers_eq]

theorem itemsToJson?_ofJsonItems : (items : List Json) → StorableItems items →
    Value.itemsToJson? (Value.ofJsonItems items) = some (returnedItems items)
  | [], _ => rfl
  | j :: rest, h => by
    rw [Value.ofJsonItems, Value.itemsToJson?, toJson?_ofJson j h.1,
      itemsToJson?_ofJsonItems rest h.2]
    rfl

theorem entriesToJson?_ofJsonMembers : (members : List (String × Json)) → StorableMembers members →
    Value.entriesToJson? (Value.ofJsonMembers members) = some (returnedMembers members)
  | [], _ => rfl
  | (name, j) :: rest, h => by
    rw [Value.ofJsonMembers, Value.entriesToJson?, toJson?_ofJson j h.1,
      entriesToJson?_ofJsonMembers rest h.2]
    rfl

end

theorem ofJson_ne_undefined (j : Json) : Value.ofJson j ≠ .undefined := by
  intro h
  cases j with
  | int n =>
    rw [Value.ofJson] at h
    split at h <;> cases h
  | _ => cases h

end Json

namespace Expression

theorem tokenize_variable : Token.tokenize "__ref_0".toList = [.name "__ref_0"] := by
  have htext : "__ref_0".toList = '_' :: "_ref_0".toList := rfl
  have hblank : Token.isBlank '_' = false := by decide
  have hread : Token.read '_' "_ref_0".toList = (.name "__ref_0", 7) := by rfl
  have hrest : "_ref_0".toList.drop 6 = [] := rfl
  rw [htext, Token.tokenize, hblank, if_neg Bool.false_ne_true, hread]
  dsimp only
  rw [hrest, Token.tokenize]

theorem parse_variable : Parser.parse "__ref_0" = .ok (.var "__ref_0") := by
  rw [Parser.parse, tokenize_variable]
  with_unfolding_all rfl

theorem evaluate_variable {source : Source} {v : Json} (hsource : source.rewritten = "__ref_0")
    (hv : v.Storable) : source.evaluate [("__ref_0", v)] = .ok v.returned := by
  have hvalue : Expression.evaluate (Dict.mapValues Value.ofJson [("__ref_0", v)])
      (.var "__ref_0") = .ok (Value.ofJson v) := rfl
  rw [Source.evaluate, hsource, parse_variable]
  dsimp only
  rw [hvalue]
  dsimp only
  unfold document
  split
  · next hundefined => exact absurd hundefined (Json.ofJson_ne_undefined v)
  · rw [Json.toJson?_ofJson v hv]

end Expression

namespace Engine

open Expression (DataPath isNameChar parseSource_of_spelled evaluate_variable)

variable {t : Store.Tables} {run : Uid} {current : Option StepInstance}
  {s : StepInstance} {p : DataPath} {text key name : String} {v : Json}

/-- What is found for an expression that is one reference: the value that the reference points to,
as it is returned. -/
theorem finds_evaluate_reference (hspelled : p.Spelled text.toList)
    (hstep : Finds t (fetchStep run current p.step) (.ok s))
    (hresolve : p.resolve (s.data p.side) = .ok v) (hv : v.Storable) :
    Finds t (evaluate run text current) (.ok v.returned) := by
  have hfetch : Finds t (fetchSteps run current [p.step] []) (.ok [(p.step, s)]) :=
    finds_bind_ok.2 ⟨s, hstep, finds_pure.2 rfl⟩
  have hbind : bindReferences [(p.step, s)]
      { text, rewritten := "__ref_0", references := [⟨p, "__ref_0"⟩] } = .ok [("__ref_0", v)] := by
    have hfound : bindReference [(p.step, s)] ⟨p, "__ref_0"⟩ = .ok ("__ref_0", v) := by
      rw [bindReference, List.lookup_cons, beq_self_eq_true]
      dsimp only
      rw [hresolve]
      rfl
    rw [bindReferences, List.mapM_cons, hfound]
    rfl
  unfold evaluate
  refine finds_bind_ok.2 ⟨_, finds_ofExcept.2 (parseSource_of_spelled hspelled).symm, ?_⟩
  refine finds_bind_ok.2 ⟨_, hfetch, finds_bind_ok.2 ⟨_, finds_ofExcept.2 hbind.symm, ?_⟩⟩
  exact finds_ofExcept.2 (evaluate_variable rfl hv).symm

/-- **A value of a step's output is returned as it is if its integers have 64 bits with a sign.** An
expression that is the reference to a member of the output of a step has the value that is stored
there, of whatever kind and depth, with a double in the place of each integer that a document can
hold without a sign only. So it has the stored value itself exactly if there is no such integer. -/
theorem evaluate_reference_iff (hspelled : DataPath.Spelled ⟨name, .output, [key]⟩ text.toList)
    (hstep : Finds t (fetchStep run current name) (.ok s)) (hget : s.outputData.get? key = some v)
    (hv : v.Storable) :
    Finds t (evaluate run text current) (.ok v.returned) ∧
      (Finds t (evaluate run text current) (.ok v) ↔ ∀ n ∈ v.integers, n < pow2 63) := by
  have hvalue : (⟨name, .output, [key]⟩ : DataPath).resolve? s.outputData = some v :=
    (congrArg (Option.bind · some) hget).trans rfl
  have hresolve : (⟨name, .output, [key]⟩ : DataPath).resolve s.outputData = .ok v := by
    rw [DataPath.resolve, hvalue]
  have hfound := finds_evaluate_reference hspelled hstep hresolve hv
  refine ⟨hfound, Iff.trans ⟨fun h ↦ ?_, fun h ↦ ?_⟩ (Json.returned_eq_self_iff v)⟩
  · exact Except.ok.inj (hfound.unique h)
  · rwa [h] at hfound

/-- A step whose output has the greatest integer of 64 bits with a sign, and the integer behind
it. -/
def brimmingStep : StepInstance :=
  { underwayStep
    with outputData := [("k", .arr [.int 9223372036854775807, .int 9223372036854775808])] }

/-- The first of them is returned as it is, the second as a double. -/
theorem evaluate_reference_of_brimmingStep :
    Finds underwayScene.tables (evaluate (World.nthUid 0) "[self.output.k]" (some brimmingStep))
      (.ok (.arr [.int 9223372036854775807, .float (Float.ofInt 9223372036854775808)])) ∧
    ¬Finds underwayScene.tables (evaluate (World.nthUid 0) "[self.output.k]" (some brimmingStep))
      (.ok (.arr [.int 9223372036854775807, .int 9223372036854775808])) := by
  have hwritable : (⟨"self", .output, ["k"]⟩ : DataPath).Writable :=
    { name := by simp [isNameChar, Text.isBlank]
      segments := by decide
      path := by decide }
  have hspelled : DataPath.Spelled ⟨"self", .output, ["k"]⟩ "[self.output.k]".toList :=
    hwritable.spelled
  have hstep : Finds underwayScene.tables (fetchStep (World.nthUid 0) (some brimmingStep) "self")
      (.ok brimmingStep) := finds_pure.2 rfl
  have hget : brimmingStep.outputData.get? "k" =
      some (.arr [.int 9223372036854775807, .int 9223372036854775808]) := rfl
  obtain ⟨hfound, hiff⟩ := evaluate_reference_iff hspelled hstep hget
    ⟨⟨by decide, by decide⟩, ⟨by decide, by decide⟩, trivial⟩
  exact ⟨hfound, fun hsame ↦ absurd (hiff.1 hsame) (by decide)⟩

end Engine

end Orchestration
