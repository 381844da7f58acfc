import Mathlib.Data.List.Basic
import Orchestration.Json.Printer
import Orchestration.Message
import Orchestration.Queue.Channel

/-!
# What the end of a text tells

The members of a document are printed in ascending order of their names, whatever the order is in
which they are given (`Dict.ofList_of_last`), so a message whose last member is the run that it
concerns ends with the identifier of the run. All identifiers are printed with the same number of
characters, none of which has to be escaped (`Uid.text_injective`, `Uid.length_text`,
`Uid.quote_text`). So two messages with the same text concern the same run.
-/

namespace Orchestration

namespace Dict

variable {α : Type} {d : Dict α} {key name : String} {v w : α}

theorem insert_of_forall_lt (h : ∀ e ∈ d, e.1 < key) : insert key v d = d ++ [(key, v)] := by
  induction d with
  | nil => rfl
  | cons x rest ih =>
    have hx := h x List.mem_cons_self
    rw [insert, if_neg (String.ne_of_lt hx).symm, if_neg (String.lt_asymm hx),
      ih fun e he ↦ h e (List.mem_cons_of_mem _ he)]
    rfl

theorem insert_append_of_lt (h : name < key) :
    insert name w (d ++ [(key, v)]) = insert name w d ++ [(key, v)] := by
  induction d with
  | nil =>
    have hinsert : insert name w [(key, v)] = [(name, w), (key, v)] := by
      rw [insert, if_neg (String.ne_of_lt h), if_pos h]
    exact hinsert
  | cons x rest ih =>
    rw [List.cons_append, insert, insert]
    split
    · rfl
    · split
      · rfl
      · rw [ih]
        rfl

theorem mem_keys_overlay {base top : Dict α} {e : String × α} (h : e ∈ overlay base top) :
    (∃ x ∈ top, e.1 = x.1) ∨ e ∈ base := by
  induction top generalizing base with
  | nil => exact .inr h
  | cons x rest ih =>
    rcases ih h with ⟨y, hy, hkey⟩ | h
    · exact .inl ⟨y, List.mem_cons_of_mem _ hy, hkey⟩
    · exact (mem_keys_insert h).imp_left fun hkey ↦ ⟨x, List.mem_cons_self, hkey⟩

theorem overlay_append_of_lt {top : Dict α} (h : ∀ e ∈ top, e.1 < key) :
    overlay (d ++ [(key, v)]) top = overlay d top ++ [(key, v)] := by
  induction top generalizing d with
  | nil => rfl
  | cons x rest ih =>
    have hstep : ∀ base : Dict α, overlay base (x :: rest) = overlay (insert x.1 x.2 base) rest :=
      fun _ ↦ rfl
    rw [hstep, hstep, insert_append_of_lt (h x List.mem_cons_self),
      ih fun e he ↦ h e (List.mem_cons_of_mem _ he)]

theorem ofList_of_last (l₁ l₂ : List (String × α)) (h₁ : ∀ e ∈ l₁, e.1 < key)
    (h₂ : ∀ e ∈ l₂, e.1 < key) :
    ofList (l₁ ++ (key, v) :: l₂) = ofList (l₁ ++ l₂) ++ [(key, v)] := by
  have hsplit : ∀ l : List (String × α), ofList (l₁ ++ l) = overlay (ofList l₁) l :=
    fun l ↦ List.foldl_append
  have hfirst : ∀ e ∈ ofList l₁, e.1 < key := by
    intro e he
    rcases mem_keys_overlay he with ⟨x, hx, hkey⟩ | h
    · exact hkey ▸ h₁ x hx
    · cases h
  calc ofList (l₁ ++ (key, v) :: l₂)
    _ = overlay (insert key v (ofList l₁)) l₂ := hsplit _
    _ = overlay (ofList l₁) l₂ ++ [(key, v)] := by
      rw [insert_of_forall_lt hfirst, overlay_append_of_lt h₂]
    _ = ofList (l₁ ++ l₂) ++ [(key, v)] := by rw [hsplit]

end Dict

namespace Json

mutual

theorem printOnto_eq (out : String) : (j : Json) → printOnto out j = out ++ j.text
  | .null | .bool _ | .int _ | .float _ | .str _ => by simp [text, printOnto]
  | .arr items => by
    rw [text, printOnto, printOnto, printItems_eq (out ++ "["), printItems_eq ("" ++ "[")]
    simp [String.append_assoc]
  | .obj members => by
    rw [text, printOnto, printOnto, printMembers_eq (out ++ "\x7b"), printMembers_eq ("" ++ "\x7b")]
    simp [String.append_assoc]

theorem printItems_eq (out : String) : (items : List Json) →
    printItems out items = out ++ printItems "" items
  | [] => by simp [printItems]
  | [item] => by
    rw [printItems, printItems, printOnto_eq out, printOnto_eq ""]
    simp
  | item :: next :: rest => by
    have hstep : ∀ out, printItems out (item :: next :: rest) =
        printItems (printOnto out item ++ ",") (next :: rest) := fun _ ↦ rfl
    rw [hstep, hstep, printItems_eq (printOnto out item ++ ","),
      printItems_eq (printOnto "" item ++ ","), printOnto_eq out, printOnto_eq ""]
    simp [String.append_assoc]

theorem printMembers_eq (out : String) : (members : List (String × Json)) →
    printMembers out members = out ++ printMembers "" members
  | [] => by simp [printMembers]
  | [(name, value)] => by
    rw [printMembers, printMembers, printOnto_eq (out ++ quote name ++ ":"),
      printOnto_eq ("" ++ quote name ++ ":")]
    simp [String.append_assoc]
  | (name, value) :: next :: rest => by
    have hstep : ∀ out, printMembers out ((name, value) :: next :: rest) =
        printMembers (printOnto (out ++ quote name ++ ":") value ++ ",") (next :: rest) :=
          fun _ ↦ rfl
    rw [hstep, hstep, printMembers_eq (printOnto (out ++ quote name ++ ":") value ++ ","),
      printMembers_eq (printOnto ("" ++ quote name ++ ":") value ++ ","),
      printOnto_eq (out ++ quote name ++ ":"), printOnto_eq ("" ++ quote name ++ ":")]
    simp [String.append_assoc]

end

theorem exists_text_append (front last : List (String × Json)) (h : last ≠ []) :
    ∃ out, (obj (front ++ last)).text = out ++ (printMembers "" last ++ "\x7d") := by
  have hmembers : ∀ out, ∃ out', printMembers out (front ++ last) =
      out' ++ printMembers "" last := by
    induction front with
    | nil => exact fun out ↦ ⟨out, printMembers_eq out last⟩
    | cons x rest ih =>
      intro out
      rw [List.cons_append, printMembers]
      · exact ih _
      · simp [h]
  obtain ⟨out, hout⟩ := hmembers "\x7b"
  exact ⟨out, by rw [text, printOnto, String.empty_append, hout, String.append_assoc]⟩

end Json

/-! ## Identifiers -/

/-- A character that identifiers are printed with. -/
def IsDigit (c : Char) : Prop := ∃ d < 16, c = Nat.digitChar d

theorem isDigit_of_mem_toDigits {n : Nat} : ∀ c ∈ Nat.toDigits 16 n, IsDigit c := by
  induction n using Nat.strongRecOn with
  | ind n ih =>
    rw [Nat.toDigits_eq_if (by decide)]
    split
    · next hlt => exact fun c hc ↦ ⟨n, hlt, List.mem_singleton.1 hc⟩
    · next hge =>
      intro c hc
      rcases List.mem_append.1 hc with hc | hc
      · exact ih _ (Nat.div_lt_self (by omega) (by decide)) c hc
      · exact ⟨n % 16, Nat.mod_lt _ (by decide), List.mem_singleton.1 hc⟩

theorem hexDigit?_digitChar : ∀ d < 16, Json.Reader.hexDigit? (Nat.digitChar d) = some d := by
  decide

theorem escapeChar_of_isDigit {c : Char} (h : IsDigit c ∨ c = '-') :
    Json.escapeChar c = c.toString := by
  have hdigits : ∀ d < 16, Json.escapeChar (Nat.digitChar d) =
      (Nat.digitChar d).toString := by decide
  rcases h with ⟨d, hd, rfl⟩ | rfl
  · exact hdigits d hd
  · rfl

theorem Json.quote_of_plain {s : String} (h : ∀ c ∈ s.toList, Json.escapeChar c = c.toString) :
    Json.quote s = "\"" ++ s ++ "\"" := by
  have hfold : ∀ (cs : List Char) (out : String), (∀ c ∈ cs, Json.escapeChar c = c.toString) →
      cs.foldl (fun out c ↦ out ++ Json.escapeChar c) out = out ++ String.ofList cs := by
    intro cs
    induction cs with
    | nil => simp
    | cons c rest ih =>
      intro out h
      rw [List.foldl_cons, ih _ fun c hc ↦ h c (List.mem_cons_of_mem _ hc), h c List.mem_cons_self]
      exact String.toList_inj.1 (by simp)
  rw [Json.quote, hfold _ _ h, String.ofList_toList]

namespace Uid

variable {u v : Uid}

theorem length_digits (u : Uid) : u.digits.length = 32 := by
  have hle : (Nat.toDigits 16 u.bits.toNat).length ≤ 32 :=
    (Nat.length_toDigits_le_iff (by decide) (by decide)).2 u.bits.isLt
  simp only [digits, List.length_append, List.length_replicate]
  omega

theorem isDigit_of_mem_digits : ∀ c ∈ u.digits, IsDigit c := by
  intro c hc
  rcases List.mem_append.1 hc with hc | hc
  · exact ⟨0, by decide, (List.mem_replicate.1 hc).2⟩
  · exact isDigit_of_mem_toDigits c hc

theorem readDigits_toDigits (n : Nat) : (Nat.toDigits 16 n).foldlM
    (fun n c ↦ (Json.Reader.hexDigit? c).map (n * 16 + ·)) 0 = some n := by
  induction n using Nat.strongRecOn with
  | ind n ih =>
    rw [Nat.toDigits_eq_if (by decide)]
    split
    · next hlt => simp [hexDigit?_digitChar n hlt]
    · next hge =>
      rw [List.foldlM_append, ih _ (Nat.div_lt_self (by omega) (by decide))]
      simp [hexDigit?_digitChar _ (Nat.mod_lt n (by decide : 0 < 16)), Nat.div_add_mod']

theorem ofDigits?_digits (u : Uid) : ofDigits? u.digits = some u := by
  have hzeros : ∀ k, (List.replicate k '0').foldlM
      (fun n c ↦ (Json.Reader.hexDigit? c).map (n * 16 + ·)) 0 = some 0 := by
    intro k
    induction k with
    | zero => rfl
    | succ k ih =>
      rw [List.replicate_succ, List.foldlM_cons]
      exact ih
  rw [ofDigits?, if_pos (length_digits u), digits, List.foldlM_append, hzeros]
  show Option.map ofNat (List.foldlM _ 0 _) = some u
  rw [readDigits_toDigits, Option.map_some, ofNat, BitVec.ofNat_toNat]
  simp

theorem digits_injective : Function.Injective digits :=
  fun u v h ↦ Option.some.inj ((ofDigits?_digits u).symm.trans (h ▸ ofDigits?_digits v))

theorem toList_text (u : Uid) :
    u.text.toList = u.digits.take 8 ++ '-' ::
      ((u.digits.drop 8).take 4 ++ '-' ::
      ((u.digits.drop 12).take 4 ++ '-' ::
      ((u.digits.drop 16).take 4 ++ '-' :: (u.digits.drop 20).take 12))) := by
  simp [text]

theorem length_text (u : Uid) : u.text.toList.length = 36 := by
  have h := length_digits u
  simp [toList_text, h]

private theorem ne_hyphen_of_isDigit {c : Char} (h : IsDigit c) : c ≠ '-' := by
  have hdigits : ∀ d < 16, Nat.digitChar d ≠ '-' := by decide
  obtain ⟨d, hd, rfl⟩ := h
  exact hdigits d hd

/-- The groups of the text of an identifier are read as the identifier. -/
theorem ofGroups?_text (u : Uid) : ofGroups? u.text.toList = some u := by
  have hgroup : ∀ i n, '-' ∉ (u.digits.drop i).take n := fun i n h ↦ ne_hyphen_of_isDigit
    (isDigit_of_mem_digits _ (List.mem_of_mem_drop (List.mem_of_mem_take h))) rfl
  have hfirst : '-' ∉ u.digits.take 8 := hgroup 0 8
  have hsplit : u.text.toList.splitOn '-' = [u.digits.take 8, (u.digits.drop 8).take 4,
      (u.digits.drop 12).take 4, (u.digits.drop 16).take 4, (u.digits.drop 20).take 12] := by
    rw [toList_text, List.splitOn_append_cons_self_of_not_mem hfirst,
      List.splitOn_append_cons_self_of_not_mem (hgroup 8 4),
      List.splitOn_append_cons_self_of_not_mem (hgroup 12 4),
      List.splitOn_append_cons_self_of_not_mem (hgroup 16 4),
      List.splitOn_eq_singleton (hgroup 20 12)]
  have hlengths : [u.digits.take 8, (u.digits.drop 8).take 4, (u.digits.drop 12).take 4,
      (u.digits.drop 16).take 4, (u.digits.drop 20).take 12].map List.length =
        [8, 4, 4, 4, 12] := by
    simp [length_digits]
  have hjoin : u.digits.take 8 ++ (u.digits.drop 8).take 4 ++ (u.digits.drop 12).take 4 ++
      (u.digits.drop 16).take 4 ++ (u.digits.drop 20).take 12 = u.digits := by
    rw [← List.take_add, ← List.take_add, ← List.take_add, ← List.take_add]
    exact List.take_of_length_le (Nat.le_of_eq (length_digits u))
  rw [ofGroups?, hsplit]
  show (if _ then _ else _) = _
  rw [if_pos hlengths, hjoin, ofDigits?_digits]

theorem parse?_text (u : Uid) : parse? u.text = some u := by
  unfold parse?
  dsimp only
  rw [length_text, if_neg (by decide), if_pos rfl, ofGroups?_text]

/-- Without its hyphens, the text of an identifier is its digits. -/
theorem filter_text (u : Uid) : u.text.toList.filter (· ≠ '-') = u.digits := by
  have hdigits : ∀ i n, ((u.digits.drop i).take n).filter (· ≠ '-') = (u.digits.drop i).take n :=
    fun i n ↦ List.filter_eq_self.2 fun c hc ↦ decide_eq_true (ne_hyphen_of_isDigit
      (isDigit_of_mem_digits c (List.mem_of_mem_drop (List.mem_of_mem_take hc))))
  have hjoin : ∀ i n, (u.digits.drop i).take n ++ u.digits.drop (i + n) = u.digits.drop i := by
    intro i n
    rw [← List.drop_drop]
    exact List.take_append_drop n _
  have hlast : (u.digits.drop 20).take 12 = u.digits.drop 20 :=
    List.take_of_length_le (by simp [length_digits])
  have hfirst : u.digits.take 8 = (u.digits.drop 0).take 8 := rfl
  rw [toList_text, hfirst]
  simp only [List.filter_append, hdigits, List.filter_cons, ne_eq, not_true_eq_false, decide_false,
    Bool.false_eq_true, if_false]
  rw [hlast, hjoin 16 4, hjoin 12 4, hjoin 8 4, hjoin 0 8]
  rfl

theorem text_injective : Function.Injective text := by
  intro u v h
  refine digits_injective ?_
  rw [← filter_text, h, filter_text]

theorem isDigit_or_of_mem_text {c : Char} (h : c ∈ u.text.toList) : IsDigit c ∨ c = '-' := by
  by_cases hhyphen : c = '-'
  · exact .inr hhyphen
  · have hmem : c ∈ u.text.toList.filter (· ≠ '-') := List.mem_filter.2 ⟨h, decide_eq_true hhyphen⟩
    rw [filter_text] at hmem
    exact .inl (isDigit_of_mem_digits c hmem)

theorem quote_text (u : Uid) : Json.quote u.text = "\"" ++ u.text ++ "\"" :=
  Json.quote_of_plain fun _ hc ↦ escapeChar_of_isDigit (isDigit_or_of_mem_text hc)

end Uid

/-! ## The last members -/

/-- The end of a document whose last member is an identifier. -/
def uidEnding (name : String) (u : Uid) : String :=
  Json.quote name ++ ":" ++ Json.quote u.text ++ "\x7d"

section Ending

variable {name name' : String} {u v : Uid} {a b : String}

/-- Texts that end with an identifier are the same only if they end with the same identifier. -/
theorem eq_of_uidEnding (h : a ++ uidEnding name u = b ++ uidEnding name' v) :
    u = v ∧ a ++ Json.quote name = b ++ Json.quote name' := by
  have hlist := congrArg String.toList h
  simp only [uidEnding, Uid.quote_text, String.toList_append, ← List.append_assoc] at hlist
  obtain ⟨hlist, -⟩ := List.append_inj' hlist rfl
  obtain ⟨hlist, -⟩ := List.append_inj' hlist rfl
  obtain ⟨hfront, htext⟩ := List.append_inj' hlist (by simp only [Uid.length_text])
  refine ⟨Uid.text_injective (String.toList_inj.1 htext), String.toList_inj.1 ?_⟩
  obtain ⟨hfront, -⟩ := List.append_inj' hfront rfl
  obtain ⟨hfront, -⟩ := List.append_inj' hfront rfl
  rw [String.toList_append, String.toList_append]
  exact hfront

theorem Json.exists_text_of_last {front : List (String × Json)} :
    ∃ out, (Json.obj (front ++ [(name, u.toJson)])).text = out ++ uidEnding name u := by
  obtain ⟨out, h⟩ := Json.exists_text_append front [(name, u.toJson)] (by simp)
  refine ⟨out, h.trans ?_⟩
  simp [Json.printMembers, Uid.toJson, Json.printOnto, uidEnding, String.append_assoc]

theorem Json.exists_text_of_last_two {front : List (String × Json)} {value : Json} :
    ∃ out, (Json.obj (front ++ [(name, value), (name', u.toJson)])).text =
      out ++ Json.quote name ++ ":" ++ value.text ++ "," ++ uidEnding name' u := by
  obtain ⟨out, h⟩ := Json.exists_text_append front [(name, value), (name', u.toJson)] (by simp)
  refine ⟨out, h.trans ?_⟩
  simp [Json.printMembers, Uid.toJson, Json.printOnto, Json.printOnto_eq _ value, uidEnding,
    String.append_assoc]

end Ending

/-! ## Messages -/

/-- All names of some members are less than another. -/
def Json.Below (name : String) (members : List (String × Json)) : Prop := ∀ e ∈ members, e.1 < name

namespace Json.Below

variable {name key : String} {value : Json} {l l₁ l₂ : List (String × Json)}

theorem nil : Below name [] := nofun

theorem cons (hkey : key < name) (h : Below name l) : Below name ((key, value) :: l) :=
  List.forall_mem_cons.2 ⟨hkey, h⟩

theorem append (h₁ : Below name l₁) (h₂ : Below name l₂) : Below name (l₁ ++ l₂) :=
  List.forall_mem_append.2 ⟨h₁, h₂⟩

theorem optional {α : Type} {encode : α → Json} {a : Option α} (hkey : key < name) :
    Below name (Json.optionalMember key encode a) := by
  cases a with
  | none => exact nil
  | some a => exact cons hkey nil

end Json.Below

/-- A document whose greatest name is that of an identifier ends with it. -/
theorem Json.exists_text_ofMembers {name : String} {u : Uid} {l₁ l₂ : List (String × Json)}
    (h₁ : Below name l₁) (h₂ : Below name l₂) :
    ∃ out, (Json.ofMembers (l₁ ++ (name, u.toJson) :: l₂)).text = out ++ uidEnding name u := by
  rw [Json.ofMembers, Dict.ofList_of_last _ _ h₁ h₂]
  exact Json.exists_text_of_last

theorem WorkRequest.exists_text (w : WorkRequest) :
    ∃ out, w.toJson.text = out ++ uidEnding "workflowInstanceId" w.workflowInstanceId := by
  have hfirst : Json.Below "workflowInstanceId" [("stepInstanceId", w.stepInstanceId.toJson)] :=
    .cons (by decide) .nil
  have hrest : Json.Below "workflowInstanceId" [("runStatus", w.runStatus.toJson),
      ("serviceUrl", Json.ofText? w.serviceUrl), ("functionName", .str w.functionName),
      ("functionType", .str w.functionType), ("cpuRequest", Json.ofText? w.cpuRequest),
      ("memoryRequest", Json.ofText? w.memoryRequest), ("inputData", .obj w.inputData),
      ("outputData", .obj w.outputData), ("attempt", .int w.attempt)] :=
    .cons (by decide) (.cons (by decide) (.cons (by decide) (.cons (by decide) (.cons (by decide)
      (.cons (by decide) (.cons (by decide) (.cons (by decide) (.cons (by decide) .nil))))))))
  have h := Json.exists_text_ofMembers (u := w.workflowInstanceId) hfirst hrest
  rw [List.singleton_append] at h
  rw [toJson]
  exact h

theorem StepResult.exists_text (m : StepResult) :
    ∃ out, m.toJson.text = out ++ uidEnding "workflowInstanceId" m.workflowInstanceId := by
  have hfirst : Json.Below "workflowInstanceId" [("stepInstanceId", m.stepInstanceId.toJson)] :=
    .cons (by decide) .nil
  have hrest : Json.Below "workflowInstanceId" ([("runStatus", m.runStatus.toJson),
      ("inputData", .obj m.inputData), ("outputData", .obj m.outputData)] ++
        (Json.optionalMember "failureReason" .str m.failureReason ++
          (Json.optionalMember "callBackUrl" .str m.callBackUrl ++
            Json.optionalMember "attempt" .int m.attempt))) :=
    .append (.cons (by decide) (.cons (by decide) (.cons (by decide) .nil)))
      (.append (.optional (by decide)) (.append (.optional (by decide)) (.optional (by decide))))
  rw [toJson, List.append_assoc, List.append_assoc]
  exact Json.exists_text_ofMembers (u := m.workflowInstanceId) hfirst hrest

/-- The text of an outcome ends with whether the functions are ready and with the run. -/
theorem DeploymentOutcome.exists_text (m : DeploymentOutcome) :
    ∃ out, m.toJson.text = out ++ Json.quote "ready" ++ ":" ++ (Json.bool m.ready).text ++ "," ++
      uidEnding "workflowInstanceId" m.workflowInstanceId := by
  generalize hreason : Json.optionalMember "failureReason" .str m.failureReason = reason
  have hbelow : ∀ {name : String}, "failureReason" < name → Json.Below name reason :=
    fun h ↦ hreason ▸ .optional h
  have hready : Dict.ofList (("ready", Json.bool m.ready) :: reason) =
      Dict.ofList reason ++ [("ready", Json.bool m.ready)] :=
    Dict.ofList_of_last [] _ nofun (hbelow (by decide))
  have hrun : Dict.ofList (("workflowInstanceId", m.workflowInstanceId.toJson) ::
      ("ready", Json.bool m.ready) :: reason) =
        Dict.ofList (("ready", Json.bool m.ready) :: reason) ++
        [("workflowInstanceId", m.workflowInstanceId.toJson)] :=
    Dict.ofList_of_last [] _ nofun (Json.Below.cons (by decide) (hbelow (by decide)))
  have hmembers : m.toJson = .obj (Dict.ofList reason ++
      [("ready", Json.bool m.ready), ("workflowInstanceId", m.workflowInstanceId.toJson)]) := by
    rw [toJson, hreason, Json.ofMembers]
    refine congrArg _ (hrun.trans ?_)
    rw [hready, List.append_assoc]
    rfl
  rw [hmembers]
  exact Json.exists_text_of_last_two

/-- The text of an announcement ends with the run, or with the run and the step. -/
theorem RunNotification.exists_text (n : RunNotification) :
    (∃ out, n.toJson.text = out ++ uidEnding "workflowInstanceUid" n.workflowInstanceUid) ∨
      ∃ out k, n.toJson.text = out ++ Json.quote "workflowInstanceUid" ++ ":" ++
        n.workflowInstanceUid.toJson.text ++ "," ++ uidEnding "workflowStepInstanceUid" k := by
  have hfirst : ∀ {name : String}, "isStepUpdate" < name →
      Json.Below name [("isStepUpdate", .bool n.isStepUpdate)] := fun h ↦ .cons h .nil
  have hstatus : ∀ {name : String}, "status" < name →
      Json.Below name [("status", n.status.toJson)] := fun h ↦ .cons h .nil
  cases hstep : n.workflowStepInstanceUid with
  | none =>
    refine .inl ?_
    rw [toJson, hstep]
    exact Json.exists_text_ofMembers (u := n.workflowInstanceUid) (hfirst (by decide))
      (hstatus (by decide))
  | some k =>
    refine .inr ?_
    have hrun : Dict.ofList ([("isStepUpdate", .bool n.isStepUpdate)] ++
        ("workflowInstanceUid", n.workflowInstanceUid.toJson) :: [("status", n.status.toJson)]) =
          Dict.ofList ([("isStepUpdate", .bool n.isStepUpdate)] ++ [("status", n.status.toJson)]) ++
            [("workflowInstanceUid", n.workflowInstanceUid.toJson)] :=
      Dict.ofList_of_last _ _ (hfirst (by decide)) (hstatus (by decide))
    have hlast : Dict.ofList (([("isStepUpdate", .bool n.isStepUpdate)] ++
        ("workflowInstanceUid", n.workflowInstanceUid.toJson) :: [("status", n.status.toJson)]) ++
          ("workflowStepInstanceUid", k.toJson) :: []) =
        Dict.ofList ([("isStepUpdate", .bool n.isStepUpdate)] ++
          ("workflowInstanceUid", n.workflowInstanceUid.toJson) ::
            [("status", n.status.toJson)] ++ []) ++ [("workflowStepInstanceUid", k.toJson)] :=
      Dict.ofList_of_last _ _ ((hfirst (by decide)).append
        (.cons (by decide) (hstatus (by decide)))) nofun
    rw [List.append_nil, hrun] at hlast
    have hmembers : n.toJson = .obj (Dict.ofList ([("isStepUpdate", .bool n.isStepUpdate)] ++
        [("status", n.status.toJson)]) ++ [("workflowInstanceUid", n.workflowInstanceUid.toJson),
          ("workflowStepInstanceUid", k.toJson)]) := by
      rw [toJson, hstep]
      exact congrArg Json.obj (hlast.trans (List.append_assoc _ _ _))
    rw [hmembers]
    obtain ⟨out, h⟩ := Json.exists_text_of_last_two (u := k)
    exact ⟨out, k, h⟩

/-! ## What concerns a run -/

theorem WorkRequest.run_eq_of_text {w w' : WorkRequest} (h : w.toJson.text = w'.toJson.text) :
    w.workflowInstanceId = w'.workflowInstanceId := by
  obtain ⟨a, ha⟩ := w.exists_text
  obtain ⟨b, hb⟩ := w'.exists_text
  exact (eq_of_uidEnding (ha.symm.trans (h.trans hb))).1

theorem StepResult.run_eq_of_text {m m' : StepResult} (h : m.toJson.text = m'.toJson.text) :
    m.workflowInstanceId = m'.workflowInstanceId := by
  obtain ⟨a, ha⟩ := m.exists_text
  obtain ⟨b, hb⟩ := m'.exists_text
  exact (eq_of_uidEnding (ha.symm.trans (h.trans hb))).1

/-- Texts whose endings are of the same length and differ are not the same. -/
theorem append_ne_append {a b c d : String} (hlen : c.length = d.length) (h : c ≠ d) :
    a ++ c ≠ b ++ d := by
  intro heq
  have hlist := congrArg String.toList heq
  rw [String.toList_append, String.toList_append] at hlist
  exact h (String.toList_inj.1 (List.append_inj' hlist hlen).2)

/-- Outcomes with the same text are of the same run and tell the same. -/
theorem DeploymentOutcome.eq_of_text {m m' : DeploymentOutcome}
    (h : m.toJson.text = m'.toJson.text) :
    m.workflowInstanceId = m'.workflowInstanceId ∧ m.ready = m'.ready := by
  obtain ⟨a, ha⟩ := m.exists_text
  obtain ⟨b, hb⟩ := m'.exists_text
  obtain ⟨hrun, hfront⟩ := eq_of_uidEnding (ha.symm.trans (h.trans hb))
  have hready := (String.append_left_inj _).1 ((String.append_left_inj _).1 hfront)
  have hdiffer : ∀ {a b : String}, a ++ (Json.bool true).text ≠ b ++ (Json.bool false).text := by
    intro a b
    have hsplit : (Json.bool false).text = "f" ++ "alse" := by decide
    rw [hsplit, ← String.append_assoc]
    exact append_ne_append (by decide) (by decide)
  refine ⟨hrun, ?_⟩
  cases htold : m.ready <;> cases htold' : m'.ready
  · rfl
  · rw [htold, htold'] at hready
    exact absurd hready.symm hdiffer
  · rw [htold, htold'] at hready
    exact absurd hready hdiffer
  · rfl

theorem RunNotification.run_eq_of_text {n n' : RunNotification}
    (h : n.toJson.text = n'.toJson.text) : n.workflowInstanceUid = n'.workflowInstanceUid := by
  have hnames : ∀ {a b : String}, a ++ Json.quote "workflowInstanceUid" ≠
      b ++ Json.quote "workflowStepInstanceUid" := by
    intro a b
    have hrun : Json.quote "workflowInstanceUid" = "\"work" ++ "flowInstanceUid\"" := by decide
    have hstep : Json.quote "workflowStepInstanceUid" =
        "\"workflow" ++ "StepInstanceUid\"" := by decide
    rw [hrun, hstep, ← String.append_assoc, ← String.append_assoc]
    exact append_ne_append (by decide) (by decide)
  rcases n.exists_text with ⟨a, ha⟩ | ⟨a, k, ha⟩ <;> rcases n'.exists_text
    with ⟨b, hb⟩ | ⟨b, k', hb⟩
  all_goals have heq := eq_of_uidEnding (ha.symm.trans (h.trans hb))
  · exact heq.1
  · exact absurd heq.2 hnames
  · exact absurd heq.2.symm hnames
  · -- The run stands before the step, which is the same.
    have hrun := (String.append_left_inj _).1 ((String.append_left_inj _).1 heq.2)
    have hending : a ++ uidEnding "workflowInstanceUid" n.workflowInstanceUid =
        b ++ uidEnding "workflowInstanceUid" n'.workflowInstanceUid := by
      have htext : ∀ u : Uid, u.toJson.text = Json.quote u.text := fun u ↦ by
        simp [Uid.toJson, Json.text, Json.printOnto]
      rw [htext, htext] at hrun
      simp only [uidEnding, ← String.append_assoc]
      rw [hrun]
    exact (eq_of_uidEnding hending).1

def About (u : Uid) : Channel → String → Prop
  | .work, text => ∃ w : WorkRequest, text = w.toJson.text ∧ w.workflowInstanceId = u
  | .results, text => ∃ m : StepResult, text = m.toJson.text ∧ m.workflowInstanceId = u
  | .deployments, text => ∃ m : DeploymentOutcome, text = m.toJson.text ∧ m.workflowInstanceId = u
  | .notifications, text => ∃ n : RunNotification, text = n.toJson.text ∧ n.workflowInstanceUid = u

/-- **A message is about one run at most.** -/
theorem About.unique {u v : Uid} {channel : Channel} {text : String} (hu : About u channel text)
    (hv : About v channel text) : u = v := by
  cases channel with
  | work =>
    obtain ⟨w, rfl, rfl⟩ := hu
    obtain ⟨w', h, rfl⟩ := hv
    exact WorkRequest.run_eq_of_text h
  | results =>
    obtain ⟨m, rfl, rfl⟩ := hu
    obtain ⟨m', h, rfl⟩ := hv
    exact StepResult.run_eq_of_text h
  | deployments =>
    obtain ⟨m, rfl, rfl⟩ := hu
    obtain ⟨m', h, rfl⟩ := hv
    exact (DeploymentOutcome.eq_of_text h).1
  | notifications =>
    obtain ⟨n, rfl, rfl⟩ := hu
    obtain ⟨n', h, rfl⟩ := hv
    exact RunNotification.run_eq_of_text h

end Orchestration
