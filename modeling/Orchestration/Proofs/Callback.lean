import Orchestration.Api.Router
import Orchestration.Proofs.Digits
import Orchestration.Proofs.Formats

/-!
# Answers at callback addresses

A function that is called at its address is told where to answer. The address names the run, the
step and the attempt; what it names comes back as a request, from which the engine reads it again.
Nothing is lost on the way, however many slashes the address of the engine ends with: the answer is
published as the result of that attempt (`respond_callbackRequest`).

An engine need not be reached at the address that it is given: requests to that address may be
passed on to it. All that is needed is that whoever passes them on puts the path of the engine's own
resource in the place of the address, and leaves the rest as it is written (`callbackTarget`).

Identifiers and numbers are written in characters that stand for themselves in a path and in a
query. That is why they can be read off without working off any escapes.
-/

namespace Orchestration

theorem Uid.toString_eq (u : Uid) : toString u = u.text := by with_reducible_and_instances rfl

namespace Api

open Engine
open Json (IsInt32)

/-! ## Texts without escapes -/

theorem toList_loop (bytes : ByteArray) (i : Nat) (before : List UInt8) :
    ByteArray.toList.loop bytes i before = before.reverse ++ bytes.data.toList.drop i := by
  fun_induction ByteArray.toList.loop bytes i before with
  | case1 i before h ih =>
    have hi : i < bytes.data.toList.length := h
    have hget : bytes.get! i = bytes.data.toList[i] := getElem!_pos bytes.data i h
    rw [ih, List.reverse_cons, List.append_assoc, hget, List.drop_eq_getElem_cons hi]
    rfl
  | case2 i before h => rw [List.drop_eq_nil_of_le (Nat.le_of_not_lt h), List.append_nil]

theorem unescapedBytes_of_not_mem {cs : List Char} (h : '%' ∉ cs) :
    unescapedBytes cs = cs.flatMap String.utf8EncodeChar := by
  induction cs with
  | nil => rw [unescapedBytes, List.flatMap_nil]
  | cons c rest ih =>
    obtain ⟨hc, hrest⟩ := List.ne_and_not_mem_of_not_mem_cons h
    have hbytes : c.toString.toUTF8.toList = String.utf8EncodeChar c := by
      refine (toList_loop _ 0 []).trans ?_
      rw [String.toUTF8_eq_toByteArray, Char.toString,
        String.toByteArray_singleton, List.utf8Encode, List.data_toByteArray,
        List.flatMap_singleton]
      rfl
    rw [unescapedBytes, List.flatMap_cons, ih hrest, hbytes]
    rintro _ _ _ rfl
    exact absurd rfl hc

theorem unescape?_of_not_mem {s : String} (h : '%' ∉ s.toList) : unescape? s = some s := by
  have hbytes : (⟨(unescapedBytes s.toList).toArray⟩ : ByteArray) = s.toByteArray := by
    rw [unescapedBytes_of_not_mem h, ← String.utf8Encode_toList]
    exact ByteArray.ext List.data_toByteArray.symm
  rw [unescape?, hbytes, String.fromUTF8?, dif_pos s.isValidUTF8]
  rfl

/-- A name and a value without escapes are read off a query as they are written. -/
theorem queryPart_of_plain {name value : List Char} (hname : '=' ∉ name)
    (h : ∀ c ∈ name ++ '=' :: value, c ≠ '+' ∧ c ≠ '%') :
    Request.queryPart (String.ofList (name ++ '=' :: value)) =
      (String.ofList name, String.ofList value) := by
  have hmap : (name ++ '=' :: value).map (fun c ↦ if c = '+' then ' ' else c) =
      name ++ '=' :: value := by
    rw [List.map_congr_left fun c hc ↦ if_neg (h c hc).1, List.map_id']
  have hstop : ∀ c ∈ name, decide (c ≠ '=') = true :=
    fun c hc ↦ decide_eq_true fun heq ↦ hname (heq ▸ hc)
  have hdecode {cs : List Char} (hcs : ∀ c ∈ cs, c ∈ name ++ '=' :: value) :
      unescape? (String.ofList cs) = some (String.ofList cs) := by
    refine unescape?_of_not_mem fun hmem ↦ ?_
    rw [String.toList_ofList] at hmem
    exact (h _ (hcs _ hmem)).2 rfl
  have hvalue : value ⊆ name ++ '=' :: value :=
    List.subset_append_of_subset_right _ (List.subset_cons_self _ _)
  simp only [Request.queryPart, String.toList_ofList, hmap]
  rw [List.takeWhile_append_of_pos hstop, List.dropWhile_append_of_pos hstop,
    List.takeWhile_cons_of_neg (by decide), List.dropWhile_cons_of_neg (by decide), List.append_nil,
    List.drop_one, List.tail_cons, hdecode (List.subset_append_left _ _), hdecode hvalue]
  rfl

theorem ne_of_mem_text {u : Uid} {c d : Char} (hc : c ∈ u.text.toList) (hd : d ∈ ['/', '?', '%']) :
    c ≠ d := by
  have hdigits : ∀ n < 16, Nat.digitChar n ∉ ['/', '?', '%'] := by decide
  have hhyphen : '-' ∉ ['/', '?', '%'] := by decide
  rintro rfl
  rcases Uid.isDigit_or_of_mem_text hc with ⟨n, hn, rfl⟩ | rfl
  · exact hdigits n hn hd
  · exact hhyphen hd

theorem not_mem_text {u : Uid} {d : Char} (hd : d ∈ ['/', '?', '%']) : d ∉ u.text.toList :=
  fun h ↦ ne_of_mem_text h hd rfl

theorem uid_text (u : Uid) : uid u.text = .ok u := by
  rw [uid, unescape?_of_not_mem (not_mem_text (by decide)), Option.bind_some, Uid.parse?_text]

/-! ## The request that an answer comes with -/

/-- What is asked of an engine at an address below one that is passed on to it. -/
def callbackTarget (base address : String) : String :=
  "/api/callback" ++ String.ofList (address.toList.drop (Http.withoutSlashes base).toList.length)

/-- The request with which a function answers at an address that it has been given. -/
def callbackRequest (base address body : String) : Request :=
  { method := "POST"
    target := callbackTarget base address
    contentType := some "application/json"
    body }

section Parts

variable (base body : String) (run step : Uid) (attempt : Int)

/-- The path of the resource for the results of a step. -/
def resultsPath : List Char :=
  "/api/callback/".toList ++ (run.text.toList ++ '/' :: step.text.toList)

/-- The query with the number of an attempt. -/
def attemptQuery : List Char := "attempt".toList ++ '=' :: (toString attempt).toList

theorem toList_target :
    (callbackRequest base (callbackAddress base run step attempt) body).target.toList =
    resultsPath run step ++ '?' :: attemptQuery attempt := by
  have haddress : callbackAddress base run step attempt = Http.withoutSlashes base ++
      ("/" ++ toString run ++ "/" ++ toString step ++ "?attempt=" ++ toString attempt) := by
    simp only [← String.append_assoc]
    rfl
  rw [Uid.toString_eq, Uid.toString_eq] at haddress
  unfold resultsPath attemptQuery
  show (callbackTarget base (callbackAddress base run step attempt)).toList = _
  -- What the identifiers and the number are does not matter.
  generalize run.text = run at haddress ⊢
  generalize step.text = step at haddress ⊢
  generalize toString attempt = attempt at haddress ⊢
  rw [callbackTarget, haddress]
  simp

theorem ne_of_mem_resultsPath {c : Char} (hc : c ∈ resultsPath run step) :
    decide (c ≠ '?') = true := by
  have hfirst : ∀ c ∈ "/api/callback/".toList, c ≠ '?' := by simp
  refine decide_eq_true ?_
  rcases List.mem_append.1 hc with hc | hc
  · exact hfirst c hc
  rcases List.mem_append.1 hc with hc | hc
  · exact ne_of_mem_text hc (by decide)
  rcases List.mem_cons.1 hc with rfl | hc
  · decide
  · exact ne_of_mem_text hc (by decide)

theorem segments_callbackRequest :
    (callbackRequest base (callbackAddress base run step attempt) body).segments =
      ["", "api", "callback", run.text, step.text] := by
  have hslash (u : Uid) : '/' ∉ u.text.toList := not_mem_text (by decide)
  have hparts : resultsPath run step = [] ++ '/' :: ("api".toList ++ '/' :: ("callback".toList ++
      '/' :: (run.text.toList ++ '/' :: step.text.toList))) := by
    unfold resultsPath
    generalize run.text.toList ++ '/' :: step.text.toList = rest
    simp
  rw [Request.segments, Request.path, toList_target,
    List.takeWhile_append_of_pos fun c hc ↦ ne_of_mem_resultsPath run step hc,
    List.takeWhile_cons_of_neg (by decide), List.append_nil, String.toList_ofList, hparts,
    List.splitOn_append_cons_self_of_not_mem (by decide),
    List.splitOn_append_cons_self_of_not_mem (by decide),
    List.splitOn_append_cons_self_of_not_mem (by decide),
    List.splitOn_append_cons_self_of_not_mem (hslash run), List.splitOn_eq_singleton (hslash step)]
  simp

theorem attempt_callbackRequest (h : IsInt32 attempt) :
    (callbackRequest base (callbackAddress base run step attempt) body).attempt =
      .ok (some attempt) := by
  have hquery : (callbackRequest base (callbackAddress base run step attempt) body).query =
      String.ofList (attemptQuery attempt) := by
    rw [Request.query, toList_target,
      List.dropWhile_append_of_pos fun c hc ↦ ne_of_mem_resultsPath run step hc,
      List.dropWhile_cons_of_neg (by decide), List.drop_one, List.tail_cons]
  have hplain : ∀ c ∈ attemptQuery attempt, c ∉ ['&', '+', '%'] := by
    intro c hc
    have hname : ∀ c ∈ "attempt".toList, c ∉ ['&', '+', '%'] := by simp
    rcases List.mem_append.1 hc with hc | hc
    · exact hname c hc
    rcases List.mem_cons.1 hc with rfl | hc
    · decide
    rcases Decimal.isDigit_or_of_mem_toString hc with hdigit | rfl
    · have hother : ∀ c ∈ ['&', '+', '%'], c.isDigit = false := by simp
      exact fun hmem ↦ Bool.false_ne_true ((hother c hmem).symm.trans hdigit)
    · decide
  have hpart : Request.queryPart (String.ofList (attemptQuery attempt)) =
      ("attempt", toString attempt) := by
    refine (queryPart_of_plain (by decide) fun c hc ↦ ?_).trans ?_
    · constructor <;> rintro rfl <;> exact hplain _ hc (by decide)
    · rw [String.ofList_toList, String.ofList_toList]
  have hne : String.ofList (attemptQuery attempt) ≠ "" := by
    intro hempty
    have hnil := congrArg String.toList hempty
    rw [String.toList_ofList] at hnil
    exact List.append_ne_nil_of_right_ne_nil _ (List.cons_ne_nil _ _) hnil
  have hvalues : (callbackRequest base (callbackAddress base run step attempt) body).queryValues
      "attempt" = [toString attempt] := by
    rw [Request.queryValues, hquery, String.toList_ofList,
      List.splitOn_eq_singleton fun h ↦ hplain _ h (by decide)]
    simp [hne, hpart]
  rw [Request.attempt, hvalues]
  dsimp only
  rw [Decimal.signed?_toString h]

end Parts

/-! ## What the engine does with an answer -/

variable {setup : Setup} {base body : String} {run step : Uid} {attempt : Int} {b : CallbackBody}

theorem hasDocument_of_json {r : Request} (h : r.contentType = some "application/json") :
    r.hasDocument = true := by
  rw [Request.hasDocument, h]
  decide

/-- What an answer says is read off the request with which it comes. -/
theorem stepResult_callbackRequest (h : IsInt32 attempt)
    (hbody : (Json.parse? body).bind CallbackBody.decode = some b) :
    stepResult (callbackRequest base (callbackAddress base run step attempt) body)
      run.text step.text = .ok (b.toResult run step (some attempt)) := by
  have hdocument : (callbackRequest base (callbackAddress base run step attempt) body).document
      callbackFields CallbackBody.decode = .ok b := by
    have htype :
        (callbackRequest base (callbackAddress base run step attempt) body).hasDocument = true :=
      hasDocument_of_json rfl
    have hread :
        (Json.parse? (callbackRequest base (callbackAddress base run step attempt) body).body).bind
        CallbackBody.decode = some b := hbody
    unfold Request.document
    rw [htype, hread]
    rfl
  simp only [stepResult, uid_text, attempt_callbackRequest _ _ _ _ _ h, hdocument]
  rfl

/-- **An answer is published as the result of the attempt that its address names.** -/
theorem respond_callbackRequest (health : Health) (h : IsInt32 attempt)
    (hbody : (Json.parse? body).bind CallbackBody.decode = some b) :
    respond setup health (callbackRequest base (callbackAddress base run step attempt) body) =
      replyWith (accept (b.toResult run step (some attempt))) := by
  have hne (u : Uid) : u.text.isEmpty = false := by
    refine Bool.eq_false_iff.2 fun hempty ↦ ?_
    have hlength := u.length_text
    rw [String.isEmpty_iff.1 hempty] at hlength
    cases hlength
  have hresource : Resource.ofSegments?
      (callbackRequest base (callbackAddress base run step attempt) body).segments =
        some (.stepResults run.text step.text) := by
    rw [segments_callbackRequest]
    simp [Resource.ofSegments?, hne]
  have hmethod : (callbackRequest base (callbackAddress base run step attempt) body).method =
      "POST" := rfl
  unfold respond
  rw [hresource, hmethod]
  simp only [Resource.isRead, serve, stepResult_callbackRequest h hbody]
  rfl

end Api

end Orchestration
