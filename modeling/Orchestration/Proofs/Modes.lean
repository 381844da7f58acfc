import Orchestration.Proofs.Callback
import Orchestration.Proofs.Collaborators
import Orchestration.Proofs.Dispatching
import Orchestration.Proofs.Parsing

/-!
# The way of handing work over does not matter

An engine that publishes its work and one that calls the functions take runs through the same
states. To say so, both are put into the same surroundings (`Surroundings`), and the same happens to
both: operations are begun and messages are handed out, and what has been begun makes its calls one
at a time, in any order (`Event`). Functions answer, as often as they like and for whichever
attempts. Where work is published, the answer to it is published too; where functions are called, it
comes as a request to the address that the call has named.

The two engines stay in step (`Situation.Matches`): they have the same tables, what they have begun
corresponds, and what they have sent off is the same, but for work. One step keeps this
(`Situation.Matches.after`), so all of a course does.

An answer that comes as a request is written down once more before it is handled. So this needs that
what an answer says can be read off what the engine writes (`FunctionAnswer.IsReadBack`). It can,
but for its floating-point numbers (`FunctionAnswer.isReadBack_of_floats`): the nearest number to
what is written is not always the one that is read, and the number of `roundedAnswer` arrives
differently (`course_ne_of_roundedAnswer`).
-/

namespace Orchestration

namespace Engine

open Json (IsInt32 Reader bounded_of_parse? floatsMembers parse? printMembers_cons
  printMembers_singleton text_obj)

variable {σ : Type} {base : String} {setup : Setup}

/-! ## Surroundings -/

/-- What is around an engine, its store aside. Work that is published and functions that are called
are accepted, and nobody looks into a result before it is handled. -/
structure Surroundings (σ : Type) where
  /-- What a call is answered. -/
  reply : (c : Call) → σ → c.Answer × σ
  /-- What a function answers to being called, at an address and with a document. -/
  accept : String → String → σ → Http.Response
  isSuccess_accept : ∀ address body s, (accept address body s).isSuccess = true
  addressed : ∀ (c : Call) (s : σ), c.Addressed (reply c s).1
  unread : ∀ payload payload' s,
    reply (.publish .results payload) s = reply (.publish .results payload') s

/-- An engine at work in its surroundings. -/
structure Situation (σ : Type) where
  tables : Store.Tables
  /-- The state of the surroundings. -/
  others : σ
  /-- What has been sent off. -/
  sent : List Parcel := []
  /-- What has been begun, as far as it has yet to be carried out. -/
  programs : List (Rest Unit) := []

namespace Situation

/-- The situation after a parcel has been sent off, if it was taken. -/
def send (s : Situation σ) (p : Parcel) (accepted : Bool) : Situation σ :=
  { s with sent := if accepted then s.sent ++ [p] else s.sent }

/-- The situation after a program has been begun. -/
def begin (s : Situation σ) (p : Rest Unit) : Situation σ :=
  { s with programs := s.programs ++ [p] }

end Situation

namespace Surroundings

variable (u : Surroundings σ)

/-- Publishes a message that is no work. -/
def publish (channel : Channel) (payload : String) (s : Situation σ) :
    Except EngineError Unit × Situation σ :=
  let r := u.reply (.publish channel payload) s.others
  (r.1, Situation.send { s with others := r.2 } (.message channel payload) (Except.isOk r.1))

def answer : (c : Call) → Situation σ → c.Answer × Situation σ
  | .store c, s => ((s.tables.answer c).1, { s with tables := (s.tables.answer c).2 })
  | .publish .work payload, s => (.ok (), s.send (.message .work payload) true)
  | .publish channel payload, s => u.publish channel payload s
  | .post address body, s =>
    (.ok (u.accept address body s.others), s.send (.request address body) true)
  | c, s => ((u.reply c s.others).1, { s with others := (u.reply c s.others).2 })

end Surroundings

/-! ## Answers of functions -/

/-- What a function answers for an attempt, as an executor publishes it and as the function posts
it. -/
structure FunctionAnswer where
  run : Uid
  step : Uid
  attempt : Int
  body : CallbackBody
  /-- What an executor publishes. -/
  published : String
  /-- What the function posts. -/
  posted : String
  decode_published : decodePayload StepResult.decode published =
    .ok (body.toResult run step (some attempt))
  decode_posted : (parse? posted).bind CallbackBody.decode = some body

namespace FunctionAnswer

def result (a : FunctionAnswer) : StepResult := a.body.toResult a.run a.step (some a.attempt)

/-- What an answer says is read off what the engine writes. -/
def IsReadBack (a : FunctionAnswer) : Prop :=
  decodePayload StepResult.decode a.result.toJson.text = .ok a.result

/-- The floating-point numbers in the data of an answer. -/
def floats (a : FunctionAnswer) : List Float :=
  floatsMembers a.body.inputData ++ floatsMembers a.body.outputData

theorem fits (a : FunctionAnswer) : a.result.Fits := by
  have h := a.decode_published
  unfold decodePayload at h
  split at h
  · next m hm =>
    obtain ⟨j, -, hm⟩ := Option.bind_eq_some_iff.1 hm
    have hsame : m = a.result := Except.ok.inj h
    exact hsame ▸ StepResult.faithful.fits hm
  · cases h

theorem isInt32_attempt (a : FunctionAnswer) : IsInt32 a.attempt := a.fits.attempt _ rfl

/-- **All but floating-point numbers is read back.** -/
theorem isReadBack_of_floats {a : FunctionAnswer} (h : ∀ x ∈ a.floats, Reader.IsReadAsWritten x) :
    a.IsReadBack := by
  obtain ⟨j, hj, hbody⟩ := Option.bind_eq_some_iff.1 a.decode_posted
  obtain ⟨hinput, houtput⟩ :=
    CallbackBody.bounded_of_decode hbody (bounded_of_parse? hj) (by decide)
  have hbounded : a.result.toJson.Bounded Reader.maxDepth :=
    StepResult.bounded_toJson hinput houtput a.fits.attempt
  have hread := StepResult.decode_parse?_text a.fits hbounded fun x hx ↦
    h x (List.mem_append.2 (StepResult.floats_toJson hx))
  rw [IsReadBack, decodePayload, hread]

/-- How an answer arrives: it is published, or posted to the address that the call has named. -/
def arrival (setup : Setup) (health : Api.Health) (a : FunctionAnswer) : DispatchMode → Rest Unit
  | .queue => Program.ask (.publish .results a.published) >>= fun _ ↦ .done ()
  | .push =>
    Api.respond (setup.inMode .push) health (Api.callbackRequest setup.callbackUrl
      (callbackAddress setup.callbackUrl a.run a.step a.attempt) a.posted) >>= fun _ ↦ .done ()

/-- The words in which an answer is published in the end. -/
def wording (a : FunctionAnswer) : DispatchMode → String
  | .queue => a.published
  | .push => a.result.toJson.text

theorem arrival_eq (a : FunctionAnswer) (setup : Setup) (health : Api.Health)
    (mode : DispatchMode) : a.arrival setup health mode =
      Program.ask (.publish .results (a.wording mode)) >>= fun _ ↦ .done () := by
  cases mode with
  | queue => rfl
  | push =>
    have hrespond := @Api.respond_callbackRequest (setup.inMode .push) setup.callbackUrl
      a.posted a.run a.step a.attempt a.body health a.isInt32_attempt a.decode_posted
    unfold arrival
    dsimp only
    rw [hrespond]
    refine congrArg (Program.call _) (funext fun answer ↦ ?_)
    cases answer with
    | ok | error => rfl

end FunctionAnswer

/-! ## Courses -/

/-- What happens. -/
inductive Event where
  /-- An operation is begun. -/
  | operate (o : Operation)
  /-- One of the messages that have been sent is handed out, perhaps once more. -/
  | deliver (n : Nat)
  /-- A function answers. -/
  | answer (a : FunctionAnswer)
  /-- One of the programs that have been begun makes its next call. -/
  | turn (i : Nat)

variable (u : Surroundings σ) (setup : Setup) (health : Api.Health) (mode : DispatchMode)

/-- What begins when a parcel is handed out. -/
def Parcel.opening (p : Parcel) : Rest Unit :=
  match p with
  | .message .results payload => (setup.inMode mode).handle .results payload >>= fun _ ↦ .done ()
  | .message .deployments payload =>
    (setup.inMode mode).handle .deployments payload >>= fun _ ↦ .done ()
  | .message .work _ | .message .notifications _ | .request .. => .done ()

namespace Situation

/-- The situation after something has happened. -/
def after (s : Situation σ) : Event → Situation σ
  | .operate o => s.begin ((o.action (setup.inMode mode)).run >>= fun _ ↦ .done ())
  | .deliver n =>
    match s.sent[n]? with
    | some p => s.begin (p.opening setup mode)
    | none => s
  | .answer a => s.begin (a.arrival setup health mode)
  | .turn i =>
    match s.programs[i]? with
    | some (.call c next) =>
      { (u.answer c s).2 with programs := s.programs.set i (next (u.answer c s).1) }
    | _ => s

/-- The situations that an engine comes to. -/
def course : Situation σ → List Event → List (Situation σ)
  | s, [] => [s]
  | s, e :: events => s :: course (s.after u setup health mode e) events

theorem getLast?_course (s : Situation σ) (events : List Event) :
    (s.course u setup health mode events).getLast? =
      some (events.foldl (after u setup health mode) s) := by
  induction events generalizing s with
  | nil => rfl
  | cons e rest ih =>
    rw [course, List.getLast?_cons, ih]
    rfl

end Situation

/-! ## Engines in step -/

/-- Two engines have sent off the same, but for work, and for the words of results. -/
inductive Parcel.Matches (base : String) : Parcel → Parcel → Prop where
  | same (p : Parcel) : Matches base p p
  | handOver {w : WorkRequest} {url : String} {q : PushRequest} (hurl : w.serviceUrl = some url)
      (hq : Calls base w q) :
      Matches base (.message .work w.toJson.text) (.request url q.toJson.text)
  | result {m : StepResult} {payload payload' : String}
      (hm : decodePayload StepResult.decode payload = .ok m)
      (hm' : decodePayload StepResult.decode payload' = .ok m) :
      Matches base (.message .results payload) (.message .results payload')

/-- Two engines are in step. -/
structure Situation.Matches (base : String) (s s' : Situation σ) : Prop where
  tables : s.tables = s'.tables
  others : s.others = s'.others
  sent : List.Forall₂ (Parcel.Matches base) s.sent s'.sent
  programs : List.Forall₂ (Corresponds base) s.programs s'.programs

namespace Situation.Matches

variable {u : Surroundings σ} {s s' : Situation σ}

theorem withTables (h : s.Matches base s') (tables : Store.Tables) :
    Matches base { s with tables } { s' with tables } := ⟨rfl, h.others, h.sent, h.programs⟩

theorem withOthers (h : s.Matches base s') (others : σ) :
    Matches base { s with others } { s' with others } := ⟨h.tables, rfl, h.sent, h.programs⟩

theorem send (h : s.Matches base s') {p p' : Parcel} (hp : p.Matches base p') (accepted : Bool) :
    (s.send p accepted).Matches base (s'.send p' accepted) where
  tables := h.tables
  others := h.others
  sent := by
    cases accepted with
    | true => exact List.rel_append h.sent (.cons hp .nil)
    | false => exact h.sent
  programs := h.programs

theorem begin (h : s.Matches base s') {p p' : Rest Unit} (hp : Corresponds base p p') :
    (s.begin p).Matches base (s'.begin p') where
  tables := h.tables
  others := h.others
  sent := h.sent
  programs := List.rel_append h.programs (.cons hp .nil)

theorem publish (h : s.Matches base s') {channel : Channel} {payload payload' : String}
    (hp : Parcel.Matches base (.message channel payload) (.message channel payload'))
    (hreply : ∀ s, u.reply (.publish channel payload) s = u.reply (.publish channel payload') s) :
    (u.publish channel payload s).1 = (u.publish channel payload' s').1 ∧
      (u.publish channel payload s).2.Matches base (u.publish channel payload' s').2 := by
  unfold Surroundings.publish
  rw [h.others, hreply]
  exact ⟨rfl, (h.withOthers _).send hp _⟩

/-- Engines in step are answered the same to the same call, and stay in step. -/
theorem answer (h : s.Matches base s') {c : Call} (hc : c.handsOver = false) :
    (u.answer c s).1 = (u.answer c s').1 ∧ (u.answer c s).2.Matches base (u.answer c s').2 := by
  cases c with
  | store c =>
    simp only [Surroundings.answer, h.tables, true_and]
    exact h.withTables _
  | publish channel payload =>
    cases channel with
    | work => cases hc
    | results | deployments | notifications => exact h.publish (.same _) fun _ ↦ rfl
  | post => cases hc
  | getFunction | deployFunction | getWorkflow | getStepList | now | newUid | spawn =>
    simp only [Surroundings.answer, h.others, true_and]
    exact h.withOthers _

end Situation.Matches

theorem Surroundings.addressed_answer (u : Surroundings σ) (c : Call) (s : Situation σ) :
    c.Addressed (u.answer c s).1 := by
  cases c with
  | getFunction f => exact u.addressed (.getFunction f) s.others
  | store | publish | deployFunction | getWorkflow | getStepList | post | now | newUid | spawn =>
    trivial

/-! ## In step -/

section Forall₂

variable {α β : Type} {R : α → β → Prop} {l : List α} {l' : List β}

/-- What stands at a place of two lists that are related, if anything does. -/
theorem getElem?_of_forall₂ (h : List.Forall₂ R l l') (i : Nat) :
    (l[i]? = none ∧ l'[i]? = none) ∨ ∃ a b, l[i]? = some a ∧ l'[i]? = some b ∧ R a b := by
  induction h generalizing i with
  | nil => exact .inl ⟨rfl, rfl⟩
  | @cons a b _ _ hab _ ih =>
    cases i with
    | zero => exact .inr ⟨a, b, rfl, rfl, hab⟩
    | succ i => exact ih i

theorem set_of_forall₂ (h : List.Forall₂ R l l') (i : Nat) {a : α} {b : β} (hab : R a b) :
    List.Forall₂ R (l.set i a) (l'.set i b) := by
  induction h generalizing i with
  | nil => exact .nil
  | cons hxy hrest ih =>
    cases i with
    | zero => exact .cons hab hrest
    | succ i => exact .cons hxy (ih i)

end Forall₂

namespace Situation.Matches

variable {u : Surroundings σ} {setup : Setup} {health : Api.Health} {s s' : Situation σ}

theorem turn (h : s.Matches base s') (i : Nat) :
    (s.after u setup health .queue (.turn i)).Matches base
      (s'.after u setup health .push (.turn i)) := by
  obtain ⟨hi, hi'⟩ | ⟨p, p', hi, hi', hp⟩ := getElem?_of_forall₂ h.programs i
  · simp only [after, hi, hi']
    exact h
  simp only [after, hi, hi']
  cases hp with
  | done x => exact h
  | call hc rest =>
    obtain ⟨hsame, hnext⟩ := h.answer (u := u) hc
    refine ⟨hnext.tables, hnext.others, hnext.sent, set_of_forall₂ h.programs i ?_⟩
    rw [← hsame]
    exact rest _ (u.addressed_answer _ s)
  | handOver hurl hq rest =>
    have hsent := h.send (.handOver hurl hq) true
    exact ⟨hsent.tables, hsent.others, hsent.sent,
      set_of_forall₂ h.programs i (rest _ (u.isSuccess_accept ..))⟩
  | result hm hm' rest =>
    obtain ⟨hsame, hnext⟩ := h.publish (u := u) (.result hm hm') (u.unread _ _)
    refine ⟨hnext.tables, hnext.others, hnext.sent, set_of_forall₂ h.programs i ?_⟩
    exact hsame ▸ rest _

theorem corresponds_opening {p p' : Parcel} (hp : p.Matches setup.callbackUrl p') :
    Corresponds setup.callbackUrl (p.opening setup .queue) (p'.opening setup .push) := by
  cases hp with
  | same =>
    cases p with
    | message channel payload =>
      cases channel with
      | results | deployments => exact (corresponds_handle ..).bind fun _ ↦ .done _
      | work | notifications => exact .done _
    | request => exact .done _
  | handOver => exact .done _
  | result hm hm' => exact (corresponds_handle_results hm hm').bind fun _ ↦ .done _

theorem corresponds_arrival {a : FunctionAnswer} (ha : a.IsReadBack) :
    Corresponds setup.callbackUrl (a.arrival setup health .queue)
      (a.arrival setup health .push) := by
  rw [a.arrival_eq, a.arrival_eq]
  exact .result a.decode_published ha fun _ ↦ .done _

/-- **Engines that are in step stay so**, whatever happens to both. -/
theorem after (h : s.Matches setup.callbackUrl s') {e : Event}
    (he : ∀ a, e = .answer a → a.IsReadBack) :
    (s.after u setup health .queue e).Matches setup.callbackUrl
      (s'.after u setup health .push e) := by
  cases e with
  | operate o => exact h.begin (Corresponds.bind (agree_operation o) fun _ ↦ .done _)
  | deliver n =>
    obtain ⟨hn, hn'⟩ | ⟨p, p', hn, hn', hp⟩ := getElem?_of_forall₂ h.sent n
    · simp only [Situation.after, hn, hn']
      exact h
    · simp only [Situation.after, hn, hn']
      exact h.begin (corresponds_opening hp)
  | answer a => exact h.begin (corresponds_arrival (he a rfl))
  | turn i => exact h.turn i

theorem course {events : List Event} (hevents : ∀ a, .answer a ∈ events → a.IsReadBack)
    (h : s.Matches setup.callbackUrl s') :
    List.Forall₂ (Matches setup.callbackUrl) (s.course u setup health .queue events)
      (s'.course u setup health .push events) := by
  induction events generalizing s s' with
  | nil => exact .cons h .nil
  | cons e rest ih =>
    refine .cons h (ih (fun a ha ↦ hevents a (List.mem_cons_of_mem _ ha)) (h.after fun a ha ↦ ?_))
    exact hevents a (ha ▸ List.mem_cons_self)

end Situation.Matches

/-! ## Fixed surroundings -/

/-- Surroundings in which all but new identifiers is fixed: as many as say have been handed out. -/
def Collaborators.surroundings (k : Collaborators)
    (h : ∀ function f, k.function function = .ok f → f.serviceUrl.isSome = true) :
    Surroundings Nat where
  reply c n :=
    (k.answer { issued := (List.range n).map World.nthUid } c, if c = .newUid then n + 1 else n)
  accept _ _ _ := { status := 202, body := "" }
  isSuccess_accept _ _ _ := rfl
  addressed c n := by
    cases c with
    | getFunction function => exact h function
    | store | publish | deployFunction | getWorkflow | getStepList | post | now | newUid | spawn =>
      trivial
  unread _ _ _ := rfl

/-- Collaborators that know `callThenLoop` and its function, which can be called at an address. -/
def reachable : Surroundings Nat :=
  (Collaborators.single { deployedFunction with serviceUrl := some "http://work" }
    callThenLoop).surroundings fun _ _ hf ↦ Except.ok.inj hf ▸ rfl

/-- An answer arrives, and its result is applied. -/
def arrivalOf (a : FunctionAnswer) : List Event :=
  [.answer a, .turn 0, .deliver 0] ++ List.replicate 3 (.turn 1)

theorem decodePayload_of_toList {decode : Json.Decoder α} {payload : String}
    {cs : List Char} {a : α} (hpayload : payload.toList = cs)
    (h : ((cs.foldlM Reader.step {}).bind Reader.finish).bind decode = some a) :
    decodePayload decode payload = .ok a := by
  rw [decodePayload, parse?, hpayload, h]

def wholeAnswer : FunctionAnswer where
  run := World.nthUid 0
  step := World.nthUid 1
  attempt := 1
  body := { runStatus := .completed, outputData := [("v", .int 3)] }
  published := "\x7b\"stepInstanceId\":" ++ "\"f0000000-0000-4000-8000-000000000001\"," ++
    "\"workflowInstanceId\":" ++ "\"f0000000-0000-4000-8000-000000000000\"," ++
    "\"runStatus\":\"COMPLETED\"," ++ "\"outputData\":\x7b\"v\":3\x7d,\"attempt\":1\x7d"
  posted := "\x7b\"runStatus\":\"COMPLETED\",\"outputData\":\x7b\"v\":3\x7d\x7d"
  decode_published := decodePayload_of_toList (by simp only [String.toList_append]; rfl)
    (by decide +kernel)
  decode_posted := by decide +kernel

/-- An answer with a number that is not read as it is written. -/
def roundedAnswer : FunctionAnswer where
  run := World.nthUid 0
  step := World.nthUid 1
  attempt := 1
  body :=
    { runStatus := .completed, outputData := [("v", .float (Float.ofBits 4110281485611768499))] }
  published := "\x7b\"stepInstanceId\":" ++ "\"f0000000-0000-4000-8000-000000000001\"," ++
    "\"workflowInstanceId\":" ++ "\"f0000000-0000-4000-8000-000000000000\"," ++
    "\"runStatus\":\"COMPLETED\"," ++
    "\"outputData\":\x7b\"v\":6.416538378762727e-34\x7d,\"attempt\":1\x7d"
  posted := "\x7b\"runStatus\":\"COMPLETED\",\"outputData\":\x7b\"v\":6.416538378762727e-34\x7d\x7d"
  decode_published := decodePayload_of_toList (by simp only [String.toList_append]; rfl)
    (by decide +kernel)
  decode_posted := by decide +kernel

/-- An answer has arrived, and its result is about to be handled. -/
theorem foldl_arrival (a : FunctionAnswer) (mode : DispatchMode) (tables : Store.Tables) (n : Nat) :
    [.answer a, .turn 0, .deliver 0].foldl (Situation.after reachable queueSetup default mode)
        { tables, others := n } =
      { tables
        others := n
        sent := [.message .results (a.wording mode)]
        programs :=
          [.done (), Parcel.opening queueSetup mode (.message .results (a.wording mode))] } := by
  simp only [List.foldl_cons, List.foldl_nil, Situation.after, a.arrival_eq]
  rfl

/-- The number is read as another one when it has been written once more. -/
theorem decode_wording_roundedAnswer :
    decodePayload StepResult.decode (roundedAnswer.wording .push) = .ok { roundedAnswer.result with
      outputData := [("v", .float (Float.ofBits 4110281485611768500))] } := by
  have hdocument : roundedAnswer.result.toJson = .obj [("attempt", .int 1), ("inputData", .obj []),
      ("outputData", .obj [("v", .float (Float.ofBits 4110281485611768499))]),
      ("runStatus", .str "COMPLETED"),
        ("stepInstanceId", .str "f0000000-0000-4000-8000-000000000001"),
      ("workflowInstanceId", .str "f0000000-0000-4000-8000-000000000000")] := by
    decide +kernel
  rw [FunctionAnswer.wording, hdocument, decodePayload, parse?, text_obj]
  simp only [printMembers_cons, printMembers_singleton, String.toList_append]
  decide +kernel

/-! ## The way of handing work over -/

/-- **Runs go through the same states, however their work is handed over**, if what functions answer
is read back. What is sent off is the same but for work, and every answer is published as the result
of the attempt that its address names, whatever the address of the engine is. -/
theorem course_eq_of_isReadBack (u : Surroundings σ) (setup : Setup) (health : Api.Health)
    (tables : Store.Tables) (others : σ) (events : List Event)
    (hevents : ∀ a, .answer a ∈ events → a.IsReadBack) :
    (Situation.course u setup health .queue { tables, others } events).map (·.tables) =
        (Situation.course u setup health .push { tables, others } events).map (·.tables) ∧
      List.Forall₂ (fun s s' ↦ List.Forall₂ (Parcel.Matches setup.callbackUrl) s.sent s'.sent)
        (Situation.course u setup health .queue { tables, others } events)
        (Situation.course u setup health .push { tables, others } events) ∧
      ∀ (base : String) (a : FunctionAnswer),
        Api.respond setup health (Api.callbackRequest base
            (callbackAddress base a.run a.step a.attempt) a.posted) =
          Api.replyWith (Api.accept a.result) := by
  have hstart : Situation.Matches setup.callbackUrl { tables, others }
      ({ tables, others } : Situation σ) :=
    ⟨rfl, rfl, .nil, .nil⟩
  have hcourse : List.Forall₂ (Situation.Matches setup.callbackUrl)
      (Situation.course u setup health .queue { tables, others } events)
      (Situation.course u setup health .push { tables, others } events) := hstart.course hevents
  refine ⟨?_, hcourse.imp fun _ _ h ↦ h.sent, fun base a ↦
    Api.respond_callbackRequest health a.isInt32_attempt a.decode_posted⟩
  rw [← List.forall₂_eq_eq_eq, List.forall₂_map_left_iff, List.forall₂_map_right_iff]
  exact hcourse.imp fun _ _ h ↦ h.tables

theorem course_eq_of_wholeAnswer :
    (∀ a, .answer a ∈ arrivalOf wholeAnswer → a.IsReadBack) ∧
      (Situation.course reachable queueSetup default .queue
            { tables := underwayScene.tables, others := 3 } (arrivalOf wholeAnswer)).map
              (·.tables) =
        (Situation.course reachable queueSetup default .push
            { tables := underwayScene.tables, others := 3 } (arrivalOf wholeAnswer)).map
              (·.tables) := by
  have hevents : ∀ a, .answer a ∈ arrivalOf wholeAnswer → a.IsReadBack := by
    intro a ha
    obtain rfl : a = wholeAnswer := by simpa [arrivalOf] using ha
    exact FunctionAnswer.isReadBack_of_floats nofun
  exact ⟨hevents, (course_eq_of_isReadBack reachable queueSetup default underwayScene.tables 3
    (arrivalOf wholeAnswer) hevents).1⟩

/-- An answer with a number that is not read as it is written leaves other records behind where it
comes as a request: there the number is read twice. -/
theorem course_ne_of_roundedAnswer :
    (Situation.course reachable queueSetup default .queue
        { tables := underwayScene.tables, others := 3 } (arrivalOf roundedAnswer)).map (·.tables) ≠
      (Situation.course reachable queueSetup default .push
        { tables := underwayScene.tables, others := 3 } (arrivalOf roundedAnswer)).map
        (·.tables) := by
  intro h
  have hlast := congrArg List.getLast? h
  rw [List.getLast?_map, List.getLast?_map, Situation.getLast?_course,
    Situation.getLast?_course, arrivalOf, List.foldl_append,
    List.foldl_append, foldl_arrival, foldl_arrival] at hlast
  have hqueue : decodePayload StepResult.decode (roundedAnswer.wording .queue) =
      .ok roundedAnswer.result :=
    roundedAnswer.decode_published
  simp only [Parcel.opening, Setup.handle, Setup.consume, hqueue,
    decode_wording_roundedAnswer] at hlast
  revert hlast
  decide +kernel

end Engine

end Orchestration
