import Mathlib.Data.List.Chain
import Orchestration.Proofs.Barring
import Orchestration.Proofs.Effects
import Orchestration.Proofs.Filling
import Orchestration.Proofs.Recording

/-!
# Whether a repetition repeats the work

Every launch of a step is an attempt, and work is handed over directly after the launch of its
attempt, with the same input (`handed_over_latest`). The launch also writes this input onto the
record of the step, over the one that its definition has given it. So the attempt that follows takes
the input of the one before for what it starts from, and looks for formulas in it again
(`Chronicle`).

In the input of a first attempt all formulas have been replaced. But a value that has taken the
place of one may be a text that is a formula itself, taken from the output of another step, say. The
next attempt evaluates it. So a repetition is handed the input of the attempt before exactly if each
formula that this input still has in it has itself as its value (`retries_repeat_iff`).
-/

namespace Orchestration

namespace Engine

variable {R : Rule} {setup : Setup} {G : Uid → Prop} {o : Operation} {s₀ s s' : Scene}
  {log l : List Moment} {past : List Done} {u : Uid} {x : StepInstance} {Q : Prop}

/-! ## Attempts -/

/-- A launch of a step: the store and the record of the step when it is launched, and the input. -/
structure Attempt where
  tables : Store.Tables
  step : StepInstance
  input : Json.Object

def Attempt.number (a : Attempt) : Int := attemptOf a.step

/-- The attempt is made because the one before has failed or timed out. -/
def Attempt.IsRetry (a : Attempt) : Prop :=
  a.step.runStatus = .failed ∨ a.step.runStatus = .timedOut

/-- The attempt that a call puts a step into. -/
def Moment.attempt? (u : Uid) : Moment → Option Attempt
  | ⟨s, .store (.launchStep v input _), .ok _⟩ =>
    if v = u then (s.tables.step? u).map fun x ↦ ⟨s.tables, x, input⟩ else none
  | _ => none

/-- The attempts of a step, in their order. -/
def attemptsOf (u : Uid) (log : List Moment) : List Attempt := log.filterMap (·.attempt? u)

theorem Moment.attempt?_eq_none {m : Moment} (h : m.launches u = false) : m.attempt? u = none := by
  obtain ⟨t, c, a⟩ := m
  cases c with
  | store c =>
    cases c with
    | launchStep v input time =>
      cases a with
      | error => rfl
      | ok => exact if_neg (beq_eq_false_iff_ne.1 h)
    | _ => rfl
  | _ => rfl

theorem attemptsOf_append (log l : List Moment) :
    attemptsOf u (log ++ l) = attemptsOf u log ++ attemptsOf u l := List.filterMap_append

theorem attemptsOf_eq_nil (h : ∀ m ∈ l, m.launches u = false) : attemptsOf u l = [] :=
  List.filterMap_eq_nil_iff.2 fun m hm ↦ Moment.attempt?_eq_none (h m hm)

theorem attemptsOf_append_of_none (h : ∀ m ∈ l, m.launches u = false) (log : List Moment) :
    attemptsOf u (log ++ l) = attemptsOf u log := by
  rw [attemptsOf_append, attemptsOf_eq_nil h, List.append_nil]

theorem attempt?_of_launch (hx : s.tables.step? u = some x) (input : Json.Object) (time : Instant) :
    Moment.attempt? u ⟨s, .store (.launchStep u input time), .ok ()⟩ =
      some ⟨s.tables, x, input⟩ := by
  rw [Moment.attempt?, if_pos rfl, hx]
  rfl

/-! ## Work of an attempt -/

/-- A call hands over the work of a running step. -/
structure HandsWork (setup : Setup) (m : Moment) (d : Dispatch) : Prop where
  step : m.scene.tables.step? d.step.uid = some d.step
  running : d.step.runStatus = .running
  call : m.call = .publish .work (workRequest d.step d.input d.function).toJson.text ∨
    ∃ address, m.call = .post address (setup.pushRequest d.step d.input).toJson.text

/-- A deed that hands work over consists of that call alone, and comes directly after a launch. -/
theorem Deed.handsWork (h : Deed setup G o s₀ log s l s') {m : Moment} (hm : m ∈ l)
    (hover : m.call.handsOver = true) : l = [m] ∧ ∃ d, HandsWork setup m d ∧
      d.step.inputData = d.input ∧ JustLaunched log d.step := by
  -- No other deed contains such a call.
  have hcall : ∀ {c}, m.call = c → c.handsOver = false → False := by
    rintro c rfl hno
    cases hover.symm.trans hno
  have hidle : m.Idle → False := by
    intro h
    obtain ⟨t, c, a⟩ := m
    cases c with
    | publish channel =>
      cases channel with
      | work => cases h
      | results | deployments | notifications => cases hover
    | post => cases h
    | _ => cases hover
  have hending : ∀ run, m.call.isEnding run = true → False := by
    intro run h
    obtain ⟨t, c, a⟩ := m
    cases c with
    | publish channel =>
      cases channel with
      | work => cases h
      | results | deployments | notifications => cases hover
    | post => cases h
    | _ => cases hover
  have htold : ∀ {q l t t'}, Told q t l t' → m ∈ l → False := by
    intro q l t t' h hm
    cases h with
    | told => exact hcall (congrArg Moment.call (List.mem_singleton.1 hm)) rfl
    | untold => cases hm
  have hsingle : ∀ {m'}, m ∈ [m'] → m'.call.handsOver = false → False :=
    fun hm hno ↦ hcall (congrArg Moment.call (List.mem_singleton.1 hm)) hno
  cases h with
  | idle l h => exact (hidle (h m hm).2).elim
  | make definition steps input parent parentStep run uids time instances new l s₁ _
      _ _ _ _ _ _ hl =>
    rcases call_of_making hl hm with hc | hc | hc
    · exact (hcall hc rfl).elim
    · exact (hcall hc rfl).elim
    · exact (hcall hc rfl).elim
  | startTime | move | hold | launch | select | grant | refuse | record | cancel | outcome =>
    exact (hsingle hm rfl).elim
  | resume q rest _ _ _ hrest =>
    rcases List.mem_cons.1 hm with rfl | hm
    · cases hover
    · rcases hrest m hm with h | h
      · exact (hidle (Moment.idle_of_isIdle h)).elim
      · exact (hcall h rfl).elim
  | dispatch q d m' hscene hc hx hrunning _ _ _ hinput hbody hlatest =>
    obtain rfl := List.mem_singleton.1 hm
    refine ⟨rfl, d, ⟨hscene ▸ hx, hrunning, ?_⟩, hinput, hlatest⟩
    exact hc.imp_right fun ⟨address, body, hpost⟩ ↦ ⟨address, hbody address body hpost ▸ hpost⟩
  | finish q status failure output time rest told s' _ _ _ hrest ht =>
    rcases List.mem_cons.1 hm with rfl | hm
    · cases hover
    · rcases List.mem_append.1 hm with hm | hm
      · exact (hending _ (hrest m hm)).elim
      · exact (htold ht hm).elim
  | quit q status failure time expected rest _ _ _ hrest =>
    rcases List.mem_cons.1 hm with rfl | hm
    · cases hover
    · exact (hending _ (hrest m hm)).elim
  | again q told s' _ _ _ ht => exact (htold ht hm).elim
  | remove uids m' _ hc =>
    obtain rfl := List.mem_singleton.1 hm
    exact (hcall hc rfl).elim

/-- A step that has just been launched is in its latest attempt, with the input of that attempt. -/
theorem JustLaunched.latest (h : JustLaunched log x) (before : List Moment) :
    ∃ a, (attemptsOf x.uid (before ++ log)).getLast? = some a ∧ attemptOf x = a.number ∧
      x.inputData = a.input := by
  obtain ⟨earlier, after, t, x₀, time, rfl, hafter, hx₀, hx⟩ := h
  refine ⟨⟨t.tables, x₀, x.inputData⟩, ?_, ?_, rfl⟩
  · rw [attemptsOf_append, attemptsOf_append, ← List.singleton_append, attemptsOf_append,
      attemptsOf_eq_nil fun m hm ↦ (hafter m hm).launches, List.append_nil, ← List.append_assoc]
    have hone : attemptsOf x.uid [⟨t, .store (.launchStep x.uid x.inputData time), .ok ()⟩] =
        [⟨t.tables, x₀, x.inputData⟩] := by
      rw [attemptsOf, List.filterMap_cons, attempt?_of_launch hx₀]
      rfl
    rw [hone, List.getLast?_concat]
  · rw [hx]
    rfl

/-- **Work is handed over directly after the launch of its attempt**, and with the same input. -/
theorem History.handed_over_latest (h : History setup R past s) {before after : List Moment}
    {m : Moment} (hlog : logOf past = before ++ m :: after) (hover : m.call.handsOver = true) :
    ∃ d a, HandsWork setup m d ∧ (attemptsOf d.step.uid before).getLast? = some a ∧
      d.attempt = a.number ∧ d.input = a.input := by
  have hall := h.holds (A := fun _ ↦ True)
    (P := fun past log _ ↦ ∀ before m after, logOf past ++ log = before ++ m :: after →
      m.call.handsOver = true → ∃ d a, HandsWork setup m d ∧
        (attemptsOf d.step.uid before).getLast? = some a ∧ d.attempt = a.number ∧ d.input = a.input)
    (guiding_nobody R) (fun _ _ ↦ trivial) (fun _ _ _ hlog ↦ by simp [logOf] at hlog)
    (fun past o s₀ log s l s' _ _ _ deed hP before m after hlog hover ↦ by
      rw [← List.append_assoc] at hlog
      rcases split_of_append hlog with ⟨mid, hlog', -⟩ | ⟨mid, rfl, rfl⟩
      · exact hP before m mid hlog' hover
      · obtain ⟨hl, d, hhands, hinput, hlatest⟩ :=
          deed.handsWork (List.mem_append_right _ List.mem_cons_self) hover
        obtain ⟨rfl, -⟩ : mid = [] ∧ after = [] := by
          cases mid with
          | nil => exact ⟨rfl, (List.cons.inj hl).2⟩
          | cons m' mid => simp at hl
        obtain ⟨a, hlast, hnumber, ha⟩ := hlatest.latest (logOf past)
        rw [List.append_nil]
        exact ⟨d, a, hhands, hlast, hnumber, hinput.symm.trans ha⟩)
    fun past d s hP ↦ by rwa [logOf_concat, List.append_nil]
  rw [List.append_nil] at hall
  exact hall before m after hlog hover

/-! ## From one attempt to the next -/

/-- Whether an operation is to handle a result which says that its step is still running. -/
def Operation.saysRunning : Operation → Bool
  | .result m => m.runStatus == .running
  | _ => false

/-- An attempt starts from the input of the one before. Unless the step is still running, it is a
later one, and the next one if no result has said that the step is running. -/
structure Attempt.Follows (Q : Prop) (a' a : Attempt) : Prop where
  input : a.step.inputData = a'.input
  later : a.step.runStatus ≠ .running → a'.number < a.number ∧ (Q → a.number = a'.number + 1)

/-- The attempts of a step so far. -/
structure Chronicle (Q : Prop) (u : Uid) (attempts : List Attempt) : Prop where
  found : ∀ a ∈ attempts, a.tables.step? u = some a.step ∧ Evaluates a.tables a.step a.input
  first : ∀ a ∈ attempts.head?, a.step.runStatus = .new
  chain : attempts.IsChain (Attempt.Follows Q)

/-- What the record of a step says of its attempts so far. -/
structure Bears (Q : Prop) (attempts : List Attempt) (x : StepInstance) : Prop where
  fresh : attempts = [] → x.runStatus = .new
  input : ∀ a ∈ attempts.getLast?, x.inputData = a.input
  number : ∀ a ∈ attempts.getLast?, a.number ≤ attemptOf x ∧
    (x.runStatus ≠ .running → a.number < attemptOf x)
  exact : Q → ∀ a ∈ attempts.getLast?, attemptOf x ≤ a.number + 1 ∧
    (x.runStatus = .running → attemptOf x = a.number)

theorem chronicle_nil : Chronicle Q u [] where
  found _ ha := nomatch ha
  first _ ha := nomatch ha
  chain := .nil

theorem Bears.congr {attempts : List Attempt} {y : StepInstance} (h : Bears Q attempts x)
    (hstatus : y.runStatus = x.runStatus) (hinput : y.inputData = x.inputData)
    (hcount : y.runCount = x.runCount) : Bears Q attempts y := by
  have hattempt : attemptOf y = attemptOf x := by rw [attemptOf, attemptOf, hcount]
  refine ⟨?_, ?_, ?_, ?_⟩
  · rw [hstatus]
    exact h.fresh
  · rw [hinput]
    exact h.input
  · rw [hstatus, hattempt]
    exact h.number
  · rw [hstatus, hattempt]
    exact h.exact

theorem Chronicle.launch {attempts : List Attempt} (h : Chronicle Q u attempts)
    (hx : Bears Q attempts x) {t : Store.Tables} {input : Json.Object}
    (hfound : t.step? u = some x) (hinput : Evaluates t x input) :
    Chronicle Q u (attempts ++ [⟨t, x, input⟩]) where
  found a ha := by
    rcases List.mem_append.1 ha with ha | ha
    · exact h.found a ha
    · rw [List.mem_singleton.1 ha]
      exact ⟨hfound, hinput⟩
  first a ha := by
    cases attempts with
    | nil =>
      obtain rfl := Option.some.inj ha
      exact hx.fresh rfl
    | cons b rest => exact h.first a ha
  chain := by
    refine h.chain.append (.singleton _) fun a' ha' a ha ↦ ?_
    obtain rfl := Option.some.inj ha
    refine ⟨hx.input a' ha', fun hrunning ↦ ⟨(hx.number a' ha').2 hrunning, fun hQ ↦ ?_⟩⟩
    have hlt := (hx.number a' ha').2 hrunning
    have hle := (hx.exact hQ a' ha').1
    show attemptOf x = a'.number + 1
    omega

theorem bears_launched (attempts : List Attempt) (t : Store.Tables) (input : Json.Object)
    (time : Instant) :
    Bears Q (attempts ++ [⟨t, x, input⟩]) (Store.Tables.launched input time x) := by
  have hlast : ∀ a ∈ (attempts ++ [(⟨t, x, input⟩ : Attempt)]).getLast?, a = ⟨t, x, input⟩ := by
    intro a ha
    rw [List.getLast?_concat] at ha
    exact (Option.some.inj ha).symm
  refine ⟨fun hnil ↦ absurd hnil (by simp), fun a ha ↦ ?_, fun a ha ↦ ?_, fun _ a ha ↦ ?_⟩
  · rw [hlast a ha]
    rfl
  · rw [hlast a ha]
    exact ⟨Int.le_refl _, fun hno ↦ absurd rfl hno⟩
  · rw [hlast a ha]
    exact ⟨Int.le_add_one (Int.le_refl _), fun _ ↦ rfl⟩

theorem Bears.answered {attempts : List Attempt} (h : Bears Q attempts x)
    (hrunning : x.runStatus = .running) (m : StepResult) (time : Instant)
    (hQ : Q → m.runStatus ≠ .running) : Bears Q attempts (answeredStep x m time) := by
  have hnext : attemptOf (answeredStep x m time) = attemptOf x + 1 := rfl
  refine ⟨fun hnil ↦ ?_, h.input, fun a ha ↦ ?_, fun hq a ha ↦ ?_⟩
  · rw [h.fresh hnil] at hrunning
    cases hrunning
  · have hle := (h.number a ha).1
    rw [hnext]
    exact ⟨by omega, fun _ ↦ by omega⟩
  · have heq := (h.exact hq a ha).2 hrunning
    rw [hnext]
    exact ⟨by omega, fun hno ↦ absurd hno (hQ hq)⟩

/-- What is known of a step and its attempts after some operations and what the current one has
done. -/
structure Chronicled (Q : Prop) (u : Uid) (log : List Moment) (s : Scene) : Prop where
  attempts : Chronicle Q u (attemptsOf u log)
  unborn : u ∉ s.issued → attemptsOf u log = []
  record : ∀ x, s.tables.step? u = some x → Bears Q (attemptsOf u log) x

/-- **Every deed goes on with the chronicle of a step.** -/
theorem Chronicled.after (h : Chronicled Q u log s) (hs : Sound setup G s) (hs' : Sound setup G s')
    {now : List Moment} (deed : Deed setup G o s₀ now s l s') (ho : Q → o.saysRunning = false) :
    Chronicled Q u (log ++ l) s' := by
  have haffects := deed.affects hs hs' u
  have hunborn : u ∉ s'.issued → attemptsOf u (log ++ l) = [] := by
    intro hno
    have hno' : u ∉ s.issued := fun hi ↦ hno (deed.issued_subset hi)
    rw [attemptsOf_append_of_none fun m hm ↦ (haffects.spares_of_unknown hs hno' m hm).2.2]
    exact h.unborn hno'
  -- Unless the step is launched, no attempt is added.
  have hsame : (∀ m ∈ l, m.launches u = false) →
      (∀ y, s'.tables.step? u = some y → Bears Q (attemptsOf u log) y) →
      Chronicled Q u (log ++ l) s' := by
    intro hl hy
    rw [← attemptsOf_append_of_none hl log] at hy
    exact ⟨by rw [attemptsOf_append_of_none hl]; exact h.attempts, hunborn, hy⟩
  have hspared : Spares u l → ∀ m ∈ l, m.launches u = false := fun hl m hm ↦ (hl m hm).2.2
  cases haffects with
  | not hl hkept => exact hsame (hspared hl) fun y hy ↦ h.record y (hkept ▸ hy)
  | launch q x input time hx _ _ _ hl hafter _ _ hinput =>
    have hattempts : attemptsOf u (log ++ l) = attemptsOf u log ++ [⟨s.tables, x, input⟩] := by
      rw [attemptsOf_append, hl]
      exact congrArg _ (by rw [attemptsOf, List.filterMap_cons, attempt?_of_launch hx]; rfl)
    refine ⟨?_, hunborn, fun y hy ↦ ?_⟩
    · rw [hattempts]
      exact h.attempts.launch (h.record x hx) hx hinput
    · obtain rfl := Option.some.inj (hafter.symm.trans hy)
      rw [hattempts]
      exact bears_launched _ _ _ _
  | select x name hl hx hafter =>
    refine hsame (hspared hl) fun y hy ↦ ?_
    obtain rfl := Option.some.inj (hafter.symm.trans hy)
    exact (h.record x hx).congr rfl rfl rfl
  | grant x hx _ _ _ hl hafter =>
    refine hsame (fun m hm ↦ ?_) fun y hy ↦ ?_
    · rw [hl] at hm
      rw [List.mem_singleton.1 hm]
      rfl
    · obtain rfl := Option.some.inj (hafter.symm.trans hy)
      exact (h.record x hx).congr rfl rfl rfl
  | refuse x _ _ _ _ hl hafter =>
    subst hafter
    refine hsame (fun m hm ↦ ?_) h.record
    rw [hl] at hm
    rw [List.mem_singleton.1 hm]
    rfl
  | record m x time expected hl hm hx hrunning _ hafter =>
    refine hsame (hspared hl) fun y hy ↦ ?_
    obtain rfl := Option.some.inj (hafter.symm.trans hy)
    subst hm
    exact (h.record x hx).answered hrunning m time fun hQ ↦ by
      simpa [Operation.saysRunning] using ho hQ
  | made x hl hu hmade =>
    have hnone : attemptsOf u log = [] := h.unborn (hu ▸ hmade.unknown)
    refine hsame (hspared hl) fun y hy ↦ ?_
    obtain rfl := Option.some.inj (hmade.found.symm.trans (hu ▸ hy))
    rw [hnone]
    exact ⟨fun _ ↦ hmade.status, fun _ ha ↦ (nomatch ha), fun _ ha ↦ (nomatch ha),
      fun _ _ ha ↦ nomatch ha⟩
  | removed hl hnone =>
    exact hsame (hspared hl) fun y hy ↦ nomatch hnone.symm.trans hy

theorem History.chronicled (h : History setup R past s) (u : Uid)
    (hQ : Q → ∀ d ∈ past, d.operation.saysRunning = false) : Chronicled Q u (logOf past) s := by
  have hall := h.holds (A := fun o ↦ Q → o.saysRunning = false)
    (P := fun past log s ↦ Chronicled Q u (logOf past ++ log) s) (guiding_nobody R)
    (fun d hd hq ↦ hQ hq d hd)
    ⟨chronicle_nil, fun _ ↦ rfl, fun _ hx ↦ nomatch hx⟩
    (fun past o s₀ log s l s' ho hs hs' deed hP ↦ by
      rw [← List.append_assoc]
      exact hP.after hs hs' deed ho)
    fun past d s hP ↦ by rwa [logOf_concat, List.append_nil]
  rwa [List.append_nil] at hall

theorem Chronicle.exists_before {earlier later : List Attempt} {a : Attempt}
    (h : Chronicle Q u (earlier ++ a :: later)) (hretry : a.IsRetry) :
    ∃ a', earlier.getLast? = some a' ∧ a'.Follows Q a := by
  cases hlast : earlier.getLast? with
  | none =>
    obtain rfl := List.getLast?_eq_none_iff.1 hlast
    have hnew := h.first a rfl
    rcases hretry with hstatus | hstatus
    · cases hstatus.symm.trans hnew
    · cases hstatus.symm.trans hnew
  | some a' =>
    obtain ⟨init, rfl⟩ := List.getLast?_eq_some_iff.1 hlast
    refine ⟨a', rfl, ?_⟩
    have hchain := h.chain
    rw [List.append_assoc] at hchain
    exact List.isChain_cons_cons.1 (List.isChain_append.1 hchain).2.1 |>.1

/-- **What a retry is handed.** All work is handed over directly after the launch of its attempt,
with the input of that attempt. The input of a retry is the input of the attempt before with the
value of each formula that is still in it in its place, as the expressions are evaluated when the
retry is launched. So a retry repeats the work exactly if each of these formulas has itself as its
value, and it does if there are none. -/
theorem retries_repeat_iff (h : History setup R past s) :
    (∀ before m after, logOf past = before ++ m :: after → m.call.handsOver = true →
      ∃ d a, HandsWork setup m d ∧ (attemptsOf d.step.uid before).getLast? = some a ∧
        d.attempt = a.number ∧ d.input = a.input) ∧
    ∀ u earlier a later, attemptsOf u (logOf past) = earlier ++ a :: later → a.IsRetry →
      ∃ a', earlier.getLast? = some a' ∧ a'.number < a.number ∧
        ((∀ d ∈ past, d.operation.saysRunning = false) → a.number = a'.number + 1) ∧
        a.tables.step? u = some a.step ∧
        (∃ value? : String → Option Json, a.input = substituteMembers value? a'.input ∧
          ∀ e ∈ formulasOfMembers a'.input, ∃ v, value? e = some v ∧
            Finds a.tables (evaluate a.step.workflowInstanceUid e (some a.step)) (.ok v)) ∧
        (a.input = a'.input ↔ ∀ e ∈ formulasOfMembers a'.input,
          Finds a.tables (evaluate a.step.workflowInstanceUid e (some a.step))
            (.ok (.str (formulaText e)))) := by
  refine ⟨fun before m after hlog hover ↦ h.handed_over_latest hlog hover,
    fun u earlier a later hattempts hretry ↦ ?_⟩
  have hchronicle := (h.chronicled u fun hq ↦ hq).attempts
  rw [hattempts] at hchronicle
  obtain ⟨a', hlast, hfollows⟩ := hchronicle.exists_before hretry
  have hrunning : a.step.runStatus ≠ .running := by
    rcases hretry with hstatus | hstatus
    · rw [hstatus]
      decide
    · rw [hstatus]
      decide
  obtain ⟨hfound, hinput⟩ := hchronicle.found a (List.mem_append_right _ List.mem_cons_self)
  rw [Evaluates, hfollows.input] at hinput
  obtain ⟨value?, hvalues, hfilled⟩ := filled_of_normalize hinput
  exact ⟨a', hlast, (hfollows.later hrunning).1, (hfollows.later hrunning).2, hfound,
    ⟨value?, hfilled, hvalues⟩, normalize_eq_iff hinput⟩

/-- A step says something, and another one is to hear it, twice if it has to. -/
def hearsay : WorkflowDefinition :=
  { uid := .ofNat 1
    name := "hearsay"
    steps :=
      [{ uid := .ofNat 2, name := "say", executionOrder := 1, shape := .simple (.ofNat 9) },
        { uid := .ofNat 3
          name := "hear"
          executionOrder := 2
          retryCount := 1
          inputData := [("x", .str (formulaText "[say.output.v]"))]
          shape := .simple (.ofNat 9) }] }

/-- What the first step says is a formula, and the second one fails when it hears it. -/
def misheard : List Done × Scene :=
  (recordAll queueSetup
    ([.start (.ofNat 1) [] none none,
      .result { firstAnswer with outputData := [("v", .str (formulaText "1+1"))] },
      .result { firstAnswer with stepInstanceId := World.nthUid 2, runStatus := .failed }].map
        fun o ↦ (.single deployedFunction hearsay, o)) [] {}).get (by decide +kernel)

def hearings : List Attempt := attemptsOf (World.nthUid 2) (logOf misheard.1)

/-- The failed attempt, and the retry. -/
def firstHearing : Attempt := hearings.get ⟨0, by decide +kernel⟩

def secondHearing : Attempt := hearings.get ⟨1, by decide +kernel⟩

theorem retries_repeat_iff_of_misheard :
    (History queueSetup anyAnswer misheard.1 misheard.2 ∧ hearings = [firstHearing, secondHearing] ∧
      secondHearing.IsRetry ∧ ∀ d ∈ misheard.1, d.operation.saysRunning = false) ∧
    (firstHearing.input = [("x", .str (formulaText "1+1"))] ∧ secondHearing.input =
      [("x", .int 2)] ∧ firstHearing.number = 1 ∧ secondHearing.number = 2) ∧
    (∀ before m after, logOf misheard.1 = before ++ m :: after → m.call.handsOver = true →
      ∃ d a, HandsWork queueSetup m d ∧ (attemptsOf d.step.uid before).getLast? = some a ∧
        d.attempt = a.number ∧ d.input = a.input) ∧
    ¬ ∀ e ∈ formulasOfMembers firstHearing.input,
      Finds secondHearing.tables
        (evaluate secondHearing.step.workflowInstanceUid e (some secondHearing.step))
        (.ok (.str (formulaText e))) := by
  have hhistory : History queueSetup anyAnswer misheard.1 misheard.2 := history_get_any _
  have hattempts : hearings = [firstHearing] ++ secondHearing :: [] := by
    have hlength : hearings.length = 2 := by decide +kernel
    exact List.ext_getElem hlength fun i hi hi' ↦ by
      match i with
      | 0 => rfl
      | 1 => rfl
  have hretry : secondHearing.IsRetry := .inl (by decide +kernel)
  have hdiffer : secondHearing.input ≠ firstHearing.input := by decide +kernel
  obtain ⟨hover, hretries⟩ := retries_repeat_iff hhistory
  obtain ⟨a', hlast, -, -, -, -, hiff⟩ := hretries _ _ _ _ hattempts hretry
  obtain rfl := Option.some.inj hlast
  exact ⟨⟨hhistory, hattempts, hretry, by decide +kernel⟩, ⟨by decide +kernel, by decide +kernel,
    by decide +kernel, by decide +kernel⟩, hover, fun hown ↦ hdiffer (hiff.2 hown)⟩

end Engine

end Orchestration
