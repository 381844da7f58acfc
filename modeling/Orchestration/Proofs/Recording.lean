import Orchestration.Proofs.Collaborators
import Orchestration.Proofs.Histories

/-!
# Recorded executions

What fixed collaborators are asked and answer can be written down while it is carried out
(`record`). The clock shows how many calls have been made before, so no two readings are the same. A
series of operations that are recorded are a history (`history_get`): this is how it is shown that
something has happened.
-/

namespace Orchestration

namespace Engine

variable {α : Type} {setup : Setup}

theorem Logged.weaken {R R' : Rule} (hR : ∀ c a, R c a → R' c a) {p : Program Call.Answer α}
    {s s' : Scene} {log : List Moment} {a : α} (h : Logged R p s log a s') :
    Logged R' p s log a s' := by
  induction p generalizing s log with
  | done b => exact h
  | call c next ih =>
    obtain ⟨answer, rest, hadm, hans, rfl, h⟩ := h
    exact ⟨answer, rest, hadm, hR c answer hans, rfl, ih answer h⟩

namespace Collaborators

variable (k : Collaborators)

/-- The time that the clock shows after so many calls. -/
def tick (n : Nat) : Instant := { seconds := n, nanos := 0 }

/-- The answer of fixed collaborators while the clock shows a time. -/
def answerAt (time : Instant) (s : Scene) : (c : Call) → c.Answer
  | .now => time
  | c => k.answer s c

/-- Carries a program out and writes its log, after so many calls. -/
def record : Nat → Program Call.Answer α → Scene → Option (α × List Moment × Scene)
  | _, .done a, s => some (a, [], s)
  | n, .call c next, s =>
    if handsOutNew s c then
      (record (n + 1) (next (k.answerAt (tick n) s c)) (s.after c (k.answerAt (tick n) s c))).map
        fun r ↦ (r.1, ⟨s, c, k.answerAt (tick n) s c⟩ :: r.2.1, r.2.2)
    else none

theorem rule_answerAt (time : Instant) (s : Scene) (c : Call) :
    k.rule c (k.answerAt time s c) := by
  cases c with
  | now => trivial
  | _ => exact k.rule_answer s _

theorem admits_answerAt {s : Scene} {c : Call} (h : handsOutNew s c = true) (time : Instant) :
    s.Admits c (k.answerAt time s c) := by
  cases c with
  | now => trivial
  | _ => exact k.admits_answer h

theorem logged_of_record {n : Nat} {p : Program Call.Answer α} {s s' : Scene} {a : α}
    {log : List Moment} (h : k.record n p s = some (a, log, s')) : Logged k.rule p s log a s' := by
  induction p generalizing n s log with
  | done b =>
    cases h
    exact ⟨rfl, rfl, rfl⟩
  | call c next ih =>
    unfold record at h
    split at h
    · next hnew =>
      obtain ⟨⟨b, rest, t⟩, hrest, hr⟩ := Option.map_eq_some_iff.1 h
      cases hr
      exact ⟨_, rest, k.admits_answerAt hnew _, k.rule_answerAt _ s c, rfl, ih _ hrest⟩
    · cases h

theorem logged_get {n : Nat} {p : Program Call.Answer α} {s : Scene}
    (h : (k.record n p s).isSome) : Logged k.rule p s ((k.record n p s).get h).2.1
      ((k.record n p s).get h).1 ((k.record n p s).get h).2.2 :=
  k.logged_of_record (Option.some_get h).symm

end Collaborators

/-- Carries operations out, one after the other and each with its own collaborators, as long as
there is room for more results, and writes their history. -/
def recordAll (setup : Setup) :
    List (Collaborators × Operation) → List Done → Scene → Option (List Done × Scene)
  | [], past, s => some (past, s)
  | (k, o) :: rest, past, s =>
    (k.record (logOf past).length (o.action setup).run s).bind fun r ↦
      if r.2.2.HasRoom then recordAll setup rest (past ++ [⟨o, r.2.1, r.1⟩]) r.2.2 else none

theorem history_of_recordAll {R : Rule} {ops : List (Collaborators × Operation)}
    (hR : ∀ e ∈ ops, ∀ c a, e.1.rule c a → R c a) {past past' : List Done} {s s' : Scene}
    (h : recordAll setup ops past s = some (past', s')) (hs : History setup R past s) :
    History setup R past' s' := by
  induction ops generalizing past s with
  | nil =>
    cases h
    exact hs
  | cons e rest ih =>
    obtain ⟨⟨r, log, s₁⟩, h₁, hrest⟩ := Option.bind_eq_some_iff.1 h
    obtain ⟨hroom, hrest⟩ := Option.ite_none_right_eq_some.1 hrest
    have hlogs : Logs R (e.2.action setup) s log r s₁ :=
      (e.1.logged_of_record h₁).weaken (hR e List.mem_cons_self)
    exact ih (fun e he ↦ hR e (List.mem_cons_of_mem _ he)) hrest
      (.more ⟨e.2, log, r⟩ hs hlogs hroom)

theorem history_get {R : Rule} {ops : List (Collaborators × Operation)}
    (hR : ∀ e ∈ ops, ∀ c a, e.1.rule c a → R c a) (h : (recordAll setup ops [] {}).isSome) :
    History setup R ((recordAll setup ops [] {}).get h).1 ((recordAll setup ops [] {}).get h).2 :=
  history_of_recordAll hR (Option.some_get h).symm .empty

theorem history_get_any {ops : List (Collaborators × Operation)}
    (h : (recordAll setup ops [] {}).isSome) : History setup anyAnswer
      ((recordAll setup ops [] {}).get h).1 ((recordAll setup ops [] {}).get h).2 :=
  history_get (fun _ _ _ _ _ ↦ trivial) h

/-! ## A workflow that starts another -/

def delegation : WorkflowDefinition :=
  { uid := .ofNat 1
    name := "delegation"
    steps :=
      [{ uid := .ofNat 2
         name := "delegate"
         executionOrder := 1
         retryCount := 1
         shape := .subWorkflow (.ofNat 5) }] }

/-- The workflow that it starts, with a step that calls a function. -/
def delegated : WorkflowDefinition :=
  { uid := .ofNat 5
    name := "delegated"
    steps :=
      [{ uid := .ofNat 6
         name := "work"
         executionOrder := 1
         retryCount := 1
         shape := .simple (.ofNat 9) }] }

/-- Catalogs that know the two workflows and one function. -/
def Collaborators.delegating (f : FunctionInfo) : Collaborators :=
  { function := fun _ ↦ .ok f
    deploy := fun _ ↦ .ok ()
    workflow := fun w ↦ .ok (if w = delegated.uid then delegated else delegation)
    stepList := fun _ ↦ .ok [] }

/-- A function that is deployed when a run needs it. -/
def lazyFunction : FunctionInfo :=
  { uid := .ofNat 9, name := "work", deploymentState := .notDeployed, lazyDeployment := true }

/-- The error of a catalog that is out of reach. -/
def outOfReach : EngineError := .other .externalService "get_function unavailable"

/-- Collaborators while the catalog of functions is out of reach. -/
def Collaborators.withoutFunctions (k : Collaborators) : Collaborators :=
  { k with function := fun _ ↦ .error outOfReach }

end Engine

end Orchestration
