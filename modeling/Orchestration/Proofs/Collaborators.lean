import Orchestration.Engine.World
import Orchestration.Proofs.Operations

/-!
# Fixed collaborators

Collaborators whose answers are fixed: what the catalogs know, whether the channels take messages,
and what the functions answer. They make a rule (`Collaborators.rule`). Given also how identifiers
are handed out, they determine one execution, which can be computed (`perform`): this is how it is
shown that a scene can be reached.
-/

namespace Orchestration

namespace Engine

variable {α : Type}

/-- What the collaborators answer, the store, the clock and new identifiers aside. -/
structure Collaborators where
  function : Uid → Except EngineError FunctionInfo
  deploy : Uid → Except EngineError Unit
  workflow : Uid → Except EngineError WorkflowDefinition
  stepList : Uid → Except EngineError (List StepDefinition)
  publish : Channel → Except EngineError Unit := fun _ ↦ .ok ()
  reach : String → String → Except EngineError Http.Response := fun address _ ↦
    Http.reach none address

namespace Collaborators

/-- Catalogs that know one function and one workflow, whatever they are asked for. -/
def single (f : FunctionInfo) (w : WorkflowDefinition) : Collaborators :=
  { function := fun _ ↦ .ok f
    deploy := fun _ ↦ .ok ()
    workflow := fun _ ↦ .ok w
    stepList := fun _ ↦ .ok w.steps }

variable (k : Collaborators)

def rule : Rule
  | .publish channel _, a => a = k.publish channel
  | .getFunction f, a => a = k.function f
  | .deployFunction f, a => a = k.deploy f
  | .getWorkflow w, a => a = k.workflow w
  | .getStepList w, a => a = k.stepList w
  | .post address body, a => a = k.reach address body
  | .store _, _ | .now, _ | .newUid, _ | .spawn _, _ => True

/-- The answer of fixed collaborators; the clock stands still, and identifiers are handed out in a
row. -/
def answer (s : Scene) : (c : Call) → c.Answer
  | .store c => (s.tables.answer c).1
  | .publish channel _ => k.publish channel
  | .getFunction f => k.function f
  | .deployFunction f => k.deploy f
  | .getWorkflow w => k.workflow w
  | .getStepList w => k.stepList w
  | .post address body => k.reach address body
  | .now => default
  | .newUid => World.nthUid s.issued.length
  | .spawn _ => ()

/-- Whether an identifier that is handed out is a new one. -/
def handsOutNew (s : Scene) : Call → Bool
  | .newUid => !s.issued.contains (World.nthUid s.issued.length)
  | _ => true

/-- Carries a program out, as long as the identifiers that are handed out are new. -/
def perform : Program Call.Answer α → Scene → Option (α × Scene)
  | .done a, s => some (a, s)
  | .call c next, s =>
    if handsOutNew s c then perform (next (k.answer s c)) (s.after c (k.answer s c)) else none

/-- Catalogs that know what they are asked for, and channels that take messages, never fail. -/
theorem noFailure_of_single {f : FunctionInfo} {w : WorkflowDefinition} {c : Call} {a : c.Answer}
    (h : (single f w).rule c a) : noFailure c a := by
  cases c with
  | store | post | now | newUid | spawn => trivial
  | publish | deployFunction =>
    obtain rfl : a = .ok () := h
    rfl
  | getFunction =>
    obtain rfl : a = .ok f := h
    exact fun _ he ↦ nomatch he
  | getWorkflow =>
    obtain rfl : a = .ok w := h
    exact fun _ he ↦ nomatch he
  | getStepList =>
    obtain rfl : a = .ok w.steps := h
    exact fun _ he ↦ nomatch he

theorem rule_answer (s : Scene) (c : Call) : k.rule c (k.answer s c) := by
  cases c with
  | store | now | newUid | spawn => trivial
  | publish | getFunction | deployFunction | getWorkflow | getStepList | post => rfl

theorem admits_answer {s : Scene} {c : Call} (h : handsOutNew s c = true) :
    s.Admits c (k.answer s c) := by
  cases c with
  | store => rfl
  | newUid =>
    have hnew : World.nthUid s.issued.length ∉ s.issued := by simpa [handsOutNew] using h
    exact hnew
  | publish | getFunction | deployFunction | getWorkflow | getStepList | post | now | spawn =>
    trivial

theorem leads_of_perform {p : Program Call.Answer α} {s : Scene} {a : α} {s' : Scene}
    (h : k.perform p s = some (a, s')) : Leads k.rule p s a s' := by
  induction p generalizing s with
  | done b =>
    cases h
    exact ⟨rfl, rfl⟩
  | call c next ih =>
    unfold perform at h
    split at h
    · next hnew => exact ⟨k.answer s c, k.admits_answer hnew, k.rule_answer s c, ih _ h⟩
    · cases h

theorem leads_get {p : Program Call.Answer α} {s : Scene} (h : (k.perform p s).isSome) :
    Leads k.rule p s ((k.perform p s).get h).1 ((k.perform p s).get h).2 :=
  k.leads_of_perform (Option.some_get h).symm

/-- Carries operations out, one after the other, as long as there is room for more results. -/
def performAll (setup : Setup) : List Operation → Scene → Option Scene
  | [], s => some s
  | o :: rest, s => (k.perform (o.action setup).run s).bind fun r ↦
    if r.2.HasRoom then performAll setup rest r.2 else none

theorem reachable_of_performAll {setup : Setup} {ops : List Operation} {s s' : Scene}
    (h : k.performAll setup ops s = some s') (hs : Reachable setup k.rule s) :
    Reachable setup k.rule s' := by
  induction ops generalizing s with
  | nil => exact Option.some.inj h ▸ hs
  | cons o rest ih =>
    obtain ⟨⟨r, s₁⟩, h₁, hrest⟩ := Option.bind_eq_some_iff.1 h
    obtain ⟨hroom, hrest⟩ := Option.ite_none_right_eq_some.1 hrest
    exact ih hrest (.step o hs (k.leads_of_perform h₁) hroom)

end Collaborators

theorem Collaborators.reachable_get {k : Collaborators} {setup : Setup} {ops : List Operation}
    (h : (k.performAll setup ops {}).isSome) :
    Reachable setup k.rule ((k.performAll setup ops {}).get h) :=
  k.reachable_of_performAll (Option.some_get h).symm .empty

theorem Reachable.weaken {setup : Setup} {R R' : Rule} (hR : ∀ c a, R c a → R' c a) {s : Scene}
    (h : Reachable setup R s) : Reachable setup R' s := by
  induction h with
  | empty => exact .empty
  | step o _ hrun room ih => exact .step o ih (hrun.weaken hR) room

/-! ## A workflow and its collaborators -/

/-- A step that calls a function, and a loop that calls it until it has said so. -/
def callThenLoop : WorkflowDefinition :=
  { uid := .ofNat 1
    name := "call then loop"
    steps :=
      [{ uid := .ofNat 2, name := "call", executionOrder := 1, shape := .simple (.ofNat 9) },
        { uid := .ofNat 3
          name := "loop"
          executionOrder := 2
          shape := .doWhile (.ofNat 9) "[self.output.done] and runCount > 1" }] }

/-- A function that may be called through the queue. -/
def deployedFunction : FunctionInfo :=
  { uid := .ofNat 9, name := "work", deploymentState := .deployed }

/-- An engine that hands work over through the queue. -/
def queueSetup : Setup :=
  { settings := default, mode := .queue, callbackUrl := "http://engine", nesting := 2 }

/-- The answer to the first attempt of the first step of the first run. -/
def firstAnswer : StepResult :=
  { stepInstanceId := World.nthUid 1
    workflowInstanceId := World.nthUid 0
    runStatus := .completed
    attempt := some 1 }

/-- Collaborators that know `callThenLoop` and its function. -/
def willing : Collaborators := .single deployedFunction callThenLoop

/-- The run of `callThenLoop` while its first step is under way. -/
def underwayScene : Scene :=
  (willing.performAll queueSetup [.start (.ofNat 1) [] none none] {}).get (by decide +kernel)

def underwayRun : WorkflowInstance :=
  (underwayScene.tables.run? (World.nthUid 0)).get (by decide +kernel)

def underwayStep : StepInstance :=
  (underwayScene.tables.step? (World.nthUid 1)).get (by decide +kernel)

end Engine

end Orchestration
