import Orchestration.Engine.Launch
import Orchestration.Proofs.OrderFree
import Orchestration.Proofs.StopCondition

/-!
# A workflow taken step by step

What a run of a workflow comes to, said without messages and records. The steps are taken in the
order of their execution, one at a time. Taking a step means to ask for its work, which calls a
function, and to wait for the answer. An answer that is a success leaves the step for the next one,
unless it is a loop that is not to stop; an answer that may be made up for asks for the work again,
as long as the step has repetitions left; and any other answer ends the run.

A workflow of this kind has no formulas in its inputs and starts no other workflows. What a step
does is then one of three things (`Activity`), and its data are those of its answers so far
(`Part`). A course of parts consists of those that have been left, the one whose answer is awaited,
and those that are still to come.

The interpreter is a function of the answers, so it has nothing to say about answers that come
twice. An expression that has no value fails the workflow at the step that it belongs to. Only where
the value is there but has no document, as an integer that no document can hold, does the
interpreter have nothing to say: then it has no progress to tell of.
-/

namespace Orchestration

namespace Engine

open Expression (parseSource Source DataReference OrderFree)

/-! ## Parts -/

/-- What a step does that calls functions only. -/
inductive Activity where
  | call (function : Uid)
  | loop (function : Uid) (stopCondition : String)
  | choice (expression : String) (functions : Dict Uid)
deriving DecidableEq, Repr, Inhabited

/-- The functions of the cases of a decision, if no case starts a workflow. -/
def functionsOf? : Dict CaseTarget → Option (Dict Uid)
  | [] => some []
  | (name, .function f) :: rest => (functionsOf? rest).map fun fs => (name, f) :: fs
  | (_, .subWorkflow _) :: _ => none

/-- What a step of a certain structure does, if it calls functions only. -/
def Activity.of? : StepStructure → Option Activity
  | .simple f => some (.call f)
  | .doWhile f text => some (.loop f text)
  | .switch expression cases => (functionsOf? cases).map (.choice expression)
  | .subWorkflow _ => none

/-- A step with what has become of it. -/
structure Part where
  name : String
  activity : Activity
  input : Json.Object
  output : Json.Object := []
  /-- How many answers the step has had. -/
  answers : Int := 0
  /-- How often the step may still be repeated. -/
  retries : Int
deriving DecidableEq, Repr, Inhabited

namespace Part

/-- The data of a part that a reference asks for. -/
def data (p : Part) : Expression.Section → Json.Object
  | .input => p.input
  | .output => p.output

/-- The value of a reference, given what the names of steps stand for. -/
def bindReference (part? : String → Option Part) (r : DataReference) :
    Except EngineError (String × Json) :=
  match part? r.target.step with
  | some p => (r.target.resolve (p.data r.target.side)).map fun v => (r.variableName, v)
  | none => .error (.other .dataPath s!"Step '{r.target.step}' not found")

/-- The values of the references of an expression. -/
def bindReferences (part? : String → Option Part) (source : Source) :
    Except EngineError (Dict Json) :=
  (source.references.mapM (bindReference part?)).map Dict.ofList

/-- Whether a part that has been successful is to be left. Only a loop may not be. -/
def stops (p : Part) : Except EngineError Bool :=
  match p.activity with
  | .loop _ text => do
    let source ← parseSource text
    let bindings ← bindReferences (fun _ => some p) source
    let v ← source.evaluate (Dict.insert runCountVariable (.int p.answers) bindings)
    Expression.asBool text v
  | .call _ | .choice .. => .ok true

/-- The function of the case that has the name of a value, or else of the default. -/
def choose (functions : Dict Uid) (value : String) : Except EngineError Uid :=
  match functions.get? value with
  | some f => .ok f
  | none =>
    match functions.get? defaultCase with
    | some f => .ok f
    | none => .error (.noCase value)

/-- The text that a decision falls by, given the parts that have been left. -/
def decision (done : List Part) (expression : String) : Except EngineError String := do
  let source ← parseSource expression
  let bindings ← bindReferences (fun name => done.find? fun d => d.name = name) source
  let v ← source.evaluate bindings
  return Expression.asText v

/-- The function that a part calls, given the parts that have been left. -/
def function (done : List Part) (p : Part) : Except EngineError Uid :=
  match p.activity with
  | .call f | .loop f _ => .ok f
  | .choice expression functions => do
    choose functions (← decision done expression)

end Part

/-- The part that a step starts as, with an input. -/
def Part.of? (input : Json.Object) (d : StepDefinition) : Option Part :=
  (Activity.of? d.shape).map fun activity =>
    { name := d.name, activity, input, retries := max d.retryCount 0 }

/-! ## Courses -/

/-- The parts of a workflow while one of them is taken: those that have been left before it, and
those that are still to come. -/
structure Course where
  done : List Part := []
  current : Part
  todo : List Part
deriving DecidableEq, Repr, Inhabited

/-- The course of a workflow at its first step, if it has one and calls functions only. The first
step starts from the input of the workflow with its own laid over it. -/
def Course.of? (input : Json.Object) (steps : List StepDefinition) : Option Course :=
  match steps.mergeSort fun a b => a.executionOrder ≤ b.executionOrder with
  | [] => none
  | d :: rest => do
    let current ← Part.of? (Dict.overlay input d.inputData) d
    let todo ← rest.mapM fun d => Part.of? d.inputData d
    return { current, todo }

/-- Work that is asked for. -/
structure Request where
  step : String
  function : Uid
  attempt : Int
  input : Json.Object
deriving DecidableEq, Repr, Inhabited

/-- What an answer may say of the work that was asked for. -/
inductive AnswerStatus where
  | completed
  | skipped
  | failed
  | timedOut
  | canceled
  | failedWithTerminalError
deriving DecidableEq, Repr, Inhabited

/-- The status that a step gets with an answer. -/
def AnswerStatus.toRunStatus : AnswerStatus → RunStatus
  | .completed => .completed
  | .skipped => .skipped
  | .failed => .failed
  | .timedOut => .timedOut
  | .canceled => .canceled
  | .failedWithTerminalError => .failedWithTerminalError

/-- An answer to a request. -/
structure Answer where
  status : AnswerStatus
  output : Json.Object := []
  reason : Option String := none
deriving DecidableEq, Repr, Inhabited

/-- How a part ends a workflow that an answer has not been made up for. -/
def Answer.failure (a : Answer) (p : Part) : Failure :=
  ⟨p.name, a.reason.getD s!"Step ended with {a.status.toRunStatus}"⟩

/-- How far a workflow has come. -/
inductive Stage where
  /-- The current part has been asked for. -/
  | waiting (course : Course)
  | ended (status : RunStatus) (output : Json.Object) (failure : Option Failure)
deriving DecidableEq, Repr, Inhabited

namespace Stage

def status : Stage → RunStatus
  | .ended status _ _ => status
  | .waiting _ => .running

def output : Stage → Json.Object
  | .ended _ output _ => output
  | .waiting _ => []

/-- Why a run has failed at a stage, if it has. -/
def failure? : Stage → Option Failure
  | .ended _ _ failure => failure
  | .waiting _ => none

end Stage

/-- What a workflow comes to next: the requests that are made, and the stage that is reached. -/
abbrev Progress := List Request × Stage

/-- What a workflow comes to with progress made before. -/
def Progress.after (before next : Progress) : Progress := (before.1 ++ next.1, next.2)

namespace Course

variable (c : Course)

/-- A workflow that cannot go on has failed at the current part. -/
def fault (e : EngineError) : Option Progress :=
  match e with
  | .undecodable => none
  | e => some ([], .ended .failed [] (some ⟨c.current.name, e.message⟩))

def ask : Option Progress :=
  match c.current.function c.done with
  | .ok f => some ([⟨c.current.name, f, c.current.answers + 1, c.current.input⟩], .waiting c)
  | .error e => c.fault e

/-- Leaves the current part for the next one, or for the end. -/
def leave : Option Progress :=
  match c.todo with
  | next :: rest => ask ⟨c.done ++ [c.current], next, rest⟩
  | [] => some ([], .ended .completed c.current.output none)

/-- Goes on after an answer that is a success. -/
def proceed : Option Progress :=
  match c.current.stops with
  | .ok true => c.leave
  | .ok false => c.ask
  | .error e => c.fault e

/-- Ends at the current part with an answer. -/
def giveUp (a : Answer) : Option Progress :=
  some ([], .ended a.status.toRunStatus [] (some (a.failure c.current)))

/-- The course when the current part has been answered. -/
def answered (a : Answer) : Course :=
  { c with
    current := { c.current with output := a.output, answers := c.current.answers + 1 } }

/-- The course when the current part has used up one of its repetitions. -/
def repeated : Course :=
  { c with current := { c.current with retries := c.current.retries - 1 } }

/-- Goes on with an answer to the current part. -/
def take (a : Answer) : Option Progress :=
  match a.status with
  | .completed | .skipped => (c.answered a).proceed
  | .failed | .timedOut =>
    if 0 < c.current.retries then (c.answered a).repeated.ask else (c.answered a).giveUp a
  | .canceled | .failedWithTerminalError => (c.answered a).giveUp a

end Course

/-! ## The interpreter -/

/-- Goes on with some answers, one after the other. A workflow that has ended takes no more of
them. -/
def interpretFrom : Stage → List Answer → Option Progress
  | .waiting c, a :: rest => do
    let next ← c.take a
    return next.after (← interpretFrom next.2 rest)
  | stage, _ => some ([], stage)

/-- What a workflow comes to with some answers, taken from a course. -/
def interpret (c : Course) (answers : List Answer) : Option Progress := do
  let first ← c.ask
  return first.after (← interpretFrom first.2 answers)

@[simp]
theorem Progress.after_nil (p : Progress) : p.after ([], p.2) = p := by
  rw [Progress.after, List.append_nil]

theorem Progress.after_assoc (p q r : Progress) : (p.after q).after r = p.after (q.after r) := by
  simp only [Progress.after, List.append_assoc]

theorem Course.fault_eq_some {c : Course} {e : EngineError} {p : Progress}
    (h : c.fault e = some p) :
    e ≠ .undecodable ∧ p = ([], .ended .failed [] (some ⟨c.current.name, e.message⟩)) := by
  unfold fault at h
  split at h
  · cases h
  · next he => exact ⟨he, (Option.some.inj h).symm⟩

@[simp]
theorem interpretFrom_nil (stage : Stage) : interpretFrom stage [] = some ([], stage) := by
  cases stage <;> rfl

theorem interpretFrom_append (stage : Stage) (answers more : List Answer) :
    interpretFrom stage (answers ++ more) =
      (interpretFrom stage answers).bind fun p ↦ (interpretFrom p.2 more).map p.after := by
  induction answers generalizing stage with
  | nil =>
    rw [List.nil_append, interpretFrom_nil, Option.bind_some]
    cases interpretFrom stage more <;> rfl
  | cons a rest ih =>
    cases stage with
    | waiting c =>
      cases hnext : c.take a with
      | none => simp [interpretFrom, hnext]
      | some next =>
        simp only [List.cons_append, interpretFrom, hnext, ih, Option.bind_eq_bind,
          Option.bind_some]
        cases interpretFrom next.2 rest with
        | none => rfl
        | some p =>
          cases hmore : interpretFrom p.2 more with
          | none => simp [Progress.after, hmore]
          | some q => simp [Progress.after, hmore]
    | ended status output failure =>
      cases more <;> rfl

theorem interpret_nil (c : Course) : interpret c [] = c.ask := by
  simp [interpret]

theorem interpret_concat {c : Course} {answers : List Answer} {a : Answer} {p : Progress}
    (h : interpret c (answers ++ [a]) = some p) :
    ∃ q, interpret c answers = some q ∧
      ∀ c', q.2 = .waiting c' → ∃ next, c'.take a = some next ∧ p = q.after next := by
  unfold interpret at h ⊢
  obtain ⟨first, hfirst, h⟩ := Option.bind_eq_some_iff.1 h
  obtain ⟨last, hlast, h⟩ := Option.bind_eq_some_iff.1 h
  rw [interpretFrom_append] at hlast
  obtain ⟨q, hq, hlast⟩ := Option.bind_eq_some_iff.1 hlast
  obtain ⟨one, hone, rfl⟩ := Option.map_eq_some_iff.1 hlast
  refine ⟨first.after q, by simp [hfirst, hq], fun c' hc' ↦ ?_⟩
  have hc' : q.2 = .waiting c' := hc'
  rw [hc', interpretFrom] at hone
  obtain ⟨next, hnext, hone⟩ := Option.bind_eq_some_iff.1 hone
  rw [interpretFrom_nil] at hone
  obtain rfl : next.after ([], next.2) = one := Option.some.inj hone
  refine ⟨next, hnext, ?_⟩
  rw [← Option.some.inj h, Progress.after_nil, Progress.after_assoc]

/-! ## Workflows that the interpreter is meant for -/

/-- A part is fit to be taken after parts of certain names: its input has no formulas, and its
expression is over itself if it is a loop, and over some of those parts if it is a decision. What an
expression says must not depend on the order of members, which is another one at each evaluation. -/
structure Part.Fits (earlier : List String) (p : Part) : Prop where
  input : formulasOfMembers p.input = []
  loop : ∀ f text, p.activity = .loop f text → RefersToSelf text ∧ OrderFree text
  choice : ∀ expression functions, p.activity = .choice expression functions →
    OrderFree expression ∧ ∀ source, parseSource expression = .ok source →
      ∀ name ∈ stepNames source, name ≠ "self" ∧ name ∈ earlier

/-- Each of some parts is fit to be taken after those before it. -/
def FitInTurn : List String → List Part → Prop
  | _, [] => True
  | earlier, p :: rest => p.Fits earlier ∧ FitInTurn (earlier ++ [p.name]) rest

/-- What is still to be taken of a course is fit to be taken. -/
def Course.Fits (c : Course) : Prop := FitInTurn (c.done.map (·.name)) (c.current :: c.todo)

end Engine

end Orchestration
