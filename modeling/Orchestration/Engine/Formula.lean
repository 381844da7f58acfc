import Orchestration.Engine.Call
import Orchestration.Expression.Coercion

/-!
# Expressions within a run

An expression of a step refers to the data of other steps of the run, by their names, and to its own
as `self`. The steps are fetched first, each once; then the references are followed; then the
expression is evaluated.

The input of a step may hold formulas: texts that begin with a mark and end with a hash sign. Each
is replaced by the value of the expression between them, wherever it stands. A value that takes the
place of a formula is not searched for formulas again.
-/

namespace Orchestration

open Expression (DataReference Source parseSource)

/-- The data of a step that a reference asks for. -/
def StepInstance.data (s : StepInstance) : Expression.Section → Json.Object
  | .input => s.inputData
  | .output => s.outputData

namespace Engine

/-! ## References -/

/-- Steps by the names that references give them. -/
abbrev NamedSteps := List (String × StepInstance)

def fetchStep (run : Uid) (current : Option StepInstance) (name : String) :
    Action StepInstance := do
  if name = "self" then
    match current with
    | some step => return step
    | none => throw .selfOutsideStep
  else
    match ← Action.store (.findStep run name) with
    | some step => return step
    | none => throw (.stepNotFound name run)

/-- Fetches the steps of some names, each once. -/
def fetchSteps (run : Uid) (current : Option StepInstance) :
    List String → NamedSteps → Action NamedSteps
  | [], steps => pure steps
  | name :: rest, steps =>
    if (steps.lookup name).isSome then fetchSteps run current rest steps
    else do
      let step ← fetchStep run current name
      fetchSteps run current rest (steps ++ [(name, step)])

/-- The names of the steps that an expression refers to. -/
def stepNames (source : Source) : List String := source.references.map (·.target.step)

/-- The value of a reference, under the name of its variable. -/
def bindReference (steps : NamedSteps) (r : DataReference) :
    Except EngineError (String × Json) :=
  match steps.lookup r.target.step with
  | some step => (r.target.resolve (step.data r.target.side)).map fun v => (r.variableName, v)
  | none => .error (.other .dataPath s!"Step '{r.target.step}' not found")

/-- The values of the references of an expression. -/
def bindReferences (steps : NamedSteps) (source : Source) : Except EngineError (Dict Json) :=
  (source.references.mapM (bindReference steps)).map Dict.ofList

/-! ## Evaluating -/

/-- The value of an expression within a run. -/
def evaluate (run : Uid) (text : String) (current : Option StepInstance) : Action Json := do
  let source ← Action.ofExcept (parseSource text)
  let steps ← fetchSteps run current (stepNames source) []
  let bindings ← Action.ofExcept (bindReferences steps source)
  Action.ofExcept (source.evaluate bindings)

/-- The truth value of an expression that is no step's own. -/
def evaluateBool (run : Uid) (text : String) : Action Bool := do
  let v ← evaluate run text none
  Action.ofExcept (Expression.asBool text v)

/-- The text of an expression that is no step's own. -/
def evaluateText (run : Uid) (text : String) : Action String := do
  return Expression.asText (← evaluate run text none)

/-- The number of an expression that is no step's own. -/
def evaluateDouble (run : Uid) (text : String) : Action Float := do
  let v ← evaluate run text none
  Action.ofExcept (Expression.asDouble text v)

/-- The text that a decision falls by. -/
def evaluateSwitch (step : StepInstance) (text : String) : Action String := do
  return Expression.asText (← evaluate step.workflowInstanceUid text (some step))

/-- The variable that a stop condition counts the results of its step by. -/
def runCountVariable : String := "runCount"

/-- Whether the loop of a step is to stop. -/
def evaluateStop (step : StepInstance) (text : String) : Action Bool := do
  let source ← Action.ofExcept (parseSource text)
  let steps ← fetchSteps step.workflowInstanceUid (some step) (stepNames source) []
  let bindings ← Action.ofExcept (bindReferences steps source)
  let bindings := Dict.insert runCountVariable (.int step.runCount) bindings
  Action.ofExcept do
    let v ← source.evaluate bindings
    Expression.asBool text v

/-! ## Formulas -/

/-- The mark at the beginning of a formula. -/
def formulaMark : String := "@formula#"

/-- The expression of a formula, if a text is one. -/
def formula? (s : String) : Option String :=
  let cs := s.toList
  if formulaMark.toList.isPrefixOf cs then
    let rest := cs.drop formulaMark.length
    if rest.getLast? = some '#' then some (String.ofList rest.dropLast) else none
  else none

mutual

/-- The expressions of the formulas in a document, from left to right. -/
def formulas : Json → List String
  | .str s => (formula? s).toList
  | .arr items => formulasOfItems items
  | .obj members => formulasOfMembers members
  | .null | .bool _ | .int _ | .float _ => []

/-- The expressions of the formulas in a list. -/
def formulasOfItems : List Json → List String
  | [] => []
  | j :: rest => formulas j ++ formulasOfItems rest

/-- The expressions of the formulas among the members of an object. -/
def formulasOfMembers : List (String × Json) → List String
  | [] => []
  | (_, j) :: rest => formulas j ++ formulasOfMembers rest

end

mutual

/-- A document with a value in the place of each formula that has one. -/
def substitute (value? : String → Option Json) : Json → Json
  | .str s => ((formula? s).bind value?).getD (.str s)
  | .arr items => .arr (substituteItems value? items)
  | .obj members => .obj (substituteMembers value? members)
  | .null => .null
  | .bool b => .bool b
  | .int n => .int n
  | .float x => .float x

/-- A list with values in the place of formulas. -/
def substituteItems (value? : String → Option Json) : List Json → List Json
  | [] => []
  | j :: rest => substitute value? j :: substituteItems value? rest

/-- Members of an object with values in the place of formulas. -/
def substituteMembers (value? : String → Option Json) :
    List (String × Json) → List (String × Json)
  | [] => []
  | (name, j) :: rest => (name, substitute value? j) :: substituteMembers value? rest

end

/-- The value of a formula, under its expression. -/
def evaluateFormula (steps : NamedSteps) (source : Source) :
    Except EngineError (String × Json) := do
  let bindings ← bindReferences steps source
  return (source.text, ← source.evaluate bindings)

/-- The input of a step with the values of its formulas. -/
def normalize (input : Json.Object) (run : Uid) (current : Option StepInstance) :
    Action Json.Object := do
  let sources ← Action.ofExcept ((formulasOfMembers input).mapM parseSource)
  if sources.isEmpty then return input
  let steps ← fetchSteps run current (sources.flatMap stepNames) []
  let values ← Action.ofExcept (sources.mapM (evaluateFormula steps))
  return substituteMembers (fun body => values.lookup body) input

end Engine

end Orchestration
