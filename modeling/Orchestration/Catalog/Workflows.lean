import Orchestration.Definition
import Orchestration.Error

/-!
# The catalog of workflows in memory

A workflow is looked up with its steps or without. The list of its steps is the one in its
definition unless the catalog has another one for it.
-/

namespace Orchestration

structure WorkflowCatalog where
  workflows : List WorkflowDefinition := []
  /-- Lists of steps that stand for those of the definitions. -/
  stepLists : List (Uid × List StepDefinition) := []
deriving DecidableEq, Repr, Inhabited

namespace WorkflowCatalog

def find? (c : WorkflowCatalog) (uid : Uid) : Option WorkflowDefinition :=
  c.workflows.find? fun w => w.uid = uid

/-- Puts in a workflow, in the place of the one that has its identifier. -/
def insert (c : WorkflowCatalog) (w : WorkflowDefinition) : WorkflowCatalog :=
  if (c.find? w.uid).isSome then
    { c with workflows := c.workflows.map fun v => if v.uid = w.uid then w else v }
  else { c with workflows := c.workflows ++ [w] }

def get (c : WorkflowCatalog) (uid : Uid) : Except EngineError WorkflowDefinition :=
  match c.find? uid with
  | some w => .ok w
  | none => .error (.workflowNotFound uid)

def steps (c : WorkflowCatalog) (uid : Uid) : Except EngineError (List StepDefinition) :=
  match c.stepLists.lookup uid with
  | some steps => .ok steps
  | none => (c.get uid).map (·.steps)

end WorkflowCatalog

end Orchestration
