import Orchestration.Snapshot

/-!
# The chain of steps of a run

The steps of a run follow one another in the order of their execution; steps of one order follow as
the definition lists them. Each step instance names its neighbours by their identifiers, so the
identifiers are handed out first and linked afterwards.
-/

namespace Orchestration

structure StepLinks where
  next : Option Uid := none
  previous : Option Uid := none
deriving DecidableEq, Repr, Inhabited

structure StepGraph where
  order : List Uid
deriving DecidableEq, Repr, Inhabited

namespace StepGraph

def linear (order : List Uid) : StepGraph := ⟨order⟩

def edges (g : StepGraph) : List (Uid × Uid) := g.order.zip g.order.tail

/-- The neighbours of an identifier. Of an identifier that stands in the row more than once, the
last successor and the last predecessor count; one that does not stand there has none. -/
def links (g : StepGraph) (id : Uid) : StepLinks :=
  { next := ((g.edges.filter fun e => e.1 = id).getLast?).map (·.2)
    previous := ((g.edges.filter fun e => e.2 = id).getLast?).map (·.1) }

end StepGraph

/-- Definitions in the order of their execution; those of one order keep theirs. -/
def sortDefinitions (definitions : List StepDefinition) : List StepDefinition :=
  ordered (fun a b => a.executionOrder ≤ b.executionOrder) definitions

/-- The instance of a definition at a position of a run. The first step starts from the input of the
workflow with its own template laid over it, every other step from its template. -/
def newStepInstance (run uid : Uid) (label : OrderLabel) (links : StepLinks)
    (input : Json.Object) (d : StepDefinition) : StepInstance :=
  { uid
    workflowInstanceUid := run
    stepDefinitionUid := d.uid
    name := d.name
    shape := d.shape
    runStatus := .new
    runOrderLabel := label
    executionOrder := d.executionOrder
    nextStepId := links.next
    previousStepId := links.previous
    retryCount := max d.retryCount 0
    runCount := 0
    inputData := if label = .first then Dict.overlay input d.inputData else d.inputData }

/-- The steps of a new run, one for each definition, with the given identifiers. -/
def buildStepInstances (run : Uid) (definitions : List StepDefinition) (input : Json.Object)
    (uids : List Uid) : List StepInstance :=
  let sorted := sortDefinitions definitions
  let graph := StepGraph.linear (uids.take sorted.length)
  (sorted.zip uids).mapIdx fun index (d, uid) =>
    newStepInstance run uid (OrderLabel.forPosition index sorted.length) (graph.links uid) input d

end Orchestration
