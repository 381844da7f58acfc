import Orchestration.Engine.Schedule
import Orchestration.Rehearsal.Name

/-!
# Rehearsals

A rehearsal runs an engine whose collaborators are all in memory, by one operation after the other,
and tells after each what it answers and what has changed: the runs that look different, the
announcements, and the messages that wait.

An operation is carried out to its end first, and then the work in the background goes on until it
waits for the timers.
-/

namespace Orchestration

/-- An engine in memory, and what has been told of it. -/
structure Rehearsal where
  setup : Engine.Setup
  world : Engine.World
  /-- The runs that have been put into the store. -/
  runs : List Rehearsal.NamedRun := []
  /-- How many calls have been looked at for runs. -/
  seenCalls : Nat := 0
  /-- How many published messages have been told of. -/
  seenMessages : Nat := 0
  /-- How the runs looked when they were last told of. -/
  shown : List (String × Option String) := []
  /-- The work that has been taken. -/
  works : List WorkRequest := []
deriving Repr, Inhabited

namespace Rehearsal

inductive Outcome where
  | result (value : Json)
  | failure (error : EngineError)
deriving DecidableEq, Repr, Inhabited

/-- The members of the document of an outcome. -/
def Outcome.toMembers : Outcome → List (String × Json)
  | .result value => [("result", value)]
  | .failure error => error.toMembers

def Outcome.ofExcept (encode : α → Json) : Except EngineError α → Outcome
  | .ok a => .result (encode a)
  | .error e => .failure e

structure Report where
  outcome : Outcome
  /-- The runs that look different from before, with how they look, if they are still there. -/
  changed : List (String × Option String)
  notified : List String
  /-- How many messages wait on each of the channels that are consumed. -/
  pending : List Nat
deriving DecidableEq, Repr, Inhabited

def Report.toJson (r : Report) : Json :=
  Json.ofMembers
    (r.outcome.toMembers ++
      [("changed", Json.ofMembers (r.changed.map fun (name, look) => (name, Json.ofText? look))),
        ("notified", .arr (r.notified.map .str)),
        ("pending", .arr (r.pending.map fun (n : Nat) => .int n))])

variable (r : Rehearsal)

/-! ## How runs and announcements look -/

def showStep (step : StepInstance) : String :=
  s!"{step.name}:{step.runStatus}:{step.runCount}:{step.retryCount}"

/-- How a run looks, if it is there: its status, the step that it holds, and its steps. -/
def showRun (named : NamedRun) : Option String :=
  (r.world.tables.run? named.uid).map fun run =>
    let held := (run.heldStepInstanceUid.map fun step => s!" held={nameOf r.runs step}").getD ""
    let steps := named.steps.filterMap fun (_, uid) => (r.world.tables.step? uid).map showStep
    " ".intercalate ((run.runStatus.text ++ held) :: steps)

/-- How the announcement of a status looks. -/
def showNotification (n : RunNotification) : String :=
  if n.isStepUpdate != n.workflowStepInstanceUid.isSome then s!"? {n.status}"
  else
    let about := n.workflowStepInstanceUid.getD n.workflowInstanceUid
    s!"{nameOf r.runs about} {n.status}"

/-- How the payload of an announcement looks. -/
def showAnnouncement (payload : String) : String :=
  match decodePayload RunNotification.decode payload with
  | .ok n => r.showNotification n
  | .error _ => payload

/-! ## Reporting -/

/-- Gives names to the runs that have been put into the store since the last look. -/
def lookForRuns : Rehearsal :=
  let journal := r.world.journal
  { r with
    runs := nameRuns r.runs (journal.take (journal.length - r.seenCalls)).reverse
    seenCalls := journal.length }

/-- The members that hold points in time, of which only whether they are set is told. -/
def timeMembers : List String := ["startTime", "endTime", "createdAt"]

def inNames : Outcome → Outcome
  | .result value => .result ((showAllNames r.runs value).hideMembers timeMembers "set")
  | .failure e =>
    if e.kind.hasWords then
      .failure (.other e.kind ((showAllNames r.runs (.str e.words)).text?.getD e.words))
    else .failure e

/-- Whether a run looks different from when it was last told of. -/
def isChanged (look : String × Option String) : Bool :=
  match r.shown.lookup look.1 with
  | some old => old != look.2
  | none => look.2.isSome

/-- Tells of an outcome and of what has changed. -/
def report (outcome : Outcome) : Report × Rehearsal :=
  let r := r.lookForRuns
  let looks := r.runs.map fun named => (named.name, r.showRun named)
  let published := r.world.queue.published
  let announced := Queue.payloads .notifications (published.drop r.seenMessages)
  ({ outcome := r.inNames outcome
     changed := looks.filter r.isChanged
     notified := announced.map r.showAnnouncement
     pending := [Channel.work, .results, .deployments].map fun c =>
        (r.world.queue.waiting c).length },
    { r with shown := looks, seenMessages := published.length })

/-- Lets the work in the background go on. -/
def settle : Rehearsal := { r with world := Engine.World.settle r.setup r.world }

end Rehearsal

end Orchestration
