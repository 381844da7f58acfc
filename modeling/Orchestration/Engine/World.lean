import Orchestration.Catalog.Functions
import Orchestration.Catalog.Workflows
import Orchestration.Engine.Handler
import Orchestration.Http.Exchange
import Orchestration.Store.Tables

/-!
# The world of an engine in memory

All collaborators of an engine, kept in memory: the store, the queue, the catalogs, the functions at
their addresses, the clock and the work that has been started in the background.

Any call can be made to fail for a number of times, before it has any effect; all others are noted
in a journal. The clock shows a later time at every reading, and no identifier is given out twice.
-/

namespace Orchestration

namespace Engine

/-- A watch over the functions of a run, with what it does when it is woken. -/
structure Watch where
  run : Uid
  phase : Phase
deriving DecidableEq, Repr, Inhabited

/-- Work that is to go on: a task that has not begun, or a watch that has. -/
inductive Job where
  | task (t : BackgroundTask)
  | watch (w : Watch)
deriving DecidableEq, Repr, Inhabited

structure Schedule where
  /-- The time of the timers, in milliseconds. -/
  time : Nat := 0
  /-- What can go on, in the order in which it was started or woken. -/
  ready : List Job := []
  /-- Watches that are asleep, with the time at which each is to be woken. -/
  asleep : List (Nat × Watch) := []
  /-- Watches that may not begin yet, because there are as many as there may be. -/
  waiting : List Watch := []
  /-- How many watches more may begin. -/
  permits : Nat
deriving DecidableEq, Repr, Inhabited

structure World where
  tables : Store.Tables := {}
  queue : Queue := {}
  functions : FunctionCatalog := {}
  workflows : WorkflowCatalog := {}
  /-- What functions answer that are called at their addresses; nobody is there without it. -/
  web : Option Http.Response := none
  /-- The time of the latest reading of the clock. -/
  clock : Instant
  /-- How many identifiers have been given out. -/
  uids : Nat := 0
  /-- How often calls fail from now on, by their names. -/
  outages : List (String × Nat) := []
  /-- The calls that have been carried out, the latest first. -/
  journal : List Call := []
  schedule : Schedule
deriving Repr, Inhabited

/-- The name under which a call can be made to fail. -/
def Call.name : Call → String
  | .store c => c.name
  | .publish channel _ => "publish_" ++ channel.text
  | .getFunction _ => "get_function"
  | .deployFunction _ => "deploy_function"
  | .getWorkflow _ => "get_workflow"
  | .getStepList _ => "get_step_list"
  | .post .. => "post"
  | .now => "now"
  | .newUid => "new_uid"
  | .spawn _ => "spawn"

namespace World

/-- The identifier that is given out after so many others. It has the form of a random one. -/
def nthUid (n : Nat) : Uid :=
  Uid.ofNat (0xF0000000 * pow2 96 + 0x4000 * pow2 64 + 0x8000 * pow2 48 + n)

/-- The reading of the clock after another one. -/
def tick (t : Instant) : Instant :=
  if t.nanos + 1 < 1000000000 then { t with nanos := t.nanos + 1 }
  else { seconds := t.seconds + 1, nanos := 0 }

/-- Makes a call fail so many times from now on. -/
def setOutage (w : World) (name : String) (count : Nat) : World :=
  { w with outages := (name, count) :: w.outages.filter fun o => o.1 ≠ name }

/-- The world after a failure of a call, if the call fails. -/
def outage? (w : World) (name : String) : Option World :=
  match w.outages.lookup name with
  | some (left + 1) => some (w.setOutage name left)
  | _ => none

def note (w : World) (c : Call) : World := { w with journal := c :: w.journal }

/-- Answers a call that may fail: with an error of a kind, or by a rule. -/
def guarded (w : World) (c : Call) (kind : ErrorKind) (what : String)
    (rule : World → Except EngineError α × World) : Except EngineError α × World :=
  match w.outage? c.name with
  | some w => (.error (.other kind (what ++ " unavailable")), w)
  | none => rule (w.note c)

def answer : (c : Call) → World → c.Answer × World
  | .store c, w =>
    w.guarded (.store c) .internal c.name fun w =>
      let (a, tables) := w.tables.answer c
      (a, { w with tables })
  | .publish channel payload, w =>
    w.guarded (.publish channel payload) .queue channel.text fun w =>
      (.ok (), { w with queue := w.queue.publish ⟨channel, payload⟩ })
  | .getFunction f, w =>
    w.guarded (.getFunction f) .externalService "get_function" fun w =>
      let (a, functions) := w.functions.get f
      (a, { w with functions })
  | .deployFunction f, w =>
    w.guarded (.deployFunction f) .externalService "deploy_function" fun w =>
      let (a, functions) := w.functions.deploy f
      (a, { w with functions })
  | .getWorkflow f, w =>
    w.guarded (.getWorkflow f) .externalService "get_workflow" fun w => (w.workflows.get f, w)
  | .getStepList f, w =>
    w.guarded (.getStepList f) .externalService "get_step_list" fun w => (w.workflows.steps f, w)
  | .post address body, w => (Http.reach w.web address, w.note (.post address body))
  | .now, w =>
    let time := tick w.clock
    (time, { w with clock := time })
  | .newUid, w => (nthUid w.uids, { w with uids := w.uids + 1 })
  | .spawn t, w =>
    ((), { w with schedule := { w.schedule with ready := w.schedule.ready ++ [.task t] } })

def run (w : World) (p : Program Call.Answer α) : α × World := p.run answer w

def act (w : World) (a : Action α) : Except EngineError α × World := w.run a.run

end World

end Engine

end Orchestration
