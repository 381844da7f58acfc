import Orchestration.Engine.Retention
import Orchestration.Engine.World

/-!
# Work in the background

Work that an operation has started goes on when the operation has answered, in the order in which it
was started or woken, until all of it has ended or sleeps. Timers move only when they are told to,
and then from one waking to the next, so that whatever sleeps is woken at its time.

Only so many watches are awake or asleep at a time. The others wait until one of those has finished,
in the order in which they came.
-/

namespace Orchestration

namespace Engine

namespace World

/-- Changes the work in the background. -/
def reschedule (w : World) (change : Schedule → Schedule) : World :=
  { w with schedule := change w.schedule }

/-- Lets the next watch begin, if one waits, for one that has finished. -/
def release (s : Schedule) : Schedule :=
  match s.waiting with
  | [] => { s with permits := s.permits + 1 }
  | next :: rest => { s with waiting := rest, ready := s.ready ++ [.watch next] }

variable (setup : Setup)

/-- Goes on with a watch until it sleeps or has finished. -/
def continueWatch (w : World) (watch : Watch) : World :=
  let (next, w) := w.act (setup.watch watch.run w.schedule.time watch.phase)
  match next with
  | .ok (.sleep wake phase) =>
    w.reschedule fun s => { s with asleep := s.asleep ++ [(wake, ⟨watch.run, phase⟩)] }
  | .ok .finished | .error _ => w.reschedule release

def runJob (w : World) : Job → World
  | .task (.sweep keepDays maxCount) => (w.act (deleteOldRuns keepDays maxCount)).2
  | .task (.watch run functions) =>
    let watch : Watch := ⟨run, .begin functions⟩
    if w.schedule.permits = 0 then
      w.reschedule fun s => { s with waiting := s.waiting ++ [watch] }
    else
      continueWatch setup (w.reschedule fun s => { s with permits := s.permits - 1 }) watch
  | .watch watch => continueWatch setup w watch

/-- Goes on with so much of the work that can go on. -/
def runJobs : Nat → World → World
  | 0, w => w
  | fuel + 1, w =>
    match w.schedule.ready with
    | [] => w
    | job :: rest =>
      runJobs fuel (runJob setup (w.reschedule fun s => { s with ready := rest }) job)

/-- Goes on with all work that can go on. Every piece of it is gone on with once, and so is every
watch that waits. -/
def settle (w : World) : World :=
  runJobs setup (w.schedule.ready.length + w.schedule.waiting.length + w.schedule.ready.length) w

/-- The time at which something is to be woken next. -/
def nextWake? (s : Schedule) : Option Nat := (s.asleep.map (·.1)).min?

/-- Wakes what is to be woken by a time. -/
def wake (time : Nat) (s : Schedule) : Schedule :=
  let due := s.asleep.filter fun e => e.1 ≤ time
  { s with
    time := time
    asleep := s.asleep.filter fun e => !(e.1 ≤ time)
    ready := s.ready ++ due.map fun e => .watch e.2 }

/-- Moves the timers to a time, from one waking to the next. -/
def advanceTo (time : Nat) : Nat → World → World
  | 0, w => w.reschedule fun s => { s with time := time }
  | fuel + 1, w =>
    match nextWake? w.schedule with
    | some next =>
      if next ≤ time then advanceTo time fuel (settle setup (w.reschedule (wake next)))
      else w.reschedule fun s => { s with time := time }
    | none => w.reschedule fun s => { s with time := time }

/-- Moves the timers on by so many milliseconds. There are not more wakings than that, because each
lies after the one before. -/
def advance (w : World) (milliseconds : Nat) : World :=
  advanceTo setup (w.schedule.time + milliseconds) (milliseconds + 1) w

/-! ## Consuming -/

/-- Handles what waits on a channel, one message after the other, until nothing waits. -/
def consumeAll (channel : Channel) : Nat → World → World
  | 0, w => w
  | fuel + 1, w =>
    match w.queue.take channel with
    | (none, _) => w
    | (some payload, queue) =>
      let (disposition, w) := ({ w with queue } : World).run (setup.handle channel payload)
      let w := { w with queue := w.queue.settle ⟨channel, payload⟩ disposition }
      consumeAll channel fuel (settle setup w)

end World

end Engine

end Orchestration
