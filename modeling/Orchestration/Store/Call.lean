import Orchestration.Error
import Orchestration.Snapshot

/-!
# What is asked of the store

The store keeps runs and their steps. Each call is carried out at once and as a whole, so that two
engines never see half of a change. A change of a status names what it expects to find, and its
answer says whether it was made.
-/

namespace Orchestration

namespace Store

/-- What a result changes of its step, if the step is in the attempt that the result answers. -/
structure StepUpdate where
  runStatus : RunStatus
  outputData : Json.Object
  failureReason : Option String
  endTime : Instant
  /-- The number of results that the step has to have had before. -/
  expectedRunCount : Int
deriving DecidableEq, Repr, Inhabited

/-- A run that no other run has started, with its age. -/
structure TopLevelRun where
  uid : Uid
  createdAt : Instant
deriving DecidableEq, Repr, Inhabited

inductive Call where
  /-- Puts in a new run with its steps. -/
  | insertRun (run : WorkflowInstance) (steps : List StepInstance)
  | getRun (run : Uid)
  | getStep (step : Uid)
  /-- The steps of a run in the order of their execution. -/
  | listSteps (run : Uid)
  | findStep (run : Uid) (name : String)
  /-- Sets the status of a run that has not come to its end and, if a status is expected, has
  that. -/
  | updateRunStatus (run : Uid) (status : RunStatus) (expected : Option RunStatus)
  | setRunStartTime (run : Uid) (time : Instant)
  | setRunEndTime (run : Uid) (time : Instant)
  | recordRunError (run : Uid) (step reason : String)
  | setRunOutput (run : Uid) (output : Json.Object)
  | setHeldStep (run : Uid) (step : Option Uid)
  /-- Takes the held step away from a run. -/
  | takeHeldStep (run : Uid)
  | updateStepStatus (step : Uid) (status : RunStatus)
  /-- Puts a step into a new attempt. -/
  | launchStep (step : Uid) (input : Json.Object) (time : Instant)
  | setStepStartTime (step : Uid) (time : Instant)
  | setStepEndTime (step : Uid) (time : Instant)
  | setSelectedCase (step : Uid) (name : String)
  /-- Uses up one of the repetitions that a step has left. -/
  | decrementRetry (step : Uid)
  /-- Writes a result onto its step, if the step is in the attempt that the result answers. -/
  | applyStepResult (step : Uid) (update : StepUpdate)
  /-- The runs that no other run has started, oldest first. -/
  | listTopLevelRuns
  /-- Removes runs with their steps and with all runs below them. -/
  | deleteRuns (runs : List Uid)
deriving Repr, Inhabited

/-- What a call answers when it does not fail. -/
abbrev Call.Value : Call → Type
  | .insertRun .. | .setRunStartTime .. | .setRunEndTime .. | .recordRunError ..
  | .setRunOutput .. | .setHeldStep .. | .updateStepStatus .. | .launchStep ..
  | .setStepStartTime .. | .setStepEndTime .. | .setSelectedCase .. => Unit
  | .getRun _ => Option WorkflowInstance
  | .getStep _ | .findStep .. => Option StepInstance
  | .listSteps _ => List StepInstance
  | .updateRunStatus .. | .decrementRetry _ | .applyStepResult .. => Bool
  | .takeHeldStep _ => Option Uid
  | .listTopLevelRuns => List TopLevelRun
  | .deleteRuns _ => Nat

def Call.name : Call → String
  | .insertRun .. => "insert_run"
  | .getRun _ => "get_run"
  | .getStep _ => "get_step"
  | .listSteps _ => "list_steps"
  | .findStep .. => "find_step_by_name"
  | .updateRunStatus .. => "update_run_status"
  | .setRunStartTime .. => "set_run_start_time"
  | .setRunEndTime .. => "set_run_end_time"
  | .recordRunError .. => "record_run_error"
  | .setRunOutput .. => "set_run_output"
  | .setHeldStep .. => "set_held_step"
  | .takeHeldStep _ => "take_held_step"
  | .updateStepStatus .. => "update_step_status"
  | .launchStep .. => "launch_step"
  | .setStepStartTime .. => "set_step_start_time"
  | .setStepEndTime .. => "set_step_end_time"
  | .setSelectedCase .. => "set_selected_case"
  | .decrementRetry _ => "decrement_retry"
  | .applyStepResult .. => "apply_step_result"
  | .listTopLevelRuns => "list_top_level_runs"
  | .deleteRuns _ => "delete_runs"

end Store

end Orchestration
