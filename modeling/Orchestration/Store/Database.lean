import Orchestration.Store.Call
import Orchestration.Store.Column

/-!
# The store in a database

Every call of the store is one statement, but for a new run, whose row and the rows of its steps go
into one transaction. A change of a status has its condition in the statement itself, and the number
of rows that the statement has touched says whether the change was made.
-/

namespace Orchestration

namespace Store

open Sql (Action Condition Parameter Statement Term Value)

/-! ## Statements -/

/-- The condition that a row is the one of the first parameter. -/
def isFirst : Condition := .equals "uid" (.param 1)

def insertRunStatement : Statement :=
  .insert runTable
    ["uid", "workflow_uid", "name", "description", "run_status", "input_data", "output_data",
      "error_messages", "start_time", "end_time", "parent_instance_uid",
      "parent_step_instance_uid", "step_instance_ids", "held_step_instance_uid", "created_at"]

def insertStepStatement : Statement :=
  .insert stepTable
    ["uid", "workflow_instance_uid", "step_definition_uid", "name", "control_structure",
      "structure", "selected_case_name", "run_status", "run_order_label", "execution_order",
      "next_step_id", "previous_step_id", "retry_count", "run_count", "input_data", "output_data",
      "failure_reason", "start_time", "end_time"]

/-- Reads the rows of the runs that fulfil all conditions. -/
def selectRuns (conditions : List Condition) : Statement :=
  .select
    ["uid", "workflow_uid", "name", "description", "run_status", "input_data", "output_data",
      "error_messages", "start_time", "end_time", "parent_instance_uid",
      "parent_step_instance_uid", "step_instance_ids", "held_step_instance_uid", "created_at"]
    runTable conditions none none

/-- Reads the rows of the steps that fulfil all conditions. -/
def selectSteps (conditions : List Condition) (order : Option String) (limit : Option Nat) :
    Statement :=
  .select
    ["uid", "workflow_instance_uid", "step_definition_uid", "name", "control_structure",
      "structure", "selected_case_name", "run_status", "run_order_label", "execution_order",
      "next_step_id", "previous_step_id", "retry_count", "run_count", "input_data", "output_data",
      "failure_reason", "start_time", "end_time"]
    stepTable conditions order limit

/-- Sets one column of the row of the first parameter to the second one. -/
def setColumn (table : Sql.Table) (column : String) : Statement :=
  .update table [(column, .param 2)] [isFirst]

/-- Sets the status of a run that has not come to its end and, if a status is expected, has that. -/
def updateRunStatusStatement : Statement :=
  .update runTable [("run_status", .param 2)]
    [isFirst, .differsFromAll "run_status" (.param 3),
      .either (.isNull (.cast 4 .text)) (.equals "run_status" (.param 4))]

/-- Adds the reason of a failure to a run. -/
def recordErrorStatement : Statement :=
  .update runTable
    [("error_messages", .withMember "error_messages" (.cast 2 .text) (.cast 3 .text))] [isFirst]

def launchStatement : Statement :=
  .update stepTable
    [("run_status", .param 2), ("input_data", .param 3), ("start_time", .param 4),
      ("end_time", .null), ("failure_reason", .null)] [isFirst]

/-- Uses up one of the repetitions that a step has left. -/
def decrementRetryStatement : Statement :=
  .update stepTable [("retry_count", .predecessor "retry_count")]
    [isFirst, .isPositive "retry_count"]

/-- Writes a result onto a step that runs and has had the expected number of results. -/
def applyResultStatement : Statement :=
  .update stepTable
    [("run_status", .param 2), ("output_data", .param 3), ("failure_reason", .param 4),
      ("end_time", .param 5), ("run_count", .successor "run_count")]
    [isFirst, .equals "run_status" (.param 6), .equals "run_count" (.param 7)]

/-- The runs that no other run has started, oldest first. -/
def listTopLevelStatement : Statement :=
  .select ["uid", "created_at"] runTable [.columnIsNull "parent_instance_uid"] (some "created_at")
    none

/-! ## Parameters -/

/-- The parameters of the statement of a call that is made with one. -/
def Call.params : Call → List Parameter
  | .getRun u | .getStep u | .listSteps u | .takeHeldStep u | .decrementRetry u => [.uuid u]
  | .findStep run name => [.uuid run, .text name]
  | .updateRunStatus run status expected =>
    [.uuid run, .text status.text, .textArray (RunStatus.terminalStates.map (·.text)),
      .text? (expected.map (·.text))]
  | .setRunStartTime u time | .setRunEndTime u time | .setStepStartTime u time
  | .setStepEndTime u time => [.uuid u, .timestamptz time]
  | .recordRunError run step reason => [.uuid run, .text step, .text reason]
  | .setRunOutput run output => [.uuid run, .jsonb (.obj output)]
  | .setHeldStep run step => [.uuid run, .uuid? step]
  | .updateStepStatus step status => [.uuid step, .text status.text]
  | .launchStep step input time =>
    [.uuid step, .text RunStatus.running.text, .jsonb (.obj input), .timestamptz time]
  | .setSelectedCase step name => [.uuid step, .text name]
  | .applyStepResult step update =>
    [.uuid step, .text update.runStatus.text, .jsonb (.obj update.outputData),
      .text? update.failureReason, .timestamptz update.endTime, .text RunStatus.running.text,
      .int4 update.expectedRunCount]
  | .deleteRuns runs => [.uuidArray runs]
  | .insertRun .. | .listTopLevelRuns => []

/-! ## Calls -/

/-- Makes a statement and tells whether it has touched a row. -/
def change (statement : Statement) (params : List Parameter) : Action Bool := do
  return 0 < (← Action.execute statement params).affected

/-- Makes a statement and reads the first of its rows, if there is one. -/
def readFirst (read : Sql.Row → Except EngineError α) (statement : Statement)
    (params : List Parameter) : Action (Option α) := do
  match (← Action.execute statement params).rows with
  | [] => return none
  | row :: _ => some <$> ExceptT.mk (pure (read row))

/-- Makes a statement and reads all its rows. What the rows are taken for is asked only once all of
them have been read. -/
def readAll (readRow : Sql.Row → Except EngineError ρ) (convert : ρ → Except EngineError α)
    (statement : Statement) (params : List Parameter) : Action (List α) := do
  let rows := (← Action.execute statement params).rows
  ExceptT.mk (pure (do (← rows.mapM readRow).mapM convert))

/-- Reads a run that no other run has started. -/
def readTopLevelRun (r : Sql.Row) : Except EngineError TopLevelRun := do
  return { uid := ← r.read "uid" Value.uuid?
           createdAt := ← r.read "created_at" Value.timestamptz? }

/-- Puts the row of a run and those of its steps into their tables. -/
def insertRows (run : WorkflowInstance) (steps : List StepInstance) : Action Unit := do
  Action.perform insertRunStatement (WorkflowRow.ofInstance run).params
  steps.forM fun step => Action.perform insertStepStatement (StepRow.ofInstance step).params

/-- Carries out a call of the store in a database. -/
def Call.perform (c : Call) : Action c.Value :=
  match c with
  | .insertRun run steps => Action.transaction (insertRows run steps)
  | .getRun _ => readFirst readRun (selectRuns [isFirst]) c.params
  | .getStep _ => readFirst readStep (selectSteps [isFirst] none none) c.params
  | .listSteps _ =>
    readAll StepRow.ofRow StepRow.toInstance
      (selectSteps [.equals "workflow_instance_uid" (.param 1)] (some "execution_order") none)
      c.params
  | .findStep .. =>
    readFirst readStep
      (selectSteps [.equals "workflow_instance_uid" (.param 1), .equals "name" (.param 2)] none
        (some 1))
      c.params
  | .updateRunStatus .. => change updateRunStatusStatement c.params
  | .setRunStartTime .. => Action.perform (setColumn runTable "start_time") c.params
  | .setRunEndTime .. => Action.perform (setColumn runTable "end_time") c.params
  | .recordRunError .. => Action.perform recordErrorStatement c.params
  | .setRunOutput .. => Action.perform (setColumn runTable "output_data") c.params
  | .setHeldStep .. => Action.perform (setColumn runTable "held_step_instance_uid") c.params
  | .takeHeldStep _ => do
    let held ← readFirst (fun row => row.read? "held_step_instance_uid" Value.uuid?)
      (.take runTable "held_step_instance_uid") c.params
    return held.join
  | .updateStepStatus .. => Action.perform (setColumn stepTable "run_status") c.params
  | .launchStep .. => Action.perform launchStatement c.params
  | .setStepStartTime .. => Action.perform (setColumn stepTable "start_time") c.params
  | .setStepEndTime .. => Action.perform (setColumn stepTable "end_time") c.params
  | .setSelectedCase .. => Action.perform (setColumn stepTable "selected_case_name") c.params
  | .decrementRetry _ => change decrementRetryStatement c.params
  | .applyStepResult .. => change applyResultStatement c.params
  | .listTopLevelRuns => readAll readTopLevelRun .ok listTopLevelStatement c.params
  | .deleteRuns [] => return 0
  | .deleteRuns _ => do
    return (← Action.execute (.deleteBelow runTable "parent_instance_uid") c.params).affected

end Store

end Orchestration
