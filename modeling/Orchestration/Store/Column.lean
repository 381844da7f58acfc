import Orchestration.Store.Row
import Orchestration.Store.Schema

/-!
# Rows as the columns of their tables

A row is written with the values of its columns in the order of the table, and read by their names.
-/

namespace Orchestration

namespace Store

open Sql (Parameter Value)

/-! ## Writing -/

/-- The values of the columns of a run. -/
def WorkflowRow.params (r : WorkflowRow) : List Parameter :=
  [.uuid r.uid, .uuid r.workflowUid, .text r.name, .text? r.description, .text r.runStatus,
    .jsonb r.inputData, .jsonb r.outputData, .jsonb r.errorMessages, .timestamptz? r.startTime,
    .timestamptz? r.endTime, .uuid? r.parentInstanceUid, .uuid? r.parentStepInstanceUid,
    .uuidArray r.stepInstanceIds, .uuid? r.heldStepInstanceUid, .timestamptz r.createdAt]

/-- The values of the columns of a step. -/
def StepRow.params (r : StepRow) : List Parameter :=
  [.uuid r.uid, .uuid r.workflowInstanceUid, .uuid r.stepDefinitionUid, .text r.name,
    .text r.controlStructure, .jsonb r.shape, .text? r.selectedCaseName, .text r.runStatus,
    .text r.runOrderLabel, .int4 r.executionOrder, .uuid? r.nextStepId, .uuid? r.previousStepId,
    .int4 r.retryCount, .int4 r.runCount, .jsonb r.inputData, .jsonb r.outputData,
    .text? r.failureReason, .timestamptz? r.startTime, .timestamptz? r.endTime]

/-! ## Reading -/

def WorkflowRow.ofRow (r : Sql.Row) : Except EngineError WorkflowRow := do
  return {
    uid := ← r.read "uid" Value.uuid?
    workflowUid := ← r.read "workflow_uid" Value.uuid?
    name := ← r.read "name" Value.text?
    description := ← r.read? "description" Value.text?
    runStatus := ← r.read "run_status" Value.text?
    inputData := ← r.read "input_data" Value.jsonb?
    outputData := ← r.read "output_data" Value.jsonb?
    errorMessages := ← r.read "error_messages" Value.jsonb?
    startTime := ← r.read? "start_time" Value.timestamptz?
    endTime := ← r.read? "end_time" Value.timestamptz?
    parentInstanceUid := ← r.read? "parent_instance_uid" Value.uuid?
    parentStepInstanceUid := ← r.read? "parent_step_instance_uid" Value.uuid?
    stepInstanceIds := ← r.read "step_instance_ids" Value.uuidArray?
    heldStepInstanceUid := ← r.read? "held_step_instance_uid" Value.uuid?
    createdAt := ← r.read "created_at" Value.timestamptz? }

def StepRow.ofRow (r : Sql.Row) : Except EngineError StepRow := do
  return {
    uid := ← r.read "uid" Value.uuid?
    workflowInstanceUid := ← r.read "workflow_instance_uid" Value.uuid?
    stepDefinitionUid := ← r.read "step_definition_uid" Value.uuid?
    name := ← r.read "name" Value.text?
    controlStructure := ← r.read "control_structure" Value.text?
    shape := ← r.read "structure" Value.jsonb?
    selectedCaseName := ← r.read? "selected_case_name" Value.text?
    runStatus := ← r.read "run_status" Value.text?
    runOrderLabel := ← r.read "run_order_label" Value.text?
    executionOrder := ← r.read "execution_order" Value.int4?
    nextStepId := ← r.read? "next_step_id" Value.uuid?
    previousStepId := ← r.read? "previous_step_id" Value.uuid?
    retryCount := ← r.read "retry_count" Value.int4?
    runCount := ← r.read "run_count" Value.int4?
    inputData := ← r.read "input_data" Value.jsonb?
    outputData := ← r.read "output_data" Value.jsonb?
    failureReason := ← r.read? "failure_reason" Value.text?
    startTime := ← r.read? "start_time" Value.timestamptz?
    endTime := ← r.read? "end_time" Value.timestamptz? }

def readRun (r : Sql.Row) : Except EngineError WorkflowInstance := do
  (← WorkflowRow.ofRow r).toInstance

def readStep (r : Sql.Row) : Except EngineError StepInstance := do
  (← StepRow.ofRow r).toInstance

end Store

end Orchestration
