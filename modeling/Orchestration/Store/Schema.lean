import Orchestration.Sql.Connection

/-!
# The tables of the store

Runs and steps have a table each. A step goes with its run: removing the run removes its steps.
-/

namespace Orchestration

namespace Store

open Sql (Action Column Statement Table)

/-- What a column demands that always has a value. -/
def required : String := "NOT NULL"

/-- A column of data, which is an empty object unless it is given. -/
def dataColumn (name : String) : Column := ⟨name, .jsonb, "NOT NULL DEFAULT '\x7b\x7d'::jsonb"⟩

/-- A column of a count, which is zero unless it is given. -/
def countColumn (name : String) : Column := ⟨name, .int4, "NOT NULL DEFAULT 0"⟩

def schemaName : String := "flowmesh"

def runTable : Table where
  name := "flowmesh.workflow_instance"
  columns :=
    [⟨"uid", .uuid, "PRIMARY KEY"⟩, ⟨"workflow_uid", .uuid, required⟩, ⟨"name", .text, required⟩,
      ⟨"description", .text, ""⟩, ⟨"run_status", .text, required⟩, dataColumn "input_data",
      dataColumn "output_data", dataColumn "error_messages", ⟨"start_time", .timestamptz, ""⟩,
      ⟨"end_time", .timestamptz, ""⟩, ⟨"parent_instance_uid", .uuid, ""⟩,
      ⟨"parent_step_instance_uid", .uuid, ""⟩,
      ⟨"step_instance_ids", .uuidArray, "NOT NULL DEFAULT '\x7b\x7d'"⟩,
      ⟨"held_step_instance_uid", .uuid, ""⟩,
      ⟨"created_at", .timestamptz, "NOT NULL DEFAULT NOW()"⟩]

def stepTable : Table where
  name := "flowmesh.step_instance"
  columns :=
    [⟨"uid", .uuid, "PRIMARY KEY"⟩,
      ⟨"workflow_instance_uid", .uuid,
        "NOT NULL REFERENCES flowmesh.workflow_instance (uid) ON DELETE CASCADE"⟩,
      ⟨"step_definition_uid", .uuid, required⟩, ⟨"name", .text, required⟩,
      ⟨"control_structure", .text, required⟩, ⟨"structure", .jsonb, required⟩,
      ⟨"selected_case_name", .text, ""⟩, ⟨"run_status", .text, required⟩,
      ⟨"run_order_label", .text, required⟩, ⟨"execution_order", .int4, required⟩,
      ⟨"next_step_id", .uuid, ""⟩, ⟨"previous_step_id", .uuid, ""⟩, countColumn "retry_count",
      countColumn "run_count", dataColumn "input_data", dataColumn "output_data",
      ⟨"failure_reason", .text, ""⟩, ⟨"start_time", .timestamptz, ""⟩,
      ⟨"end_time", .timestamptz, ""⟩]

/-- What makes the tables, where they are not there yet. -/
def schema : List Statement :=
  [.createSchema schemaName, .createTable runTable, .createTable stepTable,
    .createIndex "idx_step_instance_workflow" stepTable "workflow_instance_uid" [],
    .createIndex "idx_workflow_instance_parent" runTable "parent_instance_uid" [],
    .createIndex "idx_workflow_instance_created" runTable "created_at"
      [.columnIsNull "parent_instance_uid"]]

def initSchema : Action Unit :=
  Action.transaction (schema.forM fun statement => Action.perform statement [])

/-- The type of a column of either table. Columns of one name are of one type. -/
def columnType? (name : String) : Option Sql.ColumnType :=
  ((runTable.columns ++ stepTable.columns).find? fun c => c.name = name).map (·.type)

end Store

end Orchestration
