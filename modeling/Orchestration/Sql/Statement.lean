import Orchestration.Sql.Value

/-!
# Statements

The statements that the store makes, as trees of terms, conditions and changes. A tree has a written
form, which is what the database is sent.

Parameters are numbered from one and written behind a dollar sign.
-/

namespace Orchestration

namespace Sql

/-! ## Tables -/

structure Column where
  name : String
  type : ColumnType
  /-- What the definition of the table demands of the column. -/
  rule : String := ""
deriving DecidableEq, Repr, Inhabited

/-- A table with its columns, in the order in which they are written. -/
structure Table where
  name : String
  columns : List Column
deriving DecidableEq, Repr, Inhabited

namespace Table

def columnNames (t : Table) : List String := t.columns.map (·.name)

/-- The row of the values of all columns. -/
def row (t : Table) (values : List Value) : Row := t.columnNames.zip values

end Table

/-! ## Terms and conditions -/

/-- What the parameters and a row give a value to. -/
inductive Term where
  | param (number : Nat)
  /-- A parameter that is made to be of a type. -/
  | cast (number : Nat) (type : ColumnType)
  | null
  /-- The number in a column, and one more. -/
  | successor (column : String)
  /-- The number in a column, and one less. -/
  | predecessor (column : String)
  /-- The document in a column with one more member. -/
  | withMember (column : String) (name value : Term)
deriving DecidableEq, Repr, Inhabited

inductive Condition where
  | equals (column : String) (t : Term)
  /-- The column differs from every value of a list. -/
  | differsFromAll (column : String) (t : Term)
  | isPositive (column : String)
  | columnIsNull (column : String)
  | isNull (t : Term)
  /-- One of two conditions holds. -/
  | either (a b : Condition)
deriving DecidableEq, Repr, Inhabited

/-! ## Statements -/

inductive Statement where
  /-- Looks whether the database answers. -/
  | probe
  | createSchema (name : String)
  | createTable (table : Table)
  /-- Makes an index over a column, of the rows that fulfil all conditions. -/
  | createIndex (name : String) (table : Table) (column : String) (conditions : List Condition)
  /-- Puts a row into a table; the parameters are the values of the columns that are named, in their
  order. -/
  | insert (table : Table) (columns : List String)
  /-- The columns of the rows that fulfil all conditions, in ascending order of a column, and not
  more than so many. -/
  | select (columns : List String) (table : Table) (conditions : List Condition)
    (order : Option String) (limit : Option Nat)
  /-- Changes columns of the rows that fulfil all conditions. -/
  | update (table : Table) (changes : List (String × Term)) (conditions : List Condition)
  /-- Makes a column null in the row of an identifier and tells what it was. -/
  | take (table : Table) (column : String)
  /-- Removes the rows of some identifiers and all rows below them, where a column names the
  identifier of the row above. -/
  | deleteBelow (table : Table) (above : String)
deriving DecidableEq, Repr, Inhabited

structure Query where
  statement : Statement
  params : List Parameter := []
deriving DecidableEq, Repr, Inhabited

/-! ## The written form -/

def listText (items : List String) : String := ", ".intercalate items

/-- The written form of a column in the definition of its table. -/
def Column.declaration (c : Column) : String :=
  s!"{c.name} {c.type.declaration}" ++ (if c.rule.isEmpty then "" else " " ++ c.rule)

def paramText (number : Nat) : String := s!"${number}"

def Term.text : Term → String
  | .param number => paramText number
  | .cast number type => s!"{paramText number}::{type.name}"
  | .null => "NULL"
  | .successor column => s!"{column} + 1"
  | .predecessor column => s!"{column} - 1"
  | .withMember column name value =>
    s!"{column} || jsonb_build_object({name.text}, {value.text})"

def Condition.text : Condition → String
  | .equals column t => s!"{column} = {t.text}"
  | .differsFromAll column t => s!"{column} <> ALL({t.text})"
  | .isPositive column => s!"{column} > 0"
  | .columnIsNull column => s!"{column} IS NULL"
  | .isNull t => s!"{t.text} IS NULL"
  | .either a b => s!"({a.text} OR {b.text})"

/-- The written form of conditions that must all be fulfilled. -/
def conditionsText : List Condition → String
  | [] => ""
  | conditions => " WHERE " ++ " AND ".intercalate (conditions.map Condition.text)

namespace Statement

def text : Statement → String
  | .probe => "SELECT 1"
  | .createSchema name => s!"CREATE SCHEMA IF NOT EXISTS {name}"
  | .createTable table =>
    let columns := table.columns.map (·.declaration)
    s!"CREATE TABLE IF NOT EXISTS {table.name} ( {listText columns} )"
  | .createIndex name table column conditions =>
    s!"CREATE INDEX IF NOT EXISTS {name} ON {table.name} ({column})" ++ conditionsText conditions
  | .insert table columns =>
    let params := (List.range columns.length).map fun n => paramText (n + 1)
    s!"INSERT INTO {table.name} ( {listText columns} ) VALUES ({listText params})"
  | .select columns table conditions order limit =>
    s!"SELECT {listText columns} FROM {table.name}" ++ conditionsText conditions ++
      (order.map fun column => s!" ORDER BY {column} ASC").getD "" ++
      (limit.map fun n => s!" LIMIT {n}").getD ""
  | .update table changes conditions =>
    let changes := changes.map fun (column, t) => s!"{column} = {t.text}"
    s!"UPDATE {table.name} SET {listText changes}" ++ conditionsText conditions
  | .take table column =>
    s!"UPDATE {table.name} AS w SET {column} = NULL FROM " ++
      s!"( SELECT uid, {column} FROM {table.name} WHERE uid = $1 FOR UPDATE ) AS previous " ++
      s!"WHERE w.uid = previous.uid RETURNING previous.{column}"
  | .deleteBelow table above =>
    s!"WITH RECURSIVE doomed AS ( SELECT uid FROM {table.name} WHERE uid = ANY($1) " ++
      s!"UNION SELECT child.uid FROM {table.name} AS child " ++
      s!"JOIN doomed ON child.{above} = doomed.uid ) " ++
      s!"DELETE FROM {table.name} WHERE uid IN (SELECT uid FROM doomed)"

end Statement

end Sql

end Orchestration
