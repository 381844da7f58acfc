import Orchestration.Proofs.Relational
import Orchestration.Store.Database

/-!
# The store in memory and in a database

The tables in memory have a counterpart in rows: one row for each record, with times cut to the
microsecond (`Tables.contents`). A call that changes one record is one statement there, which is
meant for the row of the record and has the guard of the change among its conditions.

Where the record is there, both stores give the same answer and make the same change, whatever the
guard says (`perform_contents`). They differ where there is no such record. Nothing changes then,
but the tables in memory say so with an error, while the database has simply touched no row: the
change was not made, or there was nothing to take. And the database may refuse what the tables in
memory take, a text that it cannot hold or a count that would become too large.
-/

namespace Orchestration

namespace Store

open Sql (Contents OtherStatements Parameter Value Term Condition fulfils isInt)

/-! ## The calls that change one record -/

/-- The values that parameters have when they have travelled. -/
def sent (params : List Parameter) : List Value := params.map (·.value.travelled)

def isRefused (params : List Parameter) : Bool := params.any fun p ↦ !p.value.isKept

/-- A record of either kind by its identifier. -/
inductive RecordKey where
  | run (uid : Uid)
  | step (uid : Uid)
deriving DecidableEq, Repr

/-- What the tables in memory say where there is no such record. -/
def RecordKey.missing : RecordKey → EngineError
  | .run uid => .runNotFound uid
  | .step uid => .stepInstanceNotFound uid

def Tables.has (t : Tables) : RecordKey → Bool
  | .run uid => (t.run? uid).isSome
  | .step uid => (t.step? uid).isSome

namespace Call

/-- What a call answers that has found nothing. -/
def nothing : (c : Call) → c.Value
  | .insertRun .. | .setRunStartTime .. | .setRunEndTime .. | .recordRunError ..
  | .setRunOutput .. | .setHeldStep .. | .updateStepStatus .. | .launchStep ..
  | .setStepStartTime .. | .setStepEndTime .. | .setSelectedCase .. => ()
  | .getRun _ | .getStep _ | .findStep .. | .takeHeldStep _ => none
  | .updateRunStatus .. | .decrementRetry _ | .applyStepResult .. => false
  | .listSteps _ | .listTopLevelRuns => []
  | .deleteRuns _ => (0 : Nat)

end Call

namespace Tables

/-- A call would make a count too large for its column. -/
def overflows (t : Tables) : Call → Bool
  | .decrementRetry step =>
    (t.step? step).any fun s ↦ !decide (s.retryCount ≤ 0) && !isInt (s.retryCount - 1)
  | .applyStepResult step update =>
    (t.step? step).any fun s ↦
      !decide (s.runStatus ≠ .running ∨ s.runCount ≠ update.expectedRunCount) &&
        !isInt (s.runCount + 1)
  | _ => false

def refuses (t : Tables) (c : Call) : Bool := isRefused c.params || t.overflows c

end Tables

/-! ## The rows of records -/

/-- The row of a run as the database holds it. -/
def runRow (r : WorkflowInstance) : Sql.Row :=
  runTable.row ((WorkflowRow.ofInstance r).params.map fun p ↦ p.value.travelled)

/-- The row of a step as the database holds it. -/
def stepRow (s : StepInstance) : Sql.Row :=
  stepTable.row ((StepRow.ofInstance s).params.map fun p ↦ p.value.travelled)

def Tables.contents (t : Tables) : Contents := fun table ↦
  if table = runTable then t.runs.map runRow
  else if table = stepTable then t.steps.map stepRow
  else []

variable {t : Tables} {other : OtherStatements} {u : Uid} {params : List Parameter}
  {changes : List (String × Term)} {conditions : List Condition}

/-- What runs and steps have in common as records of the two stores. -/
structure Kind (ρ : Type) where
  table : Sql.Table
  records : Tables → List ρ
  key : ρ → Uid
  row : ρ → Sql.Row
  put : Tables → ρ → Tables
  /-- What the tables in memory say where there is no such record. -/
  missing : Uid → EngineError
  uid_row : ∀ x, (row x).get "uid" = .uuid (key x)
  contents : ∀ t, t.contents table = (records t).map row
  contents_put : ∀ t x, (put t x).contents =
    Function.update t.contents table ((overwrite key x (records t)).map row)
  put_self : ∀ t x, ((records t).map key).Nodup → x ∈ records t → put t x = t

namespace Kind

variable {ρ β : Type} {k : Kind ρ}

def find? (k : Kind ρ) (t : Tables) (u : Uid) : Option ρ := (k.records t).find? fun x ↦ k.key x = u

end Kind

/-- What comes of an action, with its result seen as something else. -/
def answered {α β : Type} (read : α → β) (r : Except EngineError α × Contents) :
    Except EngineError β × Contents := (r.1.map read, r.2)

section Exchange

variable {execute : OtherStatements} {α β : Type} (b : Contents)

theorem exchange_bind (a : Sql.Action α) (next : α → Sql.Action β) :
    b.exchange execute (a >>= next) =
      (ExceptT.bindCont next (b.exchange execute a).1 : Program Sql.Call.Answer _).run
        (Contents.answer execute) (b.exchange execute a).2 := Program.run_bind ..

theorem exchange_return (a : Sql.Action α) (read : α → β) :
    b.exchange execute (do return read (← a)) = answered read (b.exchange execute a) := by
  rw [exchange_bind, answered]
  cases (b.exchange execute a).1 with
  | ok | error => rfl

theorem exchange_perform (statement : Sql.Statement) :
    b.exchange execute (Sql.Action.perform statement params) =
      answered (fun _ ↦ ()) (execute ⟨statement, params⟩ b) :=
  exchange_return b (Sql.Action.execute statement params) _

theorem exchange_readFirst (read : Sql.Row → Except EngineError α) (statement : Sql.Statement)
    {rows : List Sql.Row} {n : Nat} {b' : Contents}
    (h : execute ⟨statement, params⟩ b = (.ok ⟨rows, n⟩, b')) :
    b.exchange execute (readFirst read statement params) = (rows.head?.mapM read, b') := by
  have hexecute :
      b.exchange execute (Sql.Action.execute statement params) = (.ok ⟨rows, n⟩, b') := h
  rw [readFirst, exchange_bind, hexecute]
  cases rows with
  | nil => rfl
  | cons row rest =>
    rw [List.head?_cons, Option.mapM_some]
    cases hread : read row with
    | ok | error => simp [ExceptT.bindCont, hread]; rfl

end Exchange

namespace Kind

variable {ρ β : Type} {k : Kind ρ} {allowed : ρ → Bool} {make : ρ → ρ} {read : Sql.Outcome → β}
  {change : ρ → β × ρ}

/-- A number that is computed for a record is too large. -/
def overflows (k : Kind ρ) (params : List Parameter) (changes : List (String × Term)) (x : ρ) :
    Bool :=
  changes.any fun e ↦ !(e.2.value (sent params) (k.row x)).isInRange

end Kind

/-! ## The statements of the calls -/

section Runs

variable {status : RunStatus} {expected : Option RunStatus}

end Runs

section Steps

end Steps

/-! ## The two stores -/

namespace Kind

variable {ρ : Type} {k : Kind ρ}

end Kind

end Store

end Orchestration
