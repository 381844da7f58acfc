import Orchestration.Program
import Orchestration.Sql.Statement

/-!
# Working with a connection

What is done with a database is a program over statements and over the words that begin and end a
transaction. Either may fail, and every failure is the same to whoever asks: one of the database.

A transaction is taken back when a part of it fails, be it the last word.
-/

namespace Orchestration

namespace Sql

inductive Control where
  | start
  | commit
  | rollback
deriving DecidableEq, Repr, Inhabited

/-- The written form of a word about a transaction. -/
def Control.text : Control → String
  | .start => "BEGIN"
  | .commit => "COMMIT"
  | .rollback => "ROLLBACK"

inductive Call where
  | control (c : Control)
  | execute (q : Query)
deriving DecidableEq, Repr, Inhabited

/-- What comes of a statement: rows, or the number of rows that it has touched. -/
structure Outcome where
  rows : List Row := []
  affected : Nat := 0
deriving DecidableEq, Repr, Inhabited

abbrev Call.Answer : Call → Type
  | .control _ => Except EngineError Unit
  | .execute _ => Except EngineError Outcome

/-- A program over a connection that may fail. -/
abbrev Action (α : Type) : Type := ExceptT EngineError (Program Call.Answer) α

namespace Action

def control (c : Control) : Action Unit := ExceptT.mk (Program.ask (Call.control c))

def execute (statement : Statement) (params : List Parameter) : Action Outcome :=
  ExceptT.mk (Program.ask (Call.execute ⟨statement, params⟩))

/-- Makes a statement whose outcome is of no interest. -/
def perform (statement : Statement) (params : List Parameter) : Action Unit := do
  let _ ← execute statement params

/-- Carries an action out in a transaction. A transaction that cannot begin need not be taken
back. -/
def transaction (body : Action α) : Action α := do
  control .start
  tryCatch
    (do
      let result ← body
      control .commit
      return result)
    fun e => do
      tryCatch (control .rollback) fun _ => return ()
      throw e

def health : Program Call.Answer Bool := do
  return (← (execute .probe []).run).isOk

end Action

/-! ## Scripted answers -/

inductive Reply where
  | outcome (o : Outcome)
  /-- The statement fails. -/
  | failure
  /-- The connection breaks. -/
  | broken
deriving DecidableEq, Repr, Inhabited

/-- A database that answers statements in turn with what is written down for them; a statement for
which nothing is written down touches nothing. -/
structure Script where
  replies : List Reply := []
  /-- The word about a transaction that fails. -/
  failing : Option Control := none
  isConnected : Bool := true
  /-- What the database has been sent. -/
  sent : List Call := []
deriving DecidableEq, Repr, Inhabited

namespace Script

def send (s : Script) (c : Call) : Script := { s with sent := s.sent ++ [c] }

def reply (s : Script) : Except EngineError Outcome × Script :=
  match s.replies with
  | [] => (.ok {}, s)
  | .outcome o :: rest =>
    let rows := o.rows.map fun row => row.map fun (column, value) => (column, value.travelled)
    (.ok { o with rows }, { s with replies := rest })
  | .failure :: rest => (.error .database, { s with replies := rest })
  | .broken :: rest => (.error .database, { s with replies := rest, isConnected := false })

/-- Answers a call. A broken connection is sent nothing. -/
def answer : (c : Call) → Script → c.Answer × Script
  | .control c, s =>
    if !s.isConnected then (.error .database, s)
    else if s.failing = some c then (.error .database, s.send (.control c))
    else (.ok (), s.send (.control c))
  | .execute q, s =>
    if s.isConnected then (s.send (.execute q)).reply else (.error .database, s)

def act (s : Script) (a : Action α) : Except EngineError α × Script := a.run.run answer s

end Script

end Sql

end Orchestration
