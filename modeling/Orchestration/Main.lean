import Orchestration.Rehearsal.Operation

/-!
# Rehearsing from a terminal

Every line of the standard input describes a rehearsal: the functions and workflows that there are,
the settings of the engine, and the operations to carry out. The reports on the operations are
written one a line.
-/

namespace Orchestration

/-- The reports on a rehearsal that a line describes. -/
def rehearse (callbackUrl line : String) : List String :=
  match Json.parse? line with
  | some j =>
    let j := j.canonical
    let r := Rehearsal.ofJson callbackUrl j
    (r.reports (j.getItems "ops")).map fun report => report.toJson.text
  | none => [EngineError.undecodable.message]

/-- Rehearses line after line. -/
partial def rehearseLines (callbackUrl : String) (input output : IO.FS.Stream) : IO Unit := do
  let line ← input.getLine
  if line.isEmpty then return
  (rehearse callbackUrl line).forM output.putStrLn
  output.flush
  rehearseLines callbackUrl input output

end Orchestration

/-- Rehearses what the standard input describes, with the usual address for callbacks. -/
def main : IO Unit := do
  let c : Orchestration.AppConfig := {}
  Orchestration.rehearseLines c.callbackUrl (← IO.getStdin) (← IO.getStdout)
