import Orchestration.Engine.World
import Orchestration.Json.Access

/-!
# Names of runs and steps

Identifiers differ from one rehearsal to the next, so runs and steps have names as well: the runs
are `R1`, `R2` and so on in the order in which they are put into the store, and the steps of the
first are `R1.S1`, `R1.S2` and so on. A name is never given to another run, even if its run is gone.

In an operation a name behind an at sign stands for the identifier. In an answer every identifier
that has a name is replaced by it.
-/

namespace Orchestration

namespace Rehearsal

/-- A run that has been put into the store, and its steps, with their names. -/
structure NamedRun where
  name : String
  uid : Uid
  steps : List (String × Uid)
deriving DecidableEq, Repr, Inhabited

namespace NamedRun

/-- The run with a number, and its steps. -/
def number (n : Nat) (run : Uid) (steps : List StepInstance) : NamedRun :=
  let name := "R" ++ toString n
  { name
    uid := run
    steps := steps.mapIdx fun i step => (name ++ ".S" ++ toString (i + 1), step.uid) }

/-- The identifiers that have names, with those. -/
def names (r : NamedRun) : List (Uid × String) :=
  (r.uid, r.name) :: r.steps.map fun (name, uid) => (uid, name)

end NamedRun

/-- Gives names to the runs that some calls have put into the store. -/
def nameRuns (known : List NamedRun) (calls : List Engine.Call) : List NamedRun :=
  calls.foldl
    (fun known call =>
      match call with
      | .store (.insertRun run steps) =>
        if known.any fun r => r.uid = run.uid then known
        else known ++ [NamedRun.number (known.length + 1) run.uid steps]
      | _ => known)
    known

/-! ## From identifiers to names -/

/-- The name of an identifier, or its text if it has none. -/
def nameOf (known : List NamedRun) (uid : Uid) : String :=
  ((known.flatMap NamedRun.names).lookup uid).getD uid.text

/-- A text with names in the place of the identifiers that have names. -/
def showNames (names : List (String × String)) (s : String) : String :=
  if s.length < 36 then s
  else
    match names.lookup s with
    | some name => name
    | none => if s.length = 36 then s else names.foldl (fun s e => s.replace e.1 e.2) s

/-- A document with names in the place of the identifiers that have names. -/
def showAllNames (known : List NamedRun) (j : Json) : Json :=
  j.mapTexts (showNames ((known.flatMap NamedRun.names).map fun e => (e.1.text, e.2)))

/-! ## From names to identifiers -/

/-- The identifier of a run or of one of its steps, by their numbers; the nil identifier if there is
no such run or step. -/
def uidNamed (known : List NamedRun) (run : Nat) (step : Option Nat) : Uid :=
  match known[run - 1]?, step with
  | some r, none => r.uid
  | some r, some n => (r.steps[n - 1]?.map (·.2)).getD Uid.nil
  | none, _ => Uid.nil

def takeNumber? (cs : List Char) : Option (Nat × List Char) :=
  let digits := cs.takeWhile Char.isDigit
  if digits.isEmpty then none
  else some (Decimal.digitsValue digits, cs.dropWhile Char.isDigit)

/-- Takes a name off a text, the at sign in front of it included. -/
def takeName? : List Char → Option ((Nat × Option Nat) × List Char)
  | '@' :: 'R' :: cs =>
    (takeNumber? cs).map fun (run, rest) =>
      match rest with
      | '.' :: 'S' :: more =>
        match takeNumber? more with
        | some (step, more) => ((run, some step), more)
        | none => ((run, none), rest)
      | _ => ((run, none), rest)
  | _ => none

/-- A text of so many characters with identifiers in the place of names. -/
def resolveNames (known : List NamedRun) : Nat → List Char → List Char
  | 0, cs => cs
  | _ + 1, [] => []
  | fuel + 1, c :: cs =>
    match takeName? (c :: cs) with
    | some ((run, step), rest) =>
      (uidNamed known run step).text.toList ++ resolveNames known fuel rest
    | none => c :: resolveNames known fuel cs

/-- A document with identifiers in the place of names. -/
def resolveAllNames (known : List NamedRun) (j : Json) : Json :=
  j.mapTexts fun s =>
    if s.contains '@' then String.ofList (resolveNames known s.length s.toList) else s

end Rehearsal

end Orchestration
