import Orchestration.Error
import Orchestration.Function

/-!
# The catalog of functions in memory

A function that is asked to deploy counts as deploying. Its deployment completes with one of the
lookups that follow, or, where no number of lookups is set, not by itself.
-/

namespace Orchestration

structure FunctionCatalog where
  functions : List FunctionInfo := []
  /-- The functions that were asked to deploy, with the number of lookups until they are. -/
  requested : List (Uid × Nat) := []
  /-- How many lookups a deployment takes; none completes one where it is zero. -/
  lookupsToDeploy : Nat := 0
deriving DecidableEq, Repr, Inhabited

namespace FunctionCatalog

def find? (c : FunctionCatalog) (uid : Uid) : Option FunctionInfo :=
  c.functions.find? fun f => f.uid = uid

/-- Puts in a function, in the place of the one that has its identifier. -/
def insert (c : FunctionCatalog) (f : FunctionInfo) : FunctionCatalog :=
  if (c.find? f.uid).isSome then
    { c with functions := c.functions.map fun g => if g.uid = f.uid then f else g }
  else { c with functions := c.functions ++ [f] }

/-- Sets the state of a function, if there is one. -/
def setState (c : FunctionCatalog) (uid : Uid) (state : DeploymentState) : FunctionCatalog :=
  { c with
    functions := c.functions.map fun f => if f.uid = uid then { f with deploymentState := state }
      else f }

/-- Counts a lookup of a function whose deployment goes on. -/
def countLookup (c : FunctionCatalog) (uid : Uid) : FunctionCatalog :=
  match c.requested.lookup uid with
  | some (left + 1) =>
    let c := { c with
      requested := c.requested.map fun e => if e.1 = uid then (uid, left) else e }
    if left = 0 then c.setState uid .deployed else c
  | _ => c

def get (c : FunctionCatalog) (uid : Uid) : Except EngineError FunctionInfo × FunctionCatalog :=
  let c := c.countLookup uid
  match c.find? uid with
  | some f => (.ok f, c)
  | none => (.error (.functionNotFound uid), c)

/-- Asks for the deployment of a function. -/
def deploy (c : FunctionCatalog) (uid : Uid) : Except EngineError Unit × FunctionCatalog :=
  match c.find? uid with
  | none => (.error (.functionNotFound uid), c)
  | some _ =>
    let others := c.requested.filter fun e => e.1 ≠ uid
    (.ok (), { c.setState uid .deploying with requested := others ++ [(uid, c.lookupsToDeploy)] })

/-- The number of functions that were asked to deploy. -/
def requestCount (c : FunctionCatalog) : Nat := c.requested.length

end FunctionCatalog

end Orchestration
