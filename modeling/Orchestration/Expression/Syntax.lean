import Orchestration.Expression.Arithmetic

/-!
# The expression tree
-/

namespace Orchestration

namespace Expression

inductive Expr where
  /-- A literal. -/
  | const (v : Value)
  /-- A name. -/
  | var (name : String)
  | seq (items : List Expr)
  | map (entries : List (Expr × Expr))
  | neg (e : Expr)
  | not (e : Expr)
  | binary (op : BinaryOp) (left right : Expr)
  | and (left right : Expr)
  | or (left right : Expr)
  /-- A chain of comparisons: it holds if each of its links does. -/
  | chain (first : Expr) (links : List (CompareOp × Expr))
  | cond (test yes no : Expr)
  | attr (e : Expr) (name : String)
  | item (e key : Expr)
  | slice (e start stop step : Expr)
  /-- A function called by its name. -/
  | call (name : String) (args : List Expr)
  | method (e : Expr) (name : String) (args : List Expr)
  /-- A call of anything else. -/
  | apply (e : Expr) (args : List Expr)
  | filter (e : Expr) (name : String) (args : List Expr)
  | test (e : Expr) (name : String) (args : List Expr)
deriving Inhabited, Repr

end Expression

end Orchestration
