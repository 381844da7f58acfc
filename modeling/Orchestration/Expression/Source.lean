import Orchestration.Expression.Operator
import Orchestration.Expression.Reference

/-!
# The source of an expression

Parsing the source of an expression numbers its data references from left to right and puts a
variable in the place of each, so that a value that is read keeps its type. In what is left the
operators are rewritten.
-/

namespace Orchestration

namespace Expression

/-- The name of the variable that stands for a reference. -/
def variableName (index : Nat) : String := "__ref_" ++ toString index

/-- A data reference with the variable that stands for it. -/
structure DataReference where
  target : DataPath
  variableName : String
deriving DecidableEq, Repr

/-- An expression that is ready to be evaluated once its references are bound. -/
structure Source where
  text : String
  rewritten : String
  references : List DataReference
deriving DecidableEq, Repr

/-- The references among the pieces, numbered from `index`. -/
def numberReferences (index : Nat) : List Piece → List DataReference
  | [] => []
  | .char _ :: rest => numberReferences index rest
  | .reference path :: rest =>
    ⟨path, variableName index⟩ :: numberReferences (index + 1) rest

/-- The pieces as one text, a variable in the place of each reference, numbered from `index`. -/
def substitute (index : Nat) : List Piece → List Char
  | [] => []
  | .char c :: rest => c :: substitute index rest
  | .reference _ :: rest => (variableName index).toList ++ substitute (index + 1) rest

/-- Parses the source of an expression; a source of blanks alone is refused. -/
def Source.parse? (text : String) : Option Source :=
  if Text.isBlankText text then none
  else
    let pieces := scan text.toList
    some
      { text
        rewritten := rewriteOperators (String.ofList (substitute 0 pieces))
        references := numberReferences 0 pieces }

end Expression

end Orchestration
