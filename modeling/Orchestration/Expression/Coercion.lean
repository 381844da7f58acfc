import Orchestration.Error
import Orchestration.Expression.Evaluation
import Orchestration.Expression.Source
import Orchestration.Json.Printer

/-!
# From sources to typed results

An expression is parsed, evaluated with documents bound to its names, and its result becomes a
document again. A result can then be taken as a truth value, as a number or as a text.
-/

namespace Orchestration

namespace Expression

/-- Parses the source of an expression. -/
def parseSource (text : String) : Except EngineError Source :=
  match Source.parse? text with
  | some source => .ok source
  | none => .error .emptyExpression

/-- The document that a value becomes. -/
def document (source : String) : Value → Except EngineError Json
  | .undefined => .error (.noValue source)
  | v =>
    match v.toJson? with
    | some j => .ok j
    | none => .error .undecodable

/-- Evaluates an expression with documents bound to its names. -/
def Source.evaluate (source : Source) (bindings : Dict Json) : Except EngineError Json :=
  match Parser.parse source.rewritten with
  | .error fault => .error (.cannotParse source.text fault)
  | .ok e =>
    match Expression.evaluate (bindings.mapValues Value.ofJson) e with
    | .error fault => .error (.cannotEvaluate source.text fault)
    | .ok v => document source.text v

/-- The value of a reference in the data of its step. -/
def DataPath.resolve (p : DataPath) (data : Json.Object) : Except EngineError Json :=
  match p.resolve? data with
  | some j => .ok j
  | none => .error (.keyNotFound p.path p.side p.step)

/-- The truth value of a word in any case; no letter outside ASCII has a lower case form in these
words. -/
def truthOfText? (s : String) : Option Bool :=
  let word := String.ofList ((Text.trimList s.toList).map Char.toLower)
  if word = "true" then some true else if word = "false" then some false else none

def asBool (source : String) : Json → Except EngineError Bool
  | .bool b => .ok b
  | .str s =>
    match truthOfText? s with
    | some b => .ok b
    | none => .error (.notBoolean source s)
  | j => .error (.notBoolean source j.text)

def asDouble (source : String) (j : Json) : Except EngineError Float :=
  let number? : Option Float := match j with
    | .int n => some (Float.ofInt n)
    | .float x => some x
    | .str s => Decimal.read? (Text.trim s)
    | _ => none
  match number? with
  | some x => .ok x
  | none => .error (.notNumeric source j.text)

/-- A result as a text; null is the empty text. -/
def asText : Json → String
  | .str s => s
  | .null => ""
  | j => j.text

end Expression

end Orchestration
