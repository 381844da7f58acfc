import Orchestration.Expression.Parser
import Orchestration.Expression.Filter

/-!
# Evaluating expressions

A value is computed from the bindings of the names in it. The undefined value passes through a
condition and through `and` and `or` as their result, but nothing may be asked of it.

Where both sides of an `and` are made of literals alone, the `and` is decided before the evaluation,
and then a side that does not hold makes it `false` instead of being its value.
-/

namespace Orchestration

namespace Expression

/-- What the names of an expression stand for. -/
abbrev Bindings := Dict Value

/-! ## Parts made of literals -/

mutual

/-- The value of an expression made of literals. -/
def literalValue? : Expr → Option Value
  | .const v => some v
  | .seq items => (literalValues? items).map .seq
  | .map entries => (literalEntries? entries).map Value.mapOf
  | .not e => (literalValue? e).map fun v => .bool !v.isTrue
  | .neg e => (literalValue? e).bind fun v => (Value.neg v).toOption
  | .binary op a b => do (Value.binary op (← literalValue? a) (← literalValue? b)).toOption
  | .and a b => do
    let x ← literalValue? a
    let y ← literalValue? b
    return if x.isTrue && y.isTrue then y else .bool false
  | .or a b => do
    let x ← literalValue? a
    let y ← literalValue? b
    return if x.isTrue then x else y
  | .chain first links => do literalChain? (← literalValue? first) links
  | _ => none

/-- The values of expressions made of literals. -/
def literalValues? : List Expr → Option (List Value)
  | [] => some []
  | e :: rest => do return (← literalValue? e) :: (← literalValues? rest)

/-- The entries of a map made of literals. -/
def literalEntries? : List (Expr × Expr) → Option (List (Value × Value))
  | [] => some []
  | (k, e) :: rest => do return (← literalValue? k, ← literalValue? e) :: (← literalEntries? rest)

/-- The value of a chain of comparisons of literals behind its first. -/
def literalChain? : Value → List (CompareOp × Expr) → Option Value
  | _, [] => some (.bool true)
  | v, (op, e) :: rest => do
    let w ← literalValue? e
    let holds ← (Value.compareWith op v w).toOption
    let others ← literalChain? w rest
    return if holds then others else .bool false

end

/-! ## Items and slices -/

namespace Value

/-- The place in a list of a given length that an integer denotes; negative ones count from the
end. -/
def place? (length : Nat) (n : Int) : Option Nat :=
  if 0 ≤ n then some n.toNat else if -n ≤ length then some (length + n).toNat else Option.none

def itemAt (items : List Value) (key : Value) : Value :=
  match (toInteger? key).bind (place? items.length) with
  | some i => items[i]?.getD .undefined
  | Option.none => .undefined

/-- The item of a value under a key, undefined if it has none. -/
def getItem (v key : Value) : Except Fault Value :=
  match v with
  | .undefined => .error .undefinedValue
  | .seq items => .ok (itemAt items key)
  | .str s => .ok (itemAt (s.toList.map fun c => .str c.toString) key)
  | .map entries => .ok ((lookup? key entries).getD .undefined)
  | _ => .ok .undefined

/-- A bound of a slice; null leaves it out. -/
def sliceBound : Value → Except Fault (Option Int)
  | .none => .ok Option.none
  | v =>
    match toInteger? v with
    | some n => if -pow2 63 ≤ n ∧ n < pow2 63 then .ok (some n) else .error .invalidOperation
    | Option.none => .error .invalidOperation

/-- A bound of a slice brought into a list of a given length: negative ones count from the end, and
those outside move to `low` or `high`. -/
def clampBound (length low high : Int) (n : Int) : Int :=
  let n := if n < 0 then n + length else n
  max low (min high n)

/-- Every `step`-th item from `start` on, `count` of them. -/
def everyItem (items : List α) (step : Int) : Nat → Int → List α
  | 0, _ => []
  | count + 1, start => items[start.toNat]?.toList ++ everyItem items step count (start + step)

/-- The items of a slice with a step other than zero. -/
def sliceItems (items : List α) (start stop : Option Int) (step : Int) : List α :=
  let length : Int := items.length
  if 0 < step then
    let first := (start.map (clampBound length 0 length)).getD 0
    let last := (stop.map (clampBound length 0 length)).getD length
    everyItem items step ((last - first + step - 1) / step).toNat first
  else
    let first := (start.map (clampBound length (-1) (length - 1))).getD (length - 1)
    let last := (stop.map (clampBound length (-1) (length - 1))).getD (-1)
    everyItem items step ((first - last - step - 1) / -step).toNat first

def slice (v start stop step : Value) : Except Fault Value := do
  if v matches .undefined then throw .undefinedValue
  let start ← sliceBound start
  let stop ← sliceBound stop
  let step := (← sliceBound step).getD 1
  if step = 0 then throw .invalidOperation
  match v with
  | .str s => return .str (String.ofList (sliceItems s.toList start stop step))
  | .seq items => return .seq (sliceItems items start stop step)
  | .none => return .seq []
  | _ => throw .invalidOperation

end Value

/-! ## Evaluation -/

/-- What a called name answers. A name that is bound is no function. Of the functions of the
language, `dict`, `namespace` and `debug` are not part of this and count as unknown. -/
def callFunction (bindings : Bindings) (name : String) (args : List Value) : Except Fault Value :=
  if name = "super" ∨ name = "loop" then .error .invalidOperation
  else if bindings.contains name then .error .invalidOperation
  else if name = "range" then Value.withArguments args Value.range
  else .error .unknownFunction

/-- What a called method answers: values have none, and what a map holds under a name is no
function. -/
def callMethod (v : Value) (name : String) : Except Fault Value :=
  match v with
  | .map entries =>
    if (Value.lookup? (.str name) entries).isSome then .error .invalidOperation
    else .error .unknownMethod
  | _ => .error .unknownMethod

mutual

def evaluate (bindings : Bindings) : Expr → Except Fault Value
  | .const v => .ok v
  | .var name => .ok ((bindings.get? name).getD .undefined)
  | .seq items => (evaluateAll bindings items).map .seq
  | .map entries => (evaluateEntries bindings entries).map Value.mapOf
  | .neg e => do Value.neg (← evaluate bindings e)
  | .not e => do return .bool !(← Value.truth (← evaluate bindings e))
  | .binary op a b => do
    let x ← evaluate bindings a
    let y ← evaluate bindings b
    Value.binary op x y
  | .and a b =>
    match literalValue? (.and a b) with
    | some v => .ok v
    | none => do
      let x ← evaluate bindings a
      if ← Value.truth x then evaluate bindings b else return x
  | .or a b => do
    let x ← evaluate bindings a
    if ← Value.truth x then return x else evaluate bindings b
  | .chain first links => do evaluateChain bindings (← evaluate bindings first) links
  | .cond test yes no => do
    if ← Value.truth (← evaluate bindings test) then evaluate bindings yes
    else evaluate bindings no
  | .attr e name => do Value.getItem (← evaluate bindings e) (.str name)
  | .item e key => do
    let v ← evaluate bindings e
    Value.getItem v (← evaluate bindings key)
  | .slice e start stop step => do
    let v ← evaluate bindings e
    let start ← evaluate bindings start
    let stop ← evaluate bindings stop
    Value.slice v start stop (← evaluate bindings step)
  | .call name args => do callFunction bindings name (← evaluateAll bindings args)
  | .method e name args => do
    let v ← evaluate bindings e
    let _ ← evaluateAll bindings args
    callMethod v name
  | .apply e args => do
    let _ ← evaluate bindings e
    let _ ← evaluateAll bindings args
    throw .invalidOperation
  | .filter e name args => do
    let v ← evaluate bindings e
    Value.applyFilter name v (← evaluateAll bindings args)
  | .test e name args => do
    let v ← evaluate bindings e
    Value.applyTest name v (← evaluateAll bindings args)

/-- The values of expressions, from left to right. -/
def evaluateAll (bindings : Bindings) : List Expr → Except Fault (List Value)
  | [] => .ok []
  | e :: rest => do
    let v ← evaluate bindings e
    return v :: (← evaluateAll bindings rest)

/-- The entries of a map, from left to right. -/
def evaluateEntries (bindings : Bindings) :
    List (Expr × Expr) → Except Fault (List (Value × Value))
  | [] => .ok []
  | (k, e) :: rest => do
    let key ← evaluate bindings k
    let v ← evaluate bindings e
    return (key, v) :: (← evaluateEntries bindings rest)

/-- A chain of comparisons behind its first value, up to the first link that does not hold. -/
def evaluateChain (bindings : Bindings) (v : Value) :
    List (CompareOp × Expr) → Except Fault Value
  | [] => .ok (.bool true)
  | (op, e) :: rest => do
    let w ← evaluate bindings e
    if ← Value.compareWith op v w then evaluateChain bindings w rest else return .bool false

end

end Expression

end Orchestration
