import Orchestration.Expression.Syntax
import Orchestration.Expression.Token

/-!
# Reading expressions

A descent through the levels of precedence, from the loosest to the tightest:

* `a if c else b`, which nests to the right;
* `or`, `and`, then `not`;
* comparisons, which chain;
* sums, then the joining of texts by `~`, then products, then powers, all grouping to the left;
* a minus sign; then whatever is read off an operand: attributes, items, slices and calls, and last
  filters and tests. All of these apply to the signed operand, so that `-5 | abs` is the absolute
  value of `-5`.

At most 150 brackets and operands may be open inside one another.

Every function takes the number of steps it may still nest. `parse` gives more of them than an
expression with so many tokens can use: between two tokens the descent passes each level once.
-/

namespace Orchestration

namespace Expression

namespace Parser

/-- A reader of a part of an expression from the tokens in front. -/
abbrev Reading (α : Type) := List Token → Except Fault (α × List Token)

/-- The fault of tokens that do not fit: the one that the first of them carries, if any. -/
def misfit : List Token → Fault
  | .bad f :: _ => f
  | _ => .wrongSyntax

/-- Reads a symbol that must come next. -/
def expect (s : String) : Reading Unit
  | .sym t :: rest => if s = t then .ok ((), rest) else .error .wrongSyntax
  | ts => .error (misfit ts)

def expectName : Reading String
  | .name n :: rest => .ok (n, rest)
  | ts => .error (misfit ts)

/-- How many brackets and operands may be open inside one another. -/
def maxNesting : Nat := 150

/-- A level of operators that group to the left. -/
inductive Level where
  | or
  | and
  | sum
  | joined
  | product
  | power
deriving DecidableEq

/-- The operation that a token stands for on a level. -/
def Level.operation? : Level → Token → Option (Expr → Expr → Expr)
  | .or, .name "or" => some .or
  | .and, .name "and" => some .and
  | .sum, .sym "+" => some (.binary .add)
  | .sum, .sym "-" => some (.binary .sub)
  | .joined, .sym "~" => some (.binary .concat)
  | .product, .sym "*" => some (.binary .mul)
  | .product, .sym "/" => some (.binary .div)
  | .product, .sym "//" => some (.binary .floorDiv)
  | .product, .sym "%" => some (.binary .mod)
  | .power, .sym "**" => some (.binary .pow)
  | _, _ => none

/-- The comparison that the tokens in front stand for, if they stand for one. A `not` that no `in`
follows does not fit. -/
def comparison? : List Token → Except Fault (Option (CompareOp × List Token))
  | .sym "==" :: rest => .ok (some (.eq, rest))
  | .sym "!=" :: rest => .ok (some (.ne, rest))
  | .sym "<" :: rest => .ok (some (.lt, rest))
  | .sym "<=" :: rest => .ok (some (.le, rest))
  | .sym ">" :: rest => .ok (some (.gt, rest))
  | .sym ">=" :: rest => .ok (some (.ge, rest))
  | .name "in" :: rest => .ok (some (.isIn, rest))
  | .name "not" :: .name "in" :: rest => .ok (some (.notIn, rest))
  | .name "not" :: rest => .error (misfit rest)
  | _ => .ok none

/-- Whether a token can begin the argument of a test that has no brackets. -/
def beginsArgument : List Token → Bool
  | .name n :: _ => n ∉ ["and", "or", "else", "is"]
  | .text _ :: _ | .int _ :: _ | .float _ :: _ => true
  | .sym s :: _ => ["+", "-", "[", "\x7b"].contains s
  | _ => false

/-- The texts in front: texts beside one another are one. -/
def adjacentTexts (s : String) : List Token → String × List Token
  | .text t :: rest => adjacentTexts (s ++ t) rest
  | ts => (s, ts)

/-- The value of a name that is a literal. -/
def literal? (name : String) : Option Value :=
  if name = "true" ∨ name = "True" then some (.bool true)
  else if name = "false" ∨ name = "False" then some (.bool false)
  else if name = "none" ∨ name = "None" then some .none
  else none

mutual

/-- A whole expression inside `open` brackets and operands. -/
def expression : Nat → Nat → Reading Expr
  | 0, _, _ => .error .wrongSyntax
  | fuel + 1, nesting, ts =>
    if maxNesting ≤ nesting then .error .wrongSyntax
    else do
      let (e, ts) ← level fuel (nesting + 1) .or ts
      conditions fuel (nesting + 1) e ts

/-- The conditions behind an expression. -/
def conditions : Nat → Nat → Expr → Reading Expr
  | 0, _, _, _ => .error .wrongSyntax
  | fuel + 1, nesting, e, ts =>
    match ts with
    | .name "if" :: ts => do
      let (test, ts) ← level fuel nesting .or ts
      match ts with
      | .name "else" :: ts => do
        let (no, ts) ← alternative fuel nesting ts
        conditions fuel nesting (.cond test e no) ts
      | ts => conditions fuel nesting (.cond test e (.const .undefined)) ts
    | ts => .ok (e, ts)

/-- The alternative of a condition, which may have conditions of its own. -/
def alternative : Nat → Nat → Reading Expr
  | 0, _, _ => .error .wrongSyntax
  | fuel + 1, nesting, ts => do
    let (e, ts) ← level fuel nesting .or ts
    conditions fuel nesting e ts

def level : Nat → Nat → Level → Reading Expr
  | 0, _, _, _ => .error .wrongSyntax
  | fuel + 1, nesting, l, ts => do
    let (e, ts) ← below fuel nesting l ts
    operations fuel nesting l e ts

def below : Nat → Nat → Level → Reading Expr
  | 0, _, _, _ => .error .wrongSyntax
  | fuel + 1, nesting, l, ts =>
    match l with
    | .or => level fuel nesting .and ts
    | .and => negation fuel nesting ts
    | .sum => level fuel nesting .joined ts
    | .joined => level fuel nesting .product ts
    | .product => level fuel nesting .power ts
    | .power => operand fuel nesting ts

/-- The operations of a level behind an expression. -/
def operations : Nat → Nat → Level → Expr → Reading Expr
  | 0, _, _, _, _ => .error .wrongSyntax
  | fuel + 1, nesting, l, e, ts =>
    match ts with
    | [] => .ok (e, [])
    | t :: rest =>
      match l.operation? t with
      | none => .ok (e, t :: rest)
      | some op => do
        let (right, rest) ← below fuel nesting l rest
        operations fuel nesting l (op e right) rest

/-- An expression that may be negated. -/
def negation : Nat → Nat → Reading Expr
  | 0, _, _ => .error .wrongSyntax
  | fuel + 1, nesting, ts =>
    match ts with
    | .name "not" :: ts => do
      let (e, ts) ← negation fuel nesting ts
      return (.not e, ts)
    | ts => do
      let (first, ts) ← level fuel nesting .sum ts
      let (links, ts) ← comparisons fuel nesting ts
      return (if links.isEmpty then first else .chain first links, ts)

/-- The links of a chain of comparisons. -/
def comparisons : Nat → Nat → Reading (List (CompareOp × Expr))
  | 0, _, _ => .error .wrongSyntax
  | fuel + 1, nesting, ts => do
    match ← comparison? ts with
    | none => return ([], ts)
    | some (op, ts) =>
      let (e, ts) ← level fuel nesting .sum ts
      let (links, ts) ← comparisons fuel nesting ts
      return ((op, e) :: links, ts)

/-- An operand with all that is read off it. -/
def operand : Nat → Nat → Reading Expr
  | 0, _, _ => .error .wrongSyntax
  | fuel + 1, nesting, ts => do
    let (e, ts) ← signed fuel nesting ts
    let (e, ts) ← accesses fuel nesting e ts
    filters fuel nesting e ts

def signed : Nat → Nat → Reading Expr
  | 0, _, _ => .error .wrongSyntax
  | fuel + 1, nesting, ts =>
    match ts with
    | .sym "-" :: ts => do
      let (e, ts) ← signed fuel nesting ts
      return (.neg e, ts)
    | ts => if maxNesting ≤ nesting then .error .wrongSyntax else atom fuel (nesting + 1) ts

/-- The attributes, items, slices and calls behind an operand. -/
def accesses : Nat → Nat → Expr → Reading Expr
  | 0, _, _, _ => .error .wrongSyntax
  | fuel + 1, nesting, e, ts =>
    match ts with
    | .sym "." :: .name n :: ts => accesses fuel nesting (.attr e n) ts
    | .sym "." :: .int i :: ts => accesses fuel nesting (.item e (.const (.int i))) ts
    | .sym "." :: ts => .error (misfit ts)
    | .sym "[" :: ts => do
      let (e, ts) ← subscript fuel nesting e ts
      accesses fuel nesting e ts
    | .sym "(" :: ts => do
      let (args, ts) ← items fuel nesting ")" ts
      let call : Expr := match e with
        | .var n => .call n args
        | .attr e n => .method e n args
        | e => .apply e args
      accesses fuel nesting call ts
    | ts => .ok (e, ts)

def subscript : Nat → Nat → Expr → Reading Expr
  | 0, _, _, _ => .error .wrongSyntax
  | fuel + 1, nesting, e, ts => do
    let (start, ts) ← bound fuel nesting [":"] ts
    match ts with
    | .sym ":" :: ts =>
      let (stop, ts) ← bound fuel nesting [":", "]"] ts
      let (step, ts) ← match ts with
        | .sym ":" :: ts => bound fuel nesting ["]"] ts
        | ts => .ok (none, ts)
      let ((), ts) ← expect "]" ts
      let orNone (e : Option Expr) : Expr := e.getD (.const .none)
      return (.slice e (orNone start) (orNone stop) (orNone step), ts)
    | ts =>
      let ((), ts) ← expect "]" ts
      match start with
      | some key => return (.item e key, ts)
      | none => throw .wrongSyntax

/-- A bound of a slice, absent where one of the given symbols comes next. -/
def bound : Nat → Nat → List String → Reading (Option Expr)
  | 0, _, _, _ => .error .wrongSyntax
  | fuel + 1, nesting, stops, ts =>
    let absent := match ts with
      | .sym s :: _ => stops.contains s
      | _ => false
    if absent then .ok (none, ts)
    else do
      let (e, ts) ← expression fuel nesting ts
      return (some e, ts)

/-- The filters and tests behind an operand. -/
def filters : Nat → Nat → Expr → Reading Expr
  | 0, _, _, _ => .error .wrongSyntax
  | fuel + 1, nesting, e, ts =>
    match ts with
    | .sym "|" :: ts => do
      let (name, ts) ← expectName ts
      let (args, ts) ← match ts with
        | .sym "(" :: ts => items fuel nesting ")" ts
        | ts => .ok ([], ts)
      filters fuel nesting (.filter e name args) ts
    | .name "is" :: ts => do
      let (negated, ts) := match ts with
        | .name "not" :: ts => (true, ts)
        | ts => (false, ts)
      let (name, ts) ← expectName ts
      let (args, ts) ← testArguments fuel nesting ts
      let test : Expr := .test e name args
      filters fuel nesting (if negated then .not test else test) ts
    | ts => .ok (e, ts)

/-- The arguments of a test: in brackets, or one operand without. -/
def testArguments : Nat → Nat → Reading (List Expr)
  | 0, _, _ => .error .wrongSyntax
  | fuel + 1, nesting, ts =>
    match ts with
    | .sym "(" :: ts => items fuel nesting ")" ts
    | ts =>
      if beginsArgument ts then do
        let (e, ts) ← signed fuel nesting ts
        let (e, ts) ← accesses fuel nesting e ts
        return ([e], ts)
      else .ok ([], ts)

/-- Expressions separated by commas, up to a closing bracket. -/
def items : Nat → Nat → String → Reading (List Expr)
  | 0, _, _, _ => .error .wrongSyntax
  | fuel + 1, nesting, close, ts =>
    match ts with
    | .sym s :: rest =>
      if s = close then .ok ([], rest) else listed fuel nesting close ts
    | ts => listed fuel nesting close ts

/-- One expression at least, up to a closing bracket. -/
def listed : Nat → Nat → String → Reading (List Expr)
  | 0, _, _, _ => .error .wrongSyntax
  | fuel + 1, nesting, close, ts => do
    let (e, ts) ← expression fuel nesting ts
    match ts with
    | .sym "," :: ts =>
      let (es, ts) ← items fuel nesting close ts
      return (e :: es, ts)
    | ts =>
      let ((), ts) ← expect close ts
      return ([e], ts)

/-- The entries of a map, up to its closing bracket. -/
def entries : Nat → Nat → Reading (List (Expr × Expr))
  | 0, _, _ => .error .wrongSyntax
  | fuel + 1, nesting, ts =>
    match ts with
    | .sym "\x7d" :: ts => .ok ([], ts)
    | ts => do
      let (key, ts) ← expression fuel nesting ts
      let ((), ts) ← expect ":" ts
      let (value, ts) ← expression fuel nesting ts
      match ts with
      | .sym "," :: ts =>
        let (rest, ts) ← entries fuel nesting ts
        return ((key, value) :: rest, ts)
      | ts =>
        let ((), ts) ← expect "\x7d" ts
        return ([(key, value)], ts)

/-- A literal, a name, a list, a map, or an expression in brackets. -/
def atom : Nat → Nat → Reading Expr
  | 0, _, _ => .error .wrongSyntax
  | fuel + 1, nesting, ts =>
    match ts with
    | .name n :: ts => .ok ((literal? n).elim (.var n) .const, ts)
    | .text s :: ts =>
      let (s, ts) := adjacentTexts s ts
      .ok (.const (.str s), ts)
    | .int i :: ts => .ok (.const (.int i), ts)
    | .float x :: ts => .ok (.const (.float x), ts)
    | .sym "[" :: ts => do
      let (es, ts) ← items fuel nesting "]" ts
      return (.seq es, ts)
    | .sym "\x7b" :: ts => do
      let (es, ts) ← entries fuel nesting ts
      return (.map es, ts)
    | .sym "(" :: .sym ")" :: ts => .ok (.seq [], ts)
    | .sym "(" :: ts => do
      let (e, ts) ← expression fuel nesting ts
      match ts with
      | .sym "," :: ts =>
        let (es, ts) ← items fuel nesting ")" ts
        return (.seq (e :: es), ts)
      | ts =>
        let ((), ts) ← expect ")" ts
        return (e, ts)
    | ts => .error (misfit ts)

end

/-- The steps that an expression of so many tokens can take. -/
def enoughSteps (tokens : Nat) : Nat := 24 * (tokens + 1)

/-- Reads an expression, which must use up the tokens. -/
def parseTokens (ts : List Token) : Except Fault Expr := do
  match ← expression (enoughSteps ts.length) 0 ts with
  | (e, []) => return e
  | (_, rest) => throw (misfit rest)

def parse (text : String) : Except Fault Expr := parseTokens (Token.tokenize text.toList)

end Parser

end Expression

end Orchestration
