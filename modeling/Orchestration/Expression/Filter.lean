import Orchestration.Expression.Arithmetic
import Orchestration.Decimal.Reading
import Orchestration.Text.Blank
import Orchestration.Text.Case

/-!
# Filters, tests and functions

A filter makes a value of a value, a test asks something of it. Both may take further arguments.
Only a part of those that the language comes with are here (`filter?`, `test?`); the others count as
unknown. The arguments are taken in order, each as the type that its place asks for, and only then
is the number of them checked from above; so a wrong argument is reported before one too many.
-/

namespace Orchestration

namespace Expression

namespace Value

/-! ## Arguments -/

/-- The arguments that are still to be taken. -/
abbrev Arguments := StateT (List Value) (Except Fault)

/-- Takes an argument, which may be undefined. -/
def takeAny : Arguments Value := do
  match ← get with
  | [] => throw .missingArgument
  | v :: rest =>
    set rest
    return v

/-- Takes an argument, which must be defined. -/
def take : Arguments Value := do
  match ← takeAny with
  | .undefined => throw .undefinedValue
  | v => return v

def takeText : Arguments String := return text (← take)

/-- Takes an argument that may be left out; an undefined value or null leaves it out too. -/
def takeOptional : Arguments (Option Value) := do
  match ← get with
  | [] => return Option.none
  | v :: rest =>
    set rest
    match v with
    | .undefined | .none => return Option.none
    | v => return some v

/-- Takes an integer between bounds that may be left out. -/
def takeInteger? (low high : Int) : Arguments (Option Int) := do
  match ← takeOptional with
  | Option.none => return Option.none
  | some v =>
    match toInteger? v with
    | some n => if low ≤ n ∧ n ≤ high then return some n else throw .invalidOperation
    | Option.none => throw .invalidOperation

/-- Runs a computation that has to use up its arguments. -/
def withArguments (args : List Value) (body : Arguments α) : Except Fault α := do
  match ← body.run args with
  | (a, []) => return a
  | (_, _ :: _) => throw .tooManyArguments

/-! ## Filters -/

/-- The integer that a text spells: decimal digits after an optional sign, in range. -/
def integerOfText? (s : String) : Option Int :=
  let (negative, digits) := Decimal.splitSign s.toList
  if digits.isEmpty || !digits.all Char.isDigit then Option.none
  else
    let n : Int := Decimal.digitsValue digits
    let n := if negative then -n else n
    if inRange n then some n else Option.none

/-- A double cut to an integer; beyond the range of integers the nearest of them. -/
def cutToInteger (x : Float) : Int :=
  match truncate? x with
  | some n => max (-pow2 127 : Int) (min (pow2 127 - 1 : Int) n)
  | Option.none => if x.isNaN then 0 else if x < 0.0 then -pow2 127 else pow2 127 - 1

/-- A number cut to an integer, also one that a text spells. -/
def asInteger : Value → Except Fault Value
  | .none | .undefined => .ok (.int 0)
  | .bool b => .ok (.int (ofBool b))
  | .int n => .ok (.int n)
  | .float x => .ok (.int (cutToInteger x))
  | .str s =>
    match integerOfText? s with
    | some n => .ok (.int n)
    | Option.none =>
      match Decimal.read? s with
      | some x => .ok (.int (cutToInteger x))
      | Option.none => .error .invalidOperation
  | _ => .error .invalidOperation

/-- A number as a double, also one that a text spells. -/
def asDouble : Value → Except Fault Value
  | .none | .undefined => .ok (.float 0.0)
  | .str s =>
    match Decimal.read? s with
    | some x => .ok (.float x)
    | Option.none => .error .invalidOperation
  | v =>
    match toDouble? v with
    | some x => .ok (.float x)
    | Option.none => .error .invalidOperation

/-- A number times a power with a whole exponent, by repeated squaring. -/
def timesPower (product base : Float) (n : Nat) : Float :=
  if n = 0 then product
  else timesPower (if n % 2 = 0 then product else product * base) (base * base) (n / 2)

/-- A double rounded to so many decimal places, halves away from zero. -/
def roundTo (x : Float) (places : Int) : Float :=
  let power := timesPower 1.0 10.0 places.natAbs
  let scale := if 0 ≤ places then power else 1.0 / power
  (scale * x).round / scale

/-- The items that a value is made of, if it is made of items: the characters of a text, the items
of a list, the keys of a map, and none for null. -/
def itemsOf? : Value → Option (List Value)
  | .str s => some (s.toList.map fun c => .str c.toString)
  | .seq items => some items
  | .map entries => some (entries.map (·.1))
  | .none => some []
  | _ => Option.none

/-- The number of items that a value is made of. -/
def lengthOf : Value → Except Fault Value
  | .str s => .ok (.int s.length)
  | .seq items => .ok (.int items.length)
  | .map entries => .ok (.int entries.length)
  | _ => .error .invalidOperation

/-- The first of the items that a value is made of, undefined if there is none. -/
def firstOf : Value → Except Fault Value
  | .none => .error .invalidOperation
  | v =>
    match itemsOf? v with
    | some items => .ok (items.head?.getD .undefined)
    | Option.none => .error .invalidOperation

/-- The last character of a text or the last item of a list, undefined if there is none. -/
def lastOf : Value → Except Fault Value
  | .str s => .ok ((s.toList.getLast?.map fun c => .str c.toString).getD .undefined)
  | .seq items => .ok (items.getLast?.getD .undefined)
  | _ => .error .invalidOperation

def absOf : Value → Except Fault Value
  | .int n => if 0 ≤ n then .ok (.int n) else ofInteger (-n)
  | .float x => .ok (.float x.abs)
  | _ => .error .invalidOperation

/-- Replaces each occurrence of `old`, which is not empty, from left to right. -/
def replaceAll (old new : List Char) : Nat → List Char → List Char
  | _, [] => []
  | skip + 1, _ :: rest => replaceAll old new skip rest
  | 0, c :: rest =>
    if old.isPrefixOf (c :: rest) then new ++ replaceAll old new (old.length - 1) rest
    else c :: replaceAll old new 0 rest

/-- A text with every occurrence of `old` replaced. An empty `old` occurs at every place between two
characters and at both ends. -/
def replaced (s old new : String) : String :=
  if old.isEmpty then
    String.ofList (new.toList ++ s.toList.flatMap fun c => c :: new.toList)
  else String.ofList (replaceAll old.toList new.toList 0 s.toList)

/-- A text without the characters of `cut` at its ends. -/
def trimmed (s : String) (cut : Char → Bool) : String :=
  String.ofList ((s.toList.dropWhile cut).reverse.dropWhile cut).reverse

/-- The texts of the items of a value, joined. Empty texts in front count for nothing. -/
def joined (v : Value) (between : String) : Except Fault Value :=
  match itemsOf? v with
  | some items => .ok (.str (between.intercalate ((items.map text).dropWhile String.isEmpty)))
  | Option.none => .error .invalidOperation

/-- A fallback in place of an undefined value; a `lax` one also in place of any that does not
hold. -/
def orDefault (v : Value) (fallback : Option Value) (lax : Bool) : Value :=
  match v with
  | .undefined => fallback.getD (.str "")
  | v => if lax && !v.isTrue then fallback.getD (.str "") else v

/-- The filter of a name. These are the filters on single values and their parts. Those that sort,
group, select, slice or render (`sort`, `map`, `select`, `dictsort`, `items`, `list`, `tojson` and
the like), and second names such as `count` and `d`, are not part of this and count as unknown. -/
def filter? (name : String) : Option (Arguments Value) :=
  match name with
  | "upper" => some do return .str (Text.upper (← takeText))
  | "lower" => some do return .str (Text.lower (← takeText))
  | "trim" => some do
    let s ← takeText
    match ← takeOptional with
    | Option.none => return .str (Text.trim s)
    | some cut => return .str (trimmed s (text cut).toList.contains)
  | "length" => some do lengthOf (← take)
  | "replace" => some do return .str (replaced (← takeText) (← takeText) (← takeText))
  | "join" => some do
    let v ← take
    let between ← takeOptional
    joined v ((between.map text).getD "")
  | "first" => some do firstOf (← take)
  | "last" => some do lastOf (← take)
  | "abs" => some do absOf (← take)
  | "int" => some do asInteger (← take)
  | "float" => some do asDouble (← take)
  | "round" => some do
    let v ← take
    let places ← takeInteger? (-pow2 31) (pow2 31 - 1)
    match v with
    | .int n => return .int n
    | .float x => return .float (roundTo x (places.getD 0))
    | _ => throw .invalidOperation
  | "default" => some do
    let v ← takeAny
    let fallback ← takeOptional
    let lax ← takeOptional
    return orDefault v fallback ((lax.map isTrue).getD false)
  | "string" => some do return .str (text (← take))
  | "bool" => some do return .bool (← take).isTrue
  | _ => Option.none

def applyFilter (name : String) (v : Value) (args : List Value) : Except Fault Value :=
  match filter? name with
  | some body => withArguments (v :: args) body
  | Option.none => .error .unknownFilter

/-! ## Tests -/

/-- Whether an integer divides a number. -/
def divisibleBy (a b : Value) : Bool :=
  match operands? a b with
  | some (.integers a b) => b != 0 && a % b == 0
  | some (.doubles a b) => remainderFloat a b == 0.0
  | _ => false

/-- The test of a name. The tests for comparisons (`ne`, `lt`, `sameas`), for the beginnings and
ends of texts and for kinds that are told apart further (`integer`, `iterable`) are not part of this
and count as unknown. -/
def test? (name : String) : Option (Arguments Bool) :=
  match name with
  | "defined" => some do return !((← takeAny) matches .undefined)
  | "undefined" => some do return ((← takeAny) matches .undefined)
  | "none" => some do return ((← take) matches .none)
  | "number" => some do return ((← take) matches .int _ | .float _)
  | "string" => some do return ((← take) matches .str _)
  | "boolean" => some do return ((← take) matches .bool _)
  | "sequence" => some do return ((← take) matches .seq _)
  | "mapping" => some do return ((← take) matches .map _)
  | "odd" => some do return ((toInteger? (← take)).map (· % 2 == 1)).getD false
  | "even" => some do return ((toInteger? (← take)).map (· % 2 == 0)).getD false
  | "divisibleby" => some do return divisibleBy (← take) (← take)
  | "eq" => some do return same (← take) (← take)
  | "in" => some do
    let v ← take
    let container ← take
    return (contains container v).toOption.getD false
  | _ => Option.none

def applyTest (name : String) (v : Value) (args : List Value) : Except Fault Value :=
  match test? name with
  | some body => (withArguments (v :: args) body).map .bool
  | Option.none => .error .unknownTest

/-! ## Functions -/

/-- The greatest number of items that `range` makes. -/
def maxRange : Nat := 100000

/-- The integers from `low` up to but excluding `high`, in steps. -/
def rangeOf (low high step : Nat) : Except Fault Value :=
  if step = 0 then .error .invalidOperation
  else
    let count := (high - low + step - 1) / step
    if maxRange < count then .error .invalidOperation
    else .ok (.seq ((List.range count).map fun (i : Nat) => .int (low + i * step)))

/-- The function `range`: up to a number, or from one to another, in steps. -/
def range : Arguments Value := do
  let bound := takeInteger? 0 (pow2 32 - 1)
  if (← get).isEmpty then throw .missingArgument
  match ← get with
  | .undefined :: _ => throw .undefinedValue
  | .none :: _ => throw .invalidOperation
  | _ =>
    let low := ((← bound).getD 0).toNat
    let high ← bound
    let step := ((← bound).map Int.toNat).getD 1
    match high with
    | some high => rangeOf low high.toNat step
    | Option.none => rangeOf 0 low step

end Value

end Expression

end Orchestration
