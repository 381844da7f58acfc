import Orchestration.Expression.Value
import Orchestration.Expression.Fault

/-!
# Arithmetic of values

Two integers are computed with as integers of 128 bits with a sign; a result that does not fit is an
invalid operation, as is division by zero. A double on either side makes both doubles. Truth values
count as one and zero, except under a minus sign.

Division of integers rounds so that the remainder is never negative.
-/

namespace Orchestration

namespace Expression

/-- An operation on two numbers or texts. -/
inductive BinaryOp where
  | add
  | sub
  | mul
  | div
  | floorDiv
  | mod
  | pow
  | concat
deriving DecidableEq, Repr

inductive CompareOp where
  | eq
  | ne
  | lt
  | le
  | gt
  | ge
  | isIn
  | notIn
deriving DecidableEq, Repr

namespace Value

/-- Whether an integer fits 128 bits with a sign. -/
def inRange (n : Int) : Bool := -pow2 127 ≤ n && n < pow2 127

/-- An integer result, unless it is out of range. -/
def ofInteger (n : Int) : Except Fault Value :=
  if inRange n then .ok (.int n) else .error .invalidOperation

/-- The integer that a value counts as: itself, one or zero for a truth value, and the integer that
a double is equal to. -/
def toInteger? : Value → Option Int
  | .int n => if inRange n then some n else Option.none
  | .bool b => some (ofBool b)
  | .float x =>
    match truncate? x with
    | some n => if -pow2 63 ≤ n ∧ n < pow2 63 ∧ x == Float.ofInt n then some n else Option.none
    | Option.none => Option.none
  | _ => Option.none

/-- The double that a number or truth value counts as. -/
def toDouble? : Value → Option Float
  | .int n => some (Float.ofInt n)
  | .bool b => some (Float.ofInt (ofBool b))
  | .float x => some x
  | _ => Option.none

inductive Operands where
  | integers (a b : Int)
  | doubles (a b : Float)
  | texts (a b : String)

/-- Brings two operands to one type, if they have one in common. -/
def operands? (a b : Value) : Option Operands :=
  match a, b with
  | .str a, .str b => some (.texts a b)
  | .float a, b => (toDouble? b).map (.doubles a)
  | a, .float b => (toDouble? a).map (.doubles · b)
  | a, b => do return .integers (← toInteger? a) (← toInteger? b)

/-! ## Doubles -/

def truncateFloat (x : Float) : Float := if x < 0.0 then x.ceil else x.floor

/-- The remainder of a division of doubles that rounds towards zero; it has the sign of the dividend
and is exact. -/
def remainderFloat (a b : Float) : Float :=
  if a.isNaN || b.isNaN || a.isInf || b == 0.0 then 0.0 / 0.0
  else if b.isInf then a
  else
    let (m, q, _) := Decimal.binaryParts a
    let (n, r, _) := Decimal.binaryParts b
    let e := min q r
    let rest := (m * pow2 (q - e).toNat) % (n * pow2 (r - e).toNat)
    let negative := pow2 63 ≤ a.toBits.toNat
    let magnitude := if a.abs < b.abs then a.abs else (Float.ofNat rest).scaleB e
    if negative then -magnitude else magnitude

/-- The quotient that leaves a remainder that is not negative. -/
def quotientFloat (a b : Float) : Float :=
  let q := truncateFloat (a / b)
  if remainderFloat a b < 0.0 then (if 0.0 < b then q - 1.0 else q + 1.0) else q

/-! ## Operations -/

/-- How often a text or list is repeated by a factor: an integer that is not negative. -/
def repeatCount? (v : Value) : Option Nat :=
  match toInteger? v with
  | some n => if 0 ≤ n then some n.toNat else Option.none
  | Option.none => Option.none

def repeatBy (factor : Value) (build : Nat → Value) : Except Fault Value :=
  match repeatCount? factor with
  | some n => .ok (build n)
  | Option.none => .error .invalidOperation

/-- Sum; also the concatenation of two texts or two lists. -/
def add (a b : Value) : Except Fault Value :=
  match a, b with
  | .seq a, .seq b => .ok (.seq (a ++ b))
  | a, b =>
    match operands? a b with
    | some (.integers a b) => ofInteger (a + b)
    | some (.doubles a b) => .ok (.float (a + b))
    | some (.texts a b) => .ok (.str (a ++ b))
    | Option.none => .error .invalidOperation

def sub (a b : Value) : Except Fault Value :=
  match operands? a b with
  | some (.integers a b) => ofInteger (a - b)
  | some (.doubles a b) => .ok (.float (a - b))
  | _ => .error .invalidOperation

/-- A list repeated. Nothing is nothing however often it is repeated. -/
def repeated (n : Nat) (items : List α) : List α :=
  if items.isEmpty then [] else (List.replicate n items).flatten

/-- Product; also a text or list repeated. -/
def mul (a b : Value) : Except Fault Value :=
  let text (s : String) (n : Nat) : Value := .str (String.ofList (repeated n s.toList))
  let list (items : List Value) (n : Nat) : Value := .seq (repeated n items)
  match a, b with
  | .str s, factor | factor, .str s => repeatBy factor (text s)
  | .seq items, factor | factor, .seq items => repeatBy factor (list items)
  | a, b =>
    match operands? a b with
    | some (.integers a b) => ofInteger (a * b)
    | some (.doubles a b) => .ok (.float (a * b))
    | _ => .error .invalidOperation

def div (a b : Value) : Except Fault Value :=
  match toDouble? a, toDouble? b with
  | some a, some b => .ok (.float (a / b))
  | _, _ => .error .invalidOperation

def floorDiv (a b : Value) : Except Fault Value :=
  match operands? a b with
  | some (.integers a b) => if b = 0 then .error .invalidOperation else ofInteger (a / b)
  | some (.doubles a b) => .ok (.float (quotientFloat a b))
  | _ => .error .invalidOperation

/-- Remainder: never negative for integers, with the sign of the dividend for doubles. -/
def mod (a b : Value) : Except Fault Value :=
  match operands? a b with
  | some (.integers a b) => if b = 0 then .error .invalidOperation else ofInteger (a % b)
  | some (.doubles a b) => .ok (.float (remainderFloat a b))
  | _ => .error .invalidOperation

/-- The power of an integer, unless it is out of range. The powers of all but three bases leave the
range before the exponent reaches 128, so no large power is ever computed. -/
def powInteger (a : Int) (n : Nat) : Except Fault Value :=
  if a = 0 ∨ a = 1 then .ok (.int (if n = 0 then 1 else a))
  else if a = -1 then .ok (.int (if n % 2 = 0 then 1 else -1))
  else if 128 ≤ n then .error .invalidOperation
  else ofInteger (Int.pow a n)

def pow (a b : Value) : Except Fault Value :=
  match operands? a b with
  | some (.integers a b) =>
    if 0 ≤ b ∧ b < pow2 32 then powInteger a b.toNat else .error .invalidOperation
  | some (.doubles a b) => .ok (.float (a ^ b))
  | _ => .error .invalidOperation

def concat (a b : Value) : Except Fault Value :=
  match a, b with
  | .undefined, _ | _, .undefined => .error .undefinedValue
  | a, b => .ok (.str (text a ++ text b))

def binary : BinaryOp → Value → Value → Except Fault Value
  | .add => add
  | .sub => sub
  | .mul => mul
  | .div => div
  | .floorDiv => floorDiv
  | .mod => mod
  | .pow => pow
  | .concat => concat

def neg : Value → Except Fault Value
  | .int n => ofInteger (-n)
  | .float x => .ok (.float (-x))
  | _ => .error .invalidOperation

/-! ## Comparison -/

/-- Whether `needle` occurs in `text` without a gap. -/
def occursIn (needle : List Char) : List Char → Bool
  | [] => needle.isEmpty
  | c :: rest => needle.isPrefixOf (c :: rest) || occursIn needle rest

/-- Whether a container has a value: a text a part, a list an item, a map a key. -/
def contains (container value : Value) : Except Fault Bool :=
  match container with
  | .str s => .ok (occursIn (text value).toList s.toList)
  | .seq items => .ok (items.any (same · value))
  | .map entries => .ok (lookup? value entries).isSome
  | _ => .error .invalidOperation

/-- A comparison of two values that are both defined. -/
def compareBy (op : CompareOp) (a b : Value) : Except Fault Bool :=
  match op with
  | .eq => .ok (same a b)
  | .ne => .ok (!same a b)
  | .lt => .ok (cmp a b == .lt)
  | .le => .ok (cmp a b != .gt)
  | .gt => .ok (cmp a b == .gt)
  | .ge => .ok (cmp a b != .lt)
  | .isIn => contains b a
  | .notIn => (contains b a).map (!·)

def compareWith (op : CompareOp) (a b : Value) : Except Fault Bool :=
  match a, b with
  | .undefined, _ | _, .undefined => .error .undefinedValue
  | a, b => compareBy op a b

/-- The truth of a value, which must be defined. -/
def truth : Value → Except Fault Bool
  | .undefined => .error .undefinedValue
  | v => .ok v.isTrue

end Value

end Expression

end Orchestration
