import Orchestration.Decimal.Integer

/-!
# Shortest decimals

A binary number stands for every real that rounds to it. `shortest` picks, of the decimals in that
interval, one with the fewest digits, and of those the nearest to the number itself. All of it is
exact arithmetic on natural numbers: the number is `m · 2 ^ q`, and each candidate is one of its two
neighbours on the decimal grid of a given number of digits.
-/

namespace Orchestration

/-- A decimal `digits · 10 ^ exponent`. -/
structure Decimal where
  digits : Nat
  exponent : Int
deriving DecidableEq, Repr

namespace Decimal

/-- How many decimal digits a number has; zero has none. -/
def digitCount (n : Nat) : Nat := if n = 0 then 0 else (Nat.toDigits 10 n).length

/-- The digits without leading or trailing zeros. -/
def strip (d : Decimal) : Decimal :=
  go (digitCount d.digits) d
where
  /-- Drops at most `fuel` trailing zeros; a number has no more of them than digits. -/
  go : Nat → Decimal → Decimal
    | 0, d => d
    | fuel + 1, d =>
      if d.digits % 10 = 0 ∧ d.digits ≠ 0 then go fuel ⟨d.digits / 10, d.exponent + 1⟩ else d

/-- The exponent `k` of `num / den = d.ddd · 10 ^ k`, for positive `num` and `den`. -/
def leadingExponent (num den : Nat) : Int :=
  if den ≤ num then (digitCount (num / den) : Int) - 1
  else -(digitCount ((den + num - 1) / num - 1) : Int)

/-- A binary number `m · 2 ^ q` together with the ends of the interval that rounds to it, all over
one denominator. The ends belong to the interval exactly when `closed`. -/
structure Interval where
  low : Nat
  value : Nat
  high : Nat
  den : Nat
  closed : Bool

/-- The reals that round to `m · 2 ^ q`. Where `m` is the least of its binade and not the least of
all (`narrow`), the neighbour below is only half as far away as the one above. -/
def Interval.ofBinary (m : Nat) (q : Int) (narrow : Bool) : Interval :=
  let scale := pow2 (q - 2).toNat
  { low := (4 * m - (if narrow then 1 else 2)) * scale
    value := 4 * m * scale
    high := (4 * m + 2) * scale
    den := pow2 (2 - q).toNat
    closed := m % 2 == 0 }

/-- Whether `num / den` lies in the interval. -/
def Interval.contains (i : Interval) (num den : Nat) : Bool :=
  if i.closed then i.low * den ≤ num * i.den && num * i.den ≤ i.high * den
  else i.low * den < num * i.den && num * i.den < i.high * den

/-- The best point of the interval on the grid of multiples of `10 ^ e`, if one lies in it: the
nearer of the value's two neighbours, the even one if both are equally near. -/
def Interval.onGrid? (i : Interval) (e : Int) : Option Decimal :=
  let up := pow10 e.toNat
  let down := pow10 (-e).toNat
  let below := i.value * down / (i.den * up)
  let has (c : Nat) := i.contains (c * up) down
  let twice := 2 * i.value * down
  let midpoint := (2 * below + 1) * (i.den * up)
  let preferBelow := twice < midpoint || (twice == midpoint && below % 2 == 0)
  match has below && below != 0, has (below + 1) with
  | true, true => some ⟨if preferBelow then below else below + 1, e⟩
  | true, false => some ⟨below, e⟩
  | false, true => some ⟨below + 1, e⟩
  | false, false => none

/-- The shortest decimal of `m · 2 ^ q` for positive `m`; seventeen digits always suffice for a
number of 53 bits. -/
def shortest (m : Nat) (q : Int) (narrow : Bool) : Decimal :=
  let i := Interval.ofBinary m q narrow
  let k := leadingExponent i.value i.den
  let grids := (List.range 17).map fun (n : Nat) => k - (n : Int)
  match grids.findSome? i.onGrid? with
  | some d => d.strip
  | none => ⟨i.value / i.den, 0⟩

/-- The number `m · 2 ^ q` behind a finite positive double, with `narrow` as `shortest` takes it. -/
def binaryParts (x : Float) : Nat × Int × Bool :=
  let bits := x.toBits.toNat
  let field : Nat := bits / pow2 52 % pow2 11
  let fraction : Nat := bits % pow2 52
  if field = 0 then (fraction, -1074, false)
  else (fraction + pow2 52, (field : Int) - 1075, fraction == 0 && field != 1)

/-- The shortest decimal that reads back as the magnitude of a finite double. -/
def ofFloat (x : Float) : Decimal :=
  let (m, q, narrow) := binaryParts x
  if m = 0 then ⟨0, 0⟩ else shortest m q narrow

end Decimal

end Orchestration
