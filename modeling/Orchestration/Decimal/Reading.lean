import Orchestration.Decimal.Integer

/-!
# Reading decimals

Two rules turn a written decimal into a double. `nearest` is the exact one: the double nearest to
the decimal. `scaled` is the rule for numbers in documents: the leading digits are taken as a 64-bit
integer and multiplied or divided by a power of ten, one rounding a step, which for long numbers can
end one unit away from the nearest double.
-/

namespace Orchestration

namespace Decimal

/-- The double nearest to `digits · 10 ^ exponent`. Exponents far outside the range of doubles are
settled without computing the power. -/
def nearest (digits : Nat) (exponent : Int) : Float :=
  let size := (Nat.toDigits 10 digits).length + exponent
  if digits = 0 ∨ size < -400 then 0.0
  else if 400 < size then 1.0 / 0.0
  else Float.ofScientific digits (exponent < 0) exponent.natAbs

/-- A power of ten that is a double, `0 ≤ n ≤ 308`. -/
private def power (n : Nat) : Float := Float.ofScientific 1 false n

/-- `significand · 10 ^ exponent` by scaling: one multiplication or division by a power of ten,
after as many divisions by `10 ^ 308` as it takes to come within its range. Yields nothing where the
result is too large for a double. -/
def scaled (significand : Nat) (exponent : Int) : Option Float :=
  go (exponent.natAbs / 308 + 1) significand.toUInt64.toFloat exponent
where
  /-- Divides by `10 ^ 308` until the exponent is in reach. -/
  go : Nat → Float → Int → Option Float
    | 0, f, _ => some f
    | fuel + 1, f, exponent =>
      if exponent.natAbs ≤ 308 then
        if 0 ≤ exponent then
          let g := f * power exponent.natAbs
          if g.isInf then none else some g
        else some (f / power exponent.natAbs)
      else if f == 0.0 then some f
      else if 0 ≤ exponent then none
      else go fuel (f / power 308) (exponent + 308)

/-! ## Decimals in free text -/

/-- An optional sign, and what follows it. -/
def splitSign : List Char → Bool × List Char
  | '-' :: rest => (true, rest)
  | '+' :: rest => (false, rest)
  | cs => (false, cs)

/-- The exponent part `e±dd` of a decimal, which must use up the text. -/
def exponentPart? : List Char → Option Int
  | [] => some 0
  | c :: rest =>
    if c = 'e' ∨ c = 'E' then
      let (negative, digits) := splitSign rest
      if digits.isEmpty || !digits.all Char.isDigit then none
      else
        let n : Int := digitsValue digits
        some (if negative then -n else n)
    else none

/-- The magnitude of an unsigned decimal: digits with at most one point, at least one digit on
either side of it, and an optional exponent; or one of the words `inf`, `infinity` and `nan` in any
mixture of cases. -/
def magnitude? (cs : List Char) : Option Float :=
  let word := String.ofList (cs.map Char.toLower)
  if word = "inf" ∨ word = "infinity" then some (1.0 / 0.0)
  else if word = "nan" then some (0.0 / 0.0)
  else
    let whole := cs.takeWhile Char.isDigit
    let rest := cs.dropWhile Char.isDigit
    let (fraction, rest) := match rest with
      | '.' :: rest => (rest.takeWhile Char.isDigit, rest.dropWhile Char.isDigit)
      | rest => ([], rest)
    if whole.isEmpty && fraction.isEmpty then none
    else (exponentPart? rest).map fun e =>
      nearest (digitsValue (whole ++ fraction)) (e - fraction.length)

/-- The double that a text denotes, sign included, if the text is a decimal. -/
def read? (s : String) : Option Float :=
  let (negative, rest) := splitSign s.toList
  (magnitude? rest).map fun x => if negative then -x else x

end Decimal

end Orchestration
