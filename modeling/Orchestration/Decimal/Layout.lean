import Orchestration.Decimal.Shortest

/-!
# Layouts of a decimal number

Two layouts are in use. A document writes numbers positionally while the leading exponent is small
and with a signed exponent beyond that; a text assembled by an expression never uses an exponent.
Both keep one fraction digit at least, so that a number never looks like an integer.
-/

namespace Orchestration

namespace Decimal

/-- Which leading exponents are written positionally, and what stands for the doubles that are no
numbers. -/
structure Layout where
  positional : Int → Bool
  nan : String
  infinity : String

/-- The layout of documents: positional from `10 ^ -5` up to but excluding `10 ^ 16`. Documents
have no text for an infinity or for the double that is not a number, and write `null`. -/
def Layout.document : Layout := ⟨fun k => -5 ≤ k && k < 16, "null", "null"⟩

/-- The layout of assembled texts: always positional. -/
def Layout.plain : Layout := ⟨fun _ => true, "NaN", "inf"⟩

/-- The text of `digits · 10 ^ exponent` with a point and at least one digit after it. -/
def positionalText (digits : String) (exponent : Int) : String :=
  let zeros (n : Nat) := "".pushn '0' n
  if 0 ≤ exponent then digits ++ zeros exponent.toNat ++ ".0"
  else
    let places := (-exponent).toNat
    if places < digits.length then
      let whole := digits.length - places
      String.ofList (digits.toList.take whole) ++ "." ++ String.ofList (digits.toList.drop whole)
    else "0." ++ zeros (places - digits.length) ++ digits

/-- The text of `digits · 10 ^ exponent` as `d.ddde±x`, with the point only where digits follow. -/
def scientificText (digits : String) (exponent : Int) : String :=
  let k := exponent + digits.length - 1
  let tail := digits.toList.drop 1
  let point := if tail.isEmpty then "" else "." ++ String.ofList tail
  let sign := if k < 0 then "-" else "+"
  String.ofList (digits.toList.take 1) ++ point ++ "e" ++ sign ++ toString k.natAbs

/-- The text of a decimal, by its leading exponent. -/
def text (n : Layout) (d : Decimal) : String :=
  if d.digits = 0 then "0.0"
  else
    let digits := toString d.digits
    if n.positional (d.exponent + digits.length - 1) then positionalText digits d.exponent
    else scientificText digits d.exponent

/-- The text of a double; the sign of zero is kept. -/
def floatText (n : Layout) (x : Float) : String :=
  if x.isNaN then n.nan
  else
    let sign := if pow2 63 ≤ x.toBits.toNat then "-" else ""
    if x.isInf then (if n.infinity = "null" then "" else sign) ++ n.infinity
    else sign ++ text n (ofFloat x)

end Decimal

end Orchestration
