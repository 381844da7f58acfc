/-!
# Integers

The powers of two and of ten by which numbers are bounded and scaled, and integers in free text.
Such an integer is a run of decimal digits with perhaps a sign before it. A number that cannot be
negative may have a plus sign, but no minus sign.
-/

namespace Orchestration

/-! ## Bounds -/

def pow2 (n : Nat) : Nat := Nat.pow 2 n

def pow10 (n : Nat) : Nat := Nat.pow 10 n

/-- The greatest integer of 32 bits with a sign. -/
def greatestInt : Int := pow2 31 - 1

namespace Decimal

/-! ## Reading -/

/-- The value of a run of decimal digits. -/
def digitsValue (cs : List Char) : Nat :=
  cs.foldl (fun n c => n * 10 + (c.toNat - '0'.toNat)) 0

/-- The number that digits spell, after an optional plus sign. -/
def natural? (s : String) : Option Nat :=
  let digits := match s.toList with
    | '+' :: rest => rest
    | cs => cs
  if digits.isEmpty || !digits.all Char.isDigit then none else some (digitsValue digits)

/-- The number that digits spell, if it is below a bound. -/
def naturalBelow? (bound : Nat) (s : String) : Option Nat := (natural? s).filter (· < bound)

/-- The number that digits spell, after an optional sign. -/
def integer? (s : String) : Option Int :=
  match s.toList with
  | '-' :: rest =>
    if rest.isEmpty || !rest.all Char.isDigit then none else some (-(digitsValue rest : Int))
  | _ => (natural? s).map fun n => (n : Int)

/-- The number that digits spell after an optional sign, if it fits so many bits with a sign. -/
def signed? (bits : Nat) (s : String) : Option Int :=
  (integer? s).filter fun n => -(pow2 (bits - 1) : Int) ≤ n && n < (pow2 (bits - 1) : Int)

end Decimal

end Orchestration
