import Orchestration.Text.Blank
import Orchestration.Decimal.Reading

/-!
# Points in time

A point in time is a count of seconds since the beginning of 1970 and of nanoseconds within the
second. A leap second is the sixtieth second of its minute; it counts as the second before it with
`10 ^ 9` nanoseconds more.

Times are written in UTC with as many fraction digits as they need, in groups of three. They are
read with any offset from UTC.
-/

namespace Orchestration

structure Instant where
  seconds : Int
  nanos : Nat
deriving DecidableEq, Repr, Inhabited

namespace Instant

/-- Whether a point in time is before another. -/
def before (a b : Instant) : Bool :=
  a.seconds < b.seconds || (a.seconds == b.seconds && a.nanos < b.nanos)

def daySeconds : Int := 86400

/-- A point in time, so many seconds later. -/
def addSeconds (t : Instant) (n : Int) : Instant := { t with seconds := t.seconds + n }

/-! ## The calendar -/

/-- The number of days from the first of January 1970 to a date. Years begin in March here, so that
a leap day is the last of its year. -/
def daysOfDate (year : Int) (month day : Nat) : Int :=
  let y := if month ≤ 2 then year - 1 else year
  let era := y / 400
  let yearOfEra := y - era * 400
  let monthFromMarch : Int := if 2 < month then (month : Int) - 3 else month + 9
  let dayOfYear := (153 * monthFromMarch + 2) / 5 + day - 1
  let dayOfEra := yearOfEra * 365 + yearOfEra / 4 - yearOfEra / 100 + dayOfYear
  era * 146097 + dayOfEra - 719468

/-- The year, month and day of a number of days from the first of January 1970. -/
def dateOfDays (days : Int) : Int × Nat × Nat :=
  let z := days + 719468
  let era := z / 146097
  let dayOfEra := z - era * 146097
  let yearOfEra := (dayOfEra - dayOfEra / 1460 + dayOfEra / 36524 - dayOfEra / 146096) / 365
  let dayOfYear := dayOfEra - (365 * yearOfEra + yearOfEra / 4 - yearOfEra / 100)
  let monthFromMarch := (5 * dayOfYear + 2) / 153
  let day := dayOfYear - (153 * monthFromMarch + 2) / 5 + 1
  let month := if monthFromMarch < 10 then monthFromMarch + 3 else monthFromMarch - 9
  let year := yearOfEra + era * 400 + (if month ≤ 2 then 1 else 0)
  (year, month.toNat, day.toNat)

def isLeapYear (year : Int) : Bool :=
  year % 4 == 0 && (year % 100 != 0 || year % 400 == 0)

def daysOfMonth (year : Int) (month : Nat) : Nat :=
  if month = 2 then (if isLeapYear year then 29 else 28)
  else if month = 4 ∨ month = 6 ∨ month = 9 ∨ month = 11 then 30
  else 31

/-! ## Writing -/

/-- A number with at least so many digits. -/
def padded (width n : Nat) : String :=
  let ds := toString n
  "".pushn '0' (width - ds.length) ++ ds

/-- A year: four digits, with a sign where it has more or is before the year zero. -/
def yearText (year : Int) : String :=
  if 0 ≤ year ∧ year ≤ 9999 then padded 4 year.toNat
  else (if year < 0 then "-" else "+") ++ padded 4 year.natAbs

/-- A fraction of a second: nothing, or three, six or nine digits. -/
def fractionText (nanos : Nat) : String :=
  if nanos = 0 then ""
  else if nanos % 1000000 = 0 then "." ++ padded 3 (nanos / 1000000)
  else if nanos % 1000 = 0 then "." ++ padded 6 (nanos / 1000)
  else "." ++ padded 9 nanos

/-- The written form of a point in time. -/
def text (t : Instant) : String :=
  let days := t.seconds / daySeconds
  let ofDay := (t.seconds % daySeconds).toNat
  let (year, month, day) := dateOfDays days
  let leap := 1000000000 ≤ t.nanos
  let second := ofDay % 60 + (if leap then 1 else 0)
  let nanos := if leap then t.nanos - 1000000000 else t.nanos
  yearText year ++ "-" ++ padded 2 month ++ "-" ++ padded 2 day ++ "T" ++
    padded 2 (ofDay / 3600) ++ ":" ++ padded 2 (ofDay / 60 % 60) ++ ":" ++ padded 2 second ++
    fractionText nanos ++ "Z"

/-! ## Reading -/

/-- Takes a number of one digit at least and `width` at most off a text, after blanks. -/
def number? (width : Nat) (cs : List Char) : Option (Nat × List Char) :=
  let cs := cs.dropWhile Text.isBlank
  let digits := (cs.take width).takeWhile Char.isDigit
  if digits.isEmpty then none else some (Decimal.digitsValue digits, cs.drop digits.length)

/-- Takes a year off a text: four digits at most, or a sign and any number of digits. -/
def year? (cs : List Char) : Option (Int × List Char) :=
  let cs := cs.dropWhile Text.isBlank
  let signed (negative : Bool) (rest : List Char) : Option (Int × List Char) :=
    let digits := rest.takeWhile Char.isDigit
    if digits.isEmpty then none
    else
      let n : Int := Decimal.digitsValue digits
      some (if negative then -n else n, rest.dropWhile Char.isDigit)
  match cs with
  | '-' :: rest => signed true rest
  | '+' :: rest => signed false rest
  | cs => (number? 4 cs).map fun (n, rest) => ((n : Int), rest)

/-- Takes one character off a text, after blanks. -/
def char? (c : Char) (cs : List Char) : Option (List Char) :=
  match cs.dropWhile Text.isBlank with
  | d :: rest => if c = d then some rest else none
  | [] => none

/-- Takes the fraction of a second off a text, in nanoseconds; digits after the ninth are
dropped. -/
def fraction? : List Char → Option (Nat × List Char)
  | '.' :: rest =>
    let digits := rest.takeWhile Char.isDigit
    if digits.isEmpty then none
    else
      let kept := digits.take 9
      some (Decimal.digitsValue kept * pow10 (9 - kept.length), rest.dropWhile Char.isDigit)
  | cs => some (0, cs)

/-- Takes an offset from UTC off a text, in seconds. -/
def offset? (cs : List Char) : Option (Int × List Char) :=
  let cs := cs.dropWhile Text.isBlank
  let utc := (cs.take 3).map Char.toLower = ['u', 't', 'c']
  if utc then some (0, cs.drop 3)
  else
    let amount (negative : Bool) (rest : List Char) : Option (Int × List Char) :=
      match rest with
      | h₁ :: h₂ :: rest =>
        if h₁.isDigit && h₂.isDigit then
          match rest.dropWhile fun c => c = ':' || Text.isBlank c with
          | m₁ :: m₂ :: rest =>
            if '0' ≤ m₁ && m₁ ≤ '5' && m₂.isDigit then
              let seconds : Int :=
                Decimal.digitsValue [h₁, h₂] * 3600 + Decimal.digitsValue [m₁, m₂] * 60
              some (if negative then -seconds else seconds, rest)
            else none
          | _ => none
        else none
      | _ => none
    match cs with
    | 'Z' :: rest | 'z' :: rest => some (0, rest)
    | '+' :: rest => amount false rest
    | '-' :: rest | '−' :: rest => amount true rest
    | _ => none

/-- The years that a point in time can have. -/
def yearInRange (year : Int) : Bool := -262143 ≤ year && year ≤ 262142

/-- The point in time of a date, a time of day and an offset, if there is one. -/
def ofParts? (year : Int) (month day hour minute second nanos : Nat) (offset : Int) :
    Option Instant :=
  if yearInRange year ∧ 1 ≤ month ∧ month ≤ 12 ∧ 1 ≤ day ∧ day ≤ daysOfMonth year month ∧
      hour ≤ 23 ∧ minute ≤ 59 ∧ second ≤ 60 ∧ -daySeconds < offset ∧ offset < daySeconds then
    let (second, nanos) := if second = 60 then (59, nanos + 1000000000) else (second, nanos)
    let ofDay : Int := hour * 3600 + minute * 60 + second
    some ⟨daysOfDate year month day * daySeconds + ofDay - offset, nanos⟩
  else none

/-- Reads a point in time: a date, a `T` or a blank, a time of day and an offset. Blanks may stand
around the parts of each, but not before the `T`. -/
def parse? (s : String) : Option Instant := do
  let (year, cs) ← year? s.toList
  let (month, cs) ← number? 2 (← char? '-' cs)
  let (day, cs) ← number? 2 (← char? '-' cs)
  let cs ← match cs with
    | 'T' :: rest | 't' :: rest | ' ' :: rest => some rest
    | _ => none
  let (hour, cs) ← number? 2 cs
  let (minute, cs) ← number? 2 (← char? ':' cs)
  let (second, cs) ← number? 2 (← char? ':' cs)
  let (nanos, cs) ← fraction? cs
  let (offset, cs) ← offset? cs
  if cs.all Text.isBlank then ofParts? year month day hour minute second nanos offset else none

end Instant

end Orchestration
