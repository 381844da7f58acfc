import Orchestration.Json.Basic
import Orchestration.Decimal.Reading

/-!
# Reading documents

The reader is a pushdown machine that takes one character at a time. Its state is the lexeme it is
in the middle of, what may come next between lexemes (`Place`), and a stack with one frame for every
list and object that is still open. Reading a text is a fold of `step` over its characters, so that
reading one text after another is reading their concatenation.

The grammar is the strict one: no comments, no trailing commas, no leading zeros, blanks only space,
tab, line feed and carriage return, control characters in texts only as escapes, and no half of a
surrogate pair on its own. At most 127 lists and objects may be open at a time.
-/

namespace Orchestration

namespace Json

/-! ## Numbers -/

def spanDigits (cs : List Char) : List Char × List Char :=
  (cs.takeWhile Char.isDigit, cs.dropWhile Char.isDigit)

/-- The greatest significand that is read digit by digit. -/
def maxSignificand : Nat := pow2 64 - 1

/-- Reads digits into a significand as long as it fits 64 bits: the significand and the digits that
did not fit. -/
def growSignificand : Nat → List Char → Nat × List Char
  | n, [] => (n, [])
  | n, c :: rest =>
    let n' := n * 10 + (c.toNat - '0'.toNat)
    if n' ≤ maxSignificand then growSignificand n' rest else (n, c :: rest)

/-- An exponent as written after its `e`: its sign and digits. -/
structure ExponentText where
  negative : Bool
  digits : List Char

/-- The double of a significand scaled by `10 ^ shift` and by a written exponent. An exponent beyond
32 bits decides alone: a zero stays zero, a negative exponent gives zero, any other is too large. -/
def scaleNumber (significand : Nat) (shift : Int) : Option ExponentText → Option Float
  | none => Decimal.scaled significand shift
  | some e =>
    let n : Int := Decimal.digitsValue e.digits
    if pow2 31 ≤ n then
      if significand = 0 ∨ e.negative then some 0.0 else none
    else
      let total := if e.negative then shift - n else shift + n
      Decimal.scaled significand (max (-pow2 31 : Int) (min (pow2 31 - 1 : Int) total))

/-- The number with the given sign, whole digits, fraction digits (if there is a point) and exponent
(if there is one). Without point and exponent it is an integer if it fits 64 bits, signed or
unsigned; minus zero and all else are floating numbers. -/
def makeNumber (negative : Bool) (whole : List Char) (fraction : Option (List Char))
    (exponent : Option ExponentText) : Option Json :=
  let signed (x : Float) : Json := .float (if negative then -x else x)
  let (n, left) := growSignificand 0 whole
  match fraction, exponent with
  | none, none =>
    if left.isEmpty then
      if !negative then some (.int n)
      else if 0 < n ∧ n ≤ pow2 63 then some (.int (-n))
      else some (.float (-(n.toUInt64.toFloat)))
    else (Decimal.scaled n left.length).map signed
  | _, _ =>
    let places := fraction.getD []
    let (n, dropped) := growSignificand n places
    let shift : Int := (left.length : Int) - (places.length - dropped.length : Nat)
    (scaleNumber n shift exponent).map signed

/-- Reads the exponent of a number, which must use up the text. -/
def readExponent? : List Char → Option (Option ExponentText)
  | [] => some none
  | c :: rest =>
    if c = 'e' ∨ c = 'E' then
      let (negative, digits) := Decimal.splitSign rest
      if digits.isEmpty || !digits.all Char.isDigit then none else some (some ⟨negative, digits⟩)
    else none

def readNumber? (text : List Char) : Option Json :=
  let (negative, rest) := match text with
    | '-' :: rest => (true, rest)
    | rest => (false, rest)
  let (whole, rest) := spanDigits rest
  if whole.isEmpty ∨ (whole.head? = some '0' ∧ 1 < whole.length) then none
  else
    match rest with
    | '.' :: rest =>
      let (fraction, rest) := spanDigits rest
      if fraction.isEmpty then none
      else (readExponent? rest).bind (makeNumber negative whole (some fraction))
    | rest => (readExponent? rest).bind (makeNumber negative whole none)

/-! ## The machine -/

/-- A list or object that is still open, with what it holds so far, the latest first. -/
inductive Frame where
  | items (done : List Json)
  | members (done : List (String × Json)) (name : String)

/-- What may come next between lexemes. -/
inductive Place where
  | value
  | valueOrClose
  | name
  | nameOrClose
  | colon
  | commaOrClose

/-- The lexeme the reader is in the middle of. Texts are held with their latest character first. -/
inductive Lexeme where
  | none
  | word (left : List Char) (value : Json)
  | number (text : List Char)
  | text (text : List Char)
  | escape (text : List Char)
  | hex (text : List Char) (lead : Option Nat) (left : Nat) (code : Nat)
  | lead (text : List Char) (code : Nat)
  | leadEscape (text : List Char) (code : Nat)

structure Reader where
  lexeme : Lexeme := .none
  place : Place := .value
  stack : List Frame := []
  result : Option Json := none

namespace Reader

/-- The number of lists and objects that may be open at a time. -/
def maxDepth : Nat := 127

def isBlank (c : Char) : Bool := c = ' ' || c = '\t' || c = '\n' || c = '\r'

/-- A character that can occur in a number. -/
def isNumberChar (c : Char) : Bool :=
  c.isDigit || c = '-' || c = '+' || c = '.' || c = 'e' || c = 'E'

/-- A value is complete: it joins the innermost open frame, or is the document itself. -/
def deliver (r : Reader) (value : Json) : Reader :=
  match r.stack with
  | [] => { r with lexeme := .none, place := .commaOrClose, result := some value }
  | .items done :: rest =>
    { r with lexeme := .none, place := .commaOrClose, stack := .items (value :: done) :: rest }
  | .members done name :: rest =>
    { r with
      lexeme := .none
      place := .commaOrClose
      stack := .members ((name, value) :: done) name :: rest }

/-- A text is complete: a name where one was due, a value otherwise. -/
def deliverText (r : Reader) (text : List Char) : Reader :=
  let s := String.ofList text.reverse
  match r.place, r.stack with
  | .name, .members done _ :: rest | .nameOrClose, .members done _ :: rest =>
    { r with lexeme := .none, place := .colon, stack := .members done s :: rest }
  | _, _ => r.deliver (.str s)

/-- Opens a list or object, if not too many are open. -/
def openFrame (r : Reader) (frame : Frame) (place : Place) : Option Reader :=
  if r.stack.length < maxDepth then some { r with place, stack := frame :: r.stack } else none

/-- Closes the innermost frame, whose contents become one value. -/
def close (r : Reader) : Option Reader :=
  match r.stack with
  | [] => none
  | .items done :: rest => some ({ r with stack := rest }.deliver (.arr done.reverse))
  | .members done _ :: rest => some ({ r with stack := rest }.deliver (.obj done.reverse))

def beginValue (r : Reader) (c : Char) : Option Reader :=
  if c = '"' then some { r with lexeme := .text [] }
  else if c = '[' then r.openFrame (.items []) .valueOrClose
  else if c = '\x7b' then r.openFrame (.members [] "") .nameOrClose
  else if c = 't' then some { r with lexeme := .word ['r', 'u', 'e'] (.bool true) }
  else if c = 'f' then some { r with lexeme := .word ['a', 'l', 's', 'e'] (.bool false) }
  else if c = 'n' then some { r with lexeme := .word ['u', 'l', 'l'] .null }
  else if c = '-' ∨ c.isDigit then some { r with lexeme := .number [c] }
  else none

def between (r : Reader) (c : Char) : Option Reader :=
  if isBlank c then some r
  else
    match r.place with
    | .value => r.beginValue c
    | .valueOrClose => if c = ']' then r.close else r.beginValue c
    | .name => if c = '"' then some { r with lexeme := .text [] } else none
    | .nameOrClose =>
      if c = '\x7d' then r.close else if c = '"' then some { r with lexeme := .text [] } else none
    | .colon => if c = ':' then some { r with place := .value } else none
    | .commaOrClose =>
      match r.stack with
      | [] => none
      | .items _ :: _ =>
        if c = ',' then some { r with place := .value } else if c = ']' then r.close else none
      | .members .. :: _ =>
        if c = ',' then some { r with place := .name } else if c = '\x7d' then r.close else none

def hexDigit? (c : Char) : Option Nat :=
  if '0' ≤ c ∧ c ≤ '9' then some (c.toNat - '0'.toNat)
  else if 'a' ≤ c ∧ c ≤ 'f' then some (c.toNat - 'a'.toNat + 10)
  else if 'A' ≤ c ∧ c ≤ 'F' then some (c.toNat - 'A'.toNat + 10)
  else none

/-- What a one-letter escape stands for. -/
def escaped? (c : Char) : Option Char :=
  match c with
  | '"' => some '"'
  | '\\' => some '\\'
  | '/' => some '/'
  | 'b' => some '\x08'
  | 'f' => some '\x0c'
  | 'n' => some '\n'
  | 'r' => some '\r'
  | 't' => some '\t'
  | _ => none

/-- A code unit in the upper half of a surrogate pair. -/
def isLead (code : Nat) : Bool := 0xD800 ≤ code && code < 0xDC00

/-- A code unit in the lower half of a surrogate pair. -/
def isTrail (code : Nat) : Bool := 0xDC00 ≤ code && code < 0xE000

def deliverCode (r : Reader) (text : List Char) : Option Nat → Nat → Option Reader
  | none, code =>
    if isTrail code then none
    else if isLead code then some { r with lexeme := .lead text code }
    else some { r with lexeme := .text (Char.ofNat code :: text) }
  | some lead, code =>
    if isTrail code then
      let c := Char.ofNat (0x10000 + (lead - 0xD800) * 0x400 + (code - 0xDC00))
      some { r with lexeme := .text (c :: text) }
    else none

def step (r : Reader) (c : Char) : Option Reader :=
  match r.lexeme with
  | .none => r.between c
  | .word [] _ => none
  | .word [d] value => if c = d then some (r.deliver value) else none
  | .word (d :: left) value => if c = d then some { r with lexeme := .word left value } else none
  | .number text =>
    if isNumberChar c then some { r with lexeme := .number (c :: text) }
    else do
      let value ← readNumber? text.reverse
      (r.deliver value).between c
  | .text text =>
    if c = '"' then some (r.deliverText text)
    else if c = '\\' then some { r with lexeme := .escape text }
    else if c.toNat < 0x20 then none
    else some { r with lexeme := .text (c :: text) }
  | .escape text =>
    if c = 'u' then some { r with lexeme := .hex text none 4 0 }
    else (escaped? c).map fun e => { r with lexeme := .text (e :: text) }
  | .hex text lead left code => do
    let code := code * 16 + (← hexDigit? c)
    if left ≤ 1 then r.deliverCode text lead code
    else some { r with lexeme := .hex text lead (left - 1) code }
  | .lead text code => if c = '\\' then some { r with lexeme := .leadEscape text code } else none
  | .leadEscape text code =>
    if c = 'u' then some { r with lexeme := .hex text (some code) 4 0 } else none

/-- The document that has been read, if the text may end here. -/
def finish (r : Reader) : Option Json :=
  match r.lexeme, r.stack with
  | .none, [] => r.result
  | .number text, [] => readNumber? text.reverse
  | _, _ => none

/-- The reader with the number that it is in the middle of, if that may end here. -/
def settle (r : Reader) : Reader :=
  match r.lexeme with
  | .number text => ((readNumber? text.reverse).map r.deliver).getD r
  | _ => r

/-- Reads as far as the text is well formed. -/
def furthest (r : Reader) : List Char → Reader
  | [] => r.settle
  | c :: rest =>
    match r.step c with
    | some r => r.furthest rest
    | none => r.settle

end Reader

/-- Reads a document; nothing but blanks may follow it. -/
def parse? (text : String) : Option Json :=
  (text.toList.foldlM Reader.step {}).bind Reader.finish

end Json

end Orchestration
