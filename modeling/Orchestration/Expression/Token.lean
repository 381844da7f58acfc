import Orchestration.Expression.Fault
import Orchestration.Json.Reader

/-!
# Tokens of the expression language

An expression is a sequence of names, numbers, quoted texts and symbols, with blanks between them
where the reader likes. A character that begins no token, and a text or number that is not well
formed, ends the sequence with a `bad` token: what is wrong with an expression is decided by the
first token that does not fit, and the parser may fail before it gets to the bad one.
-/

namespace Orchestration

namespace Expression

inductive Token where
  | name (s : String)
  | int (n : Nat)
  | float (x : Float)
  | text (s : String)
  | sym (s : String)
  | bad (f : Fault)
deriving Repr, BEq

namespace Token

def isBlank (c : Char) : Bool :=
  c = ' ' || c = '\t' || c = '\n' || c = '\r' || c = '\x0c'

def isNameStart (c : Char) : Bool := c.isAlpha || c = '_'

def isNameRest (c : Char) : Bool := c.isAlphanum || c = '_'

/-! ## Numbers -/

/-- The part of a number that is being read. -/
inductive NumberPart where
  | whole
  | radix (base : Nat)
  | fraction
  | exponent
  | exponentRest

/-- The part that the next character of a number belongs to, if it belongs to the number. A point
that a name follows reads an attribute; behind a point an `e` still begins an exponent. -/
def NumberPart.next? (part : NumberPart) (c : Char) (rest : List Char) : Option NumberPart :=
  if c = '_' then some part
  else if c.isDigit then
    match part with
    | .exponent => some .exponentRest
    | part => some part
  else
    match part with
    | .whole =>
      if c = '.' then
        match rest with
        | d :: _ => if isNameStart d && d != 'e' && d != 'E' then none else some .fraction
        | [] => some .fraction
      else if c = 'e' ∨ c = 'E' then some .exponent
      else none
    | .fraction => if c = 'e' ∨ c = 'E' then some .exponent else none
    | .exponent => if c = '+' ∨ c = '-' then some .exponentRest else none
    | .radix base =>
      if base = 16 ∧ (('a' ≤ c ∧ c ≤ 'f') ∨ ('A' ≤ c ∧ c ≤ 'F')) then some part else none
    | .exponentRest => none

/-- The characters that belong to a number, and the part they end in. -/
def spanNumber (part : NumberPart) : List Char → List Char × NumberPart
  | [] => ([], part)
  | c :: rest =>
    match part.next? c rest with
    | none => ([], part)
    | some part' =>
      let (cs, last) := spanNumber part' rest
      (c :: cs, last)

/-- The base that a number announces in its first two characters. -/
def radix? : List Char → Option Nat
  | '0' :: c :: _ =>
    if c = 'b' ∨ c = 'B' then some 2
    else if c = 'o' ∨ c = 'O' then some 8
    else if c = 'x' ∨ c = 'X' then some 16
    else none
  | _ => none

/-- The integer that digits of a base denote: at least one digit, and below `2 ^ 128`. -/
def integer? (base : Nat) (cs : List Char) : Option Nat :=
  if cs.isEmpty then none
  else
    let digit? (c : Char) := (Json.Reader.hexDigit? c).filter (· < base)
    (cs.foldlM (fun n c => (digit? c).map (n * base + ·)) 0).filter (· < pow2 128)

/-- A number token, and how many characters it takes. -/
def readNumber (cs : List Char) : Token × Nat :=
  let base? := radix? cs
  let lead := if base?.isSome then 2 else 0
  let start := match base? with
    | some base => NumberPart.radix base
    | none => .whole
  let (written, last) := spanNumber start (cs.drop lead)
  let length := lead + written.length
  if written.getLast? = some '_' then (.bad .wrongSyntax, length)
  else
    let digits := written.filter (· ≠ '_')
    let token := match last with
      | .whole => (integer? 10 digits).map Token.int
      | .radix base => (integer? base digits).map Token.int
      | _ => (Decimal.magnitude? digits).map Token.float
    (token.getD (.bad .wrongSyntax), length)

/-! ## Quoted texts -/

/-- The characters up to the mark that ends a quoted text. -/
def spanQuoted (mark : Char) : List Char → Option (List Char)
  | [] => none
  | '\\' :: c :: rest => (spanQuoted mark rest).map ('\\' :: c :: ·)
  | c :: rest => if c = mark then some [] else (spanQuoted mark rest).map (c :: ·)

/-- Where in an escape the reading of a quoted text is. -/
inductive EscapeState where
  | plain
  | backslash
  | hex (wide : Bool) (digits : List Char)
  | octal (count : Nat) (code : Nat)

/-- A quoted text of which a part has been read: the upper half of a surrogate pair that waits for
its lower half, and the characters so far, the latest first. -/
structure Unescaper where
  state : EscapeState := .plain
  pending : Option Nat := none
  out : List Char := []

/-- Adds a character, unless half a surrogate pair is waiting. -/
def Unescaper.push (u : Unescaper) (c : Char) : Except Fault Unescaper :=
  if u.pending.isSome then .error .badEscape
  else .ok { u with state := .plain, out := c :: u.out }

/-- Adds a code unit; two halves of a surrogate pair become one character. -/
def Unescaper.pushUnit (u : Unescaper) (code : Nat) : Except Fault Unescaper :=
  let surrogate := 0xD800 ≤ code ∧ code < 0xE000
  match u.pending with
  | none =>
    if surrogate then .ok { u with state := .plain, pending := some code }
    else u.push (Char.ofNat code)
  | some lead =>
    if Json.Reader.isLead lead && Json.Reader.isTrail code then
      { u with pending := none }.push
        (Char.ofNat (0x10000 + (lead - 0xD800) * 0x400 + (code - 0xDC00)))
    else .error .badEscape

/-- The number that hexadecimal digits denote; a plus sign may stand in front. -/
def hexValue? (cs : List Char) : Option Nat :=
  match cs with
  | '+' :: rest => integer? 16 rest
  | cs => integer? 16 cs

/-- The octal escape that is being read is complete. -/
def Unescaper.endOctal (u : Unescaper) (code : Nat) : Except Fault Unescaper :=
  if code < 256 then u.push (Char.ofNat code) else .error .badEscape

/-- A character that is not part of a numeric escape. -/
def Unescaper.stepPlain (u : Unescaper) (c : Char) : Except Fault Unescaper :=
  if c = '\\' then .ok { u with state := .backslash } else u.push c

def isOctal (c : Char) : Bool := '0' ≤ c && c ≤ '7'

/-- The character behind a backslash. Where it begins no escape, the backslash stands for itself. -/
def Unescaper.stepEscape (u : Unescaper) (c : Char) : Except Fault Unescaper :=
  match c with
  | '\'' | '"' | '\\' | '/' => u.push c
  | 'b' => u.push '\x08'
  | 'f' => u.push '\x0c'
  | 'n' => u.push '\n'
  | 'r' => u.push '\r'
  | 't' => u.push '\t'
  | 'u' => .ok { u with state := .hex true [] }
  | 'x' => .ok { u with state := .hex false [] }
  | c =>
    if isOctal c then .ok { u with state := .octal 1 (c.toNat - '0'.toNat) }
    else do (← u.push '\\').push c

/-- Reads one character of a quoted text. -/
def Unescaper.step (u : Unescaper) (c : Char) : Except Fault Unescaper :=
  match u.state with
  | .plain => u.stepPlain c
  | .backslash => u.stepEscape c
  | .hex wide digits =>
    let digits := digits ++ [c]
    if digits.length < (if wide then 4 else 2) then .ok { u with state := .hex wide digits }
    else
      match hexValue? digits with
      | none => .error .badEscape
      | some code => if wide then u.pushUnit code else u.push (Char.ofNat code)
  | .octal count code =>
    if isOctal c ∧ count < 3 then
      .ok { u with state := .octal (count + 1) (code * 8 + (c.toNat - '0'.toNat)) }
    else do (← u.endOctal code).stepPlain c

/-- The text that the inside of a quoted text stands for. -/
def unescape (cs : List Char) : Except Fault String := do
  let u ← cs.foldlM Unescaper.step {}
  let u ← match u.state with
    | .plain => pure u
    | .octal _ code => u.endOctal code
    | _ => throw .badEscape
  if u.pending.isSome then throw .badEscape else pure (String.ofList u.out.reverse)

/-- A quoted text behind its opening mark, and how many characters it takes, both marks included. -/
def readQuoted (mark : Char) (cs : List Char) : Token × Nat :=
  match spanQuoted mark cs with
  | none => (.bad .wrongSyntax, cs.length + 1)
  | some inside =>
    match unescape inside with
    | .ok s => (.text s, inside.length + 2)
    | .error f => (.bad f, inside.length + 2)

/-! ## The whole sequence -/

def longSymbols : List String := ["//", "**", "==", "!=", ">=", "<="]

def shortSymbols : List Char :=
  ['+', '-', '*', '/', '%', '.', ',', ':', '~', '|', '=', '>', '<', '(', ')', '[', ']', '\x7b',
    '\x7d']

/-- The token that begins with a character that is no blank, and how many characters it takes. -/
def read (c : Char) (rest : List Char) : Token × Nat :=
  let pair := String.ofList (c :: rest.take 1)
  if longSymbols.contains pair then (.sym pair, 2)
  else if shortSymbols.contains c then (.sym c.toString, 1)
  else if c = '\'' ∨ c = '"' then readQuoted c rest
  else if c.isDigit then readNumber (c :: rest)
  else if isNameStart c then
    let name := c :: rest.takeWhile isNameRest
    (.name (String.ofList name), name.length)
  else (.bad .wrongSyntax, 1)

/-- The tokens of a text, the last of them `bad` if the text is not well formed. -/
def tokenize : List Char → List Token
  | [] => []
  | c :: rest =>
    if isBlank c then tokenize rest
    else
      match read c rest with
      | (.bad f, _) => [.bad f]
      | (token, length) => token :: tokenize (rest.drop (length - 1))
termination_by cs => cs.length
decreasing_by all_goals simp; try omega

end Token

end Expression

end Orchestration
