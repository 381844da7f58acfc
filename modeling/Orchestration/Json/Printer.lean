import Orchestration.Json.Basic
import Orchestration.Decimal.Layout

/-!
# Printing documents

The printed form has no blanks. Texts escape the quotation mark, the backslash and the control
characters, five of these by a letter and the others by four hexadecimal digits; every other
character stands for itself.
-/

namespace Orchestration

namespace Json

def escapeChar (c : Char) : String :=
  match c with
  | '"' => "\\\""
  | '\\' => "\\\\"
  | '\n' => "\\n"
  | '\r' => "\\r"
  | '\t' => "\\t"
  | '\x08' => "\\b"
  | '\x0c' => "\\f"
  | c =>
    if c.toNat < 0x20 then
      let digits := Nat.toDigits 16 c.toNat
      "\\u" ++ "".pushn '0' (4 - digits.length) ++ String.ofList digits
    else c.toString

def quote (s : String) : String :=
  s.toList.foldl (fun out c => out ++ escapeChar c) "\"" ++ "\""

mutual

/-- The printed form of a document, appended to what is already written. -/
def printOnto (out : String) : Json → String
  | .null => out ++ "null"
  | .bool b => out ++ if b then "true" else "false"
  | .int n => out ++ toString n
  | .float x => out ++ Decimal.floatText .document x
  | .str s => out ++ quote s
  | .arr items => printItems (out ++ "[") items ++ "]"
  | .obj members => printMembers (out ++ "\x7b") members ++ "\x7d"

/-- The items of a list, separated by commas. -/
def printItems (out : String) : List Json → String
  | [] => out
  | [item] => printOnto out item
  | item :: rest => printItems (printOnto out item ++ ",") rest

/-- The members of an object, separated by commas. -/
def printMembers (out : String) : List (String × Json) → String
  | [] => out
  | [(name, value)] => printOnto (out ++ quote name ++ ":") value
  | (name, value) :: rest => printMembers (printOnto (out ++ quote name ++ ":") value ++ ",") rest

end

def text (j : Json) : String := printOnto "" j

end Json

end Orchestration
