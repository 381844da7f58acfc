import Orchestration.Api.Body
import Orchestration.Decimal.Integer

/-!
# Requests to the engine

A request has a method, a path with perhaps a query, and a body with the type of its content. Its
parts are read in that order, and the first that cannot be read decides with which status it is
refused.
-/

namespace Orchestration

namespace Api

structure Request where
  method : String
  /-- The path with the query. -/
  target : String
  contentType : Option String := none
  body : String := ""
deriving DecidableEq, Repr, Inhabited

/-- What can be read off a request, or the status with which it is refused. -/
abbrev Extracted (α : Type) := Except Nat α

/-! ## Escapes -/

/-- The bytes of a text with its escapes worked off. A percent sign that no two hexadecimal digits
follow stands for itself. -/
def unescapedBytes : List Char → List UInt8
  | '%' :: a :: b :: rest =>
    match Json.Reader.hexDigit? a, Json.Reader.hexDigit? b with
    | some x, some y => (x * 16 + y).toUInt8 :: unescapedBytes rest
    | _, _ => 37 :: unescapedBytes (a :: b :: rest)
  | c :: rest => c.toString.toUTF8.toList ++ unescapedBytes rest
  | [] => []
termination_by cs => cs.length

/-- A text with its escapes worked off, if that is a text. -/
def unescape? (s : String) : Option String :=
  String.fromUTF8? ⟨(unescapedBytes s.toList).toArray⟩

/-! ## Parts of a request -/

namespace Request

def path (r : Request) : String := String.ofList (r.target.toList.takeWhile (· ≠ '?'))

/-- The query of a request, without the mark in front of it. -/
def query (r : Request) : String := String.ofList ((r.target.toList.dropWhile (· ≠ '?')).drop 1)

/-- The segments of the path, the first of which stands before the first slash. -/
def segments (r : Request) : List String := (r.path.toList.splitOn '/').map String.ofList

/-- A name and a value in a query, which are parted by an equality sign. -/
def queryPart (part : String) : String × String :=
  let cs := part.toList.map fun c => if c = '+' then ' ' else c
  let decode (cs : List Char) : String := (unescape? (String.ofList cs)).getD ""
  (decode (cs.takeWhile (· ≠ '=')), decode ((cs.dropWhile (· ≠ '=')).drop 1))

/-- The values that the query has for a name. -/
def queryValues (r : Request) (name : String) : List String :=
  let parts := ((r.query.toList.splitOn '&').map String.ofList).filter (· ≠ "")
  ((parts.map queryPart).filter fun e => e.1 = name).map (·.2)

/-- The number of an attempt in the query, if there is one. -/
def attempt (r : Request) : Extracted (Option Int) :=
  match r.queryValues "attempt" with
  | [] => .ok none
  | [value] =>
    match Decimal.signed? 32 value with
    | some n => .ok (some n)
    | none => .error 400
  | _ => .error 400

/-- Whether the content of the body is said to be a document. -/
def hasDocument (r : Request) : Bool :=
  match r.contentType with
  | none => false
  | some type =>
    let name := (type.toList.takeWhile (· ≠ ';')).map Char.toLower
    let name := (name.reverse.dropWhile (· = ' ')).reverse
    match (name.splitOn '/').map String.ofList with
    | ["application", kind] => kind == "json" || kind.endsWith "+json"
    | _ => false

/-- The record in the body of a request, decoded. -/
def document (r : Request) (fields : List Field) (decode : Json.Decoder α) : Extracted α :=
  if !r.hasDocument then .error 415
  else
    match (Json.parse? r.body).bind decode with
    | some a => .ok a
    | none => .error (bodyFault fields r.body).status

end Request

def uid (segment : String) : Extracted Uid :=
  match (unescape? segment).bind Uid.parse? with
  | some uid => .ok uid
  | none => .error 400

end Api

end Orchestration
