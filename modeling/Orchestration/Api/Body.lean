import Orchestration.Json.Reader
import Orchestration.Message

/-!
# What is wrong with a body

A body that is not the record which a request needs is refused for the first thing in it that does
not fit, from left to right. Either it is not written as such a record is: the text is no document,
no word stands where one of some words is due, or something follows where the record has come to its
end. Or it is written so, and says something else: a field has a value of another type, is there
twice, or is missing, which shows only at the end of the record.

A text that breaks off, or goes on as no document does, may be wrong before that place. So faults
are looked for in what has been read when the reader stops: the fields that are complete, and the
list or object that the next one begins with.
-/

namespace Orchestration

namespace Api

inductive BodyFault where
  /-- It is not written as the record is. -/
  | form
  /-- It says something else than the record does. -/
  | content
deriving DecidableEq, Repr, Inhabited

/-- The status with which a request is refused. -/
def BodyFault.status : BodyFault → Nat
  | .form => 400
  | .content => 422

structure Field where
  name : String
  required : Bool
  /-- Looks at a value. -/
  check : Json → Except BodyFault Unit
  /-- Looks at the list or object that a value begins with. -/
  checkFrame : Json.Frame → Except BodyFault Unit

namespace Field

/-- A field that a decoder reads, which takes neither lists nor objects. -/
def plain (name : String) (required : Bool) (d : Json.Decoder α) : Field :=
  { name, required
    check := fun j => if (d j).isSome then .ok () else .error .content
    checkFrame := fun _ => .error .content }

def object (name : String) : Field :=
  { name
    required := false
    check := fun j => if (Json.Decoder.object j).isSome then .ok () else .error .content
    checkFrame := fun
      | .members .. => .ok ()
      | .items _ => .error .content }

def checkWord (name : String) : Except BodyFault Unit :=
  if (RunStatus.ofText? name).isSome then .ok () else .error .content

/-- A field that holds a status: a word, or an object of one member with the word for its name. -/
def status (name : String) : Field :=
  { name
    required := true
    check := fun
      | .str s => checkWord s
      | .obj [(s, .null)] => checkWord s
      | .obj ((s, .null) :: _ :: _) => do
        checkWord s
        throw .form
      | .obj ((_, _) :: _) => .error .content
      | _ => .error .form
    checkFrame := fun
      | .members .. => .ok ()
      | .items _ => .error .form }

end Field

/-! ## Records -/

/-- Looks at members of a record in which some names have occurred, and returns all that have. -/
def checkMembers (fields : List Field) (seen : List String) :
    List (String × Json) → Except BodyFault (List String)
  | [] => .ok seen
  | (name, j) :: rest =>
    match fields.find? fun f => f.name = name with
    | none => checkMembers fields seen rest
    | some f => do
      if seen.contains name then throw .content
      f.check j
      checkMembers fields (name :: seen) rest

/-- Looks at the items of a record that is written as a list, and returns the fields that are
left. -/
def checkItems : List Field → List Json → Except BodyFault (List Field)
  | fields, [] => .ok fields
  | [], _ :: _ => .error .form
  | f :: fields, j :: rest => do
    f.check j
    checkItems fields rest

/-- Looks at a field that has been named, and at the list or object that its value begins with. -/
def checkOpen (fields : List Field) (seen : List String) (name : String)
    (frame : Option Json.Frame) : Except BodyFault Unit :=
  match fields.find? fun f => f.name = name with
  | none => .ok ()
  | some f => do
    if seen.contains name then throw .content
    if let some frame := frame then f.checkFrame frame

def checkDocument (fields : List Field) : Json → Except BodyFault Unit
  | .obj members => do
    let seen ← checkMembers fields [] members
    if fields.any fun f => f.required && !seen.contains f.name then throw .content
  | .arr items => do
    if (← checkItems fields items).any (·.required) then throw .content
  | _ => .error .content

/-- Whether the reader stands behind the name of a member. -/
def isNamed : Json.Place → Bool
  | .colon | .value => true
  | .valueOrClose | .name | .nameOrClose | .commaOrClose => false

/-- Looks at what has been read of a document. -/
def checkReader (fields : List Field) (r : Json.Reader) : Except BodyFault Unit :=
  match r.stack.reverse with
  | [] => r.result.elim (.ok ()) (checkDocument fields)
  | .members done name :: inner => do
    let seen ← checkMembers fields [] done.reverse
    if !inner.isEmpty || isNamed r.place then checkOpen fields seen name inner.head?
  | .items done :: inner => do
    match ← checkItems fields done.reverse, inner.head? with
    | f :: _, some frame => f.checkFrame frame
    | _, _ => return ()

/-- What is wrong with a body that is not a record with some fields. -/
def bodyFault (fields : List Field) (body : String) : BodyFault :=
  match checkReader fields (Json.Reader.furthest {} body.toList) with
  | .error fault => fault
  | .ok () => .form

/-! ## The records of requests -/

/-- A field that may be left out or null, or be read by a decoder. -/
def Field.optional (name : String) (d : Json.Decoder α) : Field :=
  .plain name false (Json.Decoder.optional d)

/-- The fields of a request to start a run. -/
def startRunFields : List Field :=
  [.plain "workflowId" true Json.Decoder.uid, .object "inputParameters"]

def stepResultFields : List Field :=
  [.plain "stepInstanceId" true Json.Decoder.uid,
    .plain "workflowInstanceId" true Json.Decoder.uid, .status "runStatus",
    .optional "failureReason" Json.Decoder.text, .optional "callBackUrl" Json.Decoder.text,
    .object "inputData", .object "outputData", .optional "attempt" Json.Decoder.int32]

/-- The fields of a result at the address of its step. -/
def callbackFields : List Field :=
  [.status "runStatus", .optional "failureReason" Json.Decoder.text, .object "inputData",
    .object "outputData"]

end Api

end Orchestration
