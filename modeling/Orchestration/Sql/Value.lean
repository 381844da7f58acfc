import Orchestration.Error
import Orchestration.Instant
import Orchestration.Json.Access

/-!
# Values of a database

A column has a type, and a value of it is of that type or null. A point in time travels in whole
microseconds: what is finer is cut off in the direction of the beginning of the year 2000, from
which the database counts.

A row gives values to names. Reading a column says of what type it must be and whether it may be
null; whatever does not fit is a failure of the database.
-/

namespace Orchestration

namespace Sql

/-! ## Points in time -/

/-- The number of seconds from the beginning of 1970 to that of 2000. -/
def epochSeconds : Int := 946684800

/-- The whole microseconds from the beginning of 2000 to a point in time. -/
def microseconds (t : Instant) : Int :=
  Int.tdiv ((t.seconds - epochSeconds) * 1000000000 + t.nanos) 1000

/-- The point in time so many microseconds from the beginning of 2000. -/
def ofMicroseconds (n : Int) : Instant :=
  ⟨n / 1000000 + epochSeconds, (n % 1000000).toNat * 1000⟩

def storedTime (t : Instant) : Instant := ofMicroseconds (microseconds t)

/-! ## Values -/

/-- The types of columns and parameters. -/
inductive ColumnType where
  | uuid
  | text
  | int4
  | jsonb
  | timestamptz
  | uuidArray
  | textArray
deriving DecidableEq, Repr, Inhabited

def ColumnType.name : ColumnType → String
  | .uuid => "uuid"
  | .text => "text"
  | .int4 => "int4"
  | .jsonb => "jsonb"
  | .timestamptz => "timestamptz"
  | .uuidArray => "uuid[]"
  | .textArray => "text[]"

/-- The name of a type in the definition of a table. -/
def ColumnType.declaration : ColumnType → String
  | .uuid => "UUID"
  | .text => "TEXT"
  | .int4 => "INTEGER"
  | .jsonb => "JSONB"
  | .timestamptz => "TIMESTAMPTZ"
  | .uuidArray => "UUID[]"
  | .textArray => "TEXT[]"

/-- A value of a column or a parameter. -/
inductive Value where
  | null
  | uuid (uid : Uid)
  | text (s : String)
  | int4 (n : Int)
  | jsonb (j : Json)
  | timestamptz (t : Instant)
  | uuidArray (uids : List Uid)
  | textArray (texts : List String)
deriving DecidableEq, Repr, Inhabited

namespace Value

/-- A value, or null where there is none. -/
def ofOption (f : α → Value) : Option α → Value
  | some a => f a
  | none => .null

/-- A value as it is when it has travelled. -/
def travelled : Value → Value
  | .timestamptz t => .timestamptz (storedTime t)
  | value => value

def toJson : Value → Json
  | .null => .null
  | .uuid uid => uid.toJson
  | .text s => .str s
  | .int4 n => .int n
  | .jsonb j => j
  | .timestamptz t => t.toJson
  | .uuidArray uids => .arr (uids.map Uid.toJson)
  | .textArray texts => .arr (texts.map .str)

/-- The value of a type that a document spells. The document null is null, but in a column of
documents it is a value like any other. -/
def ofJson? : ColumnType → Json → Option Value
  | .jsonb, j => some (.jsonb j.canonical)
  | _, .null => some .null
  | .uuid, j => (Json.Decoder.uid j).map .uuid
  | .text, j => j.text?.map .text
  | .int4, .int n => some (.int4 n)
  | .int4, _ => none
  | .timestamptz, j => (Json.Decoder.instant j).map .timestamptz
  | .uuidArray, j => (Json.Decoder.list Json.Decoder.uid j).map .uuidArray
  | .textArray, j => (Json.Decoder.list Json.Decoder.text j).map .textArray

end Value

/-- A parameter of a statement: a value together with the type that it has even if it is null. -/
structure Parameter where
  type : ColumnType
  value : Value
deriving DecidableEq, Repr, Inhabited

namespace Parameter

def uuid (uid : Uid) : Parameter := ⟨.uuid, .uuid uid⟩

def uuid? (uid : Option Uid) : Parameter := ⟨.uuid, .ofOption .uuid uid⟩

def text (s : String) : Parameter := ⟨.text, .text s⟩

def text? (s : Option String) : Parameter := ⟨.text, .ofOption .text s⟩

def int4 (n : Int) : Parameter := ⟨.int4, .int4 n⟩

def jsonb (j : Json) : Parameter := ⟨.jsonb, .jsonb j⟩

def timestamptz (t : Instant) : Parameter := ⟨.timestamptz, .timestamptz t⟩

def timestamptz? (t : Option Instant) : Parameter := ⟨.timestamptz, .ofOption .timestamptz t⟩

def uuidArray (uids : List Uid) : Parameter := ⟨.uuidArray, .uuidArray uids⟩

def textArray (texts : List String) : Parameter := ⟨.textArray, .textArray texts⟩

/-- The document of a parameter as it is sent, with the name of its type. -/
def toJson (p : Parameter) : Json := Json.ofMembers [(p.type.name, p.value.travelled.toJson)]

end Parameter

/-! ## Rows -/

/-- The values of a row by the names of its columns. -/
abbrev Row := List (String × Value)

namespace Row

/-- The value of a column; a column that is not there is null. -/
def get (r : Row) (column : String) : Value := (r.lookup column).getD .null

def read? (r : Row) (column : String) (read : Value → Option α) : Except EngineError (Option α) :=
  match r.get column with
  | .null => .ok none
  | value =>
    match read value with
    | some a => .ok (some a)
    | none => .error .database

/-- Reads a column that must not be null. -/
def read (r : Row) (column : String) (read : Value → Option α) : Except EngineError α :=
  match read (r.get column) with
  | some a => .ok a
  | none => .error .database

end Row

namespace Value

def uuid? : Value → Option Uid
  | .uuid uid => some uid
  | _ => none

def text? : Value → Option String
  | .text s => some s
  | _ => none

def int4? : Value → Option Int
  | .int4 n => some n
  | _ => none

def jsonb? : Value → Option Json
  | .jsonb j => some j
  | _ => none

/-- The point in time that a value is. -/
def timestamptz? : Value → Option Instant
  | .timestamptz t => some t
  | _ => none

def uuidArray? : Value → Option (List Uid)
  | .uuidArray uids => some uids
  | _ => none

end Value

end Sql

end Orchestration
