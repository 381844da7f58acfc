import Orchestration.Instant
import Orchestration.Uid

/-!
# Decoding documents

A decoder reads a value off a document or refuses the document. Records are decoded by the names of
their fields: members with other names are ignored, and a field that is written twice is refused. A
record may also be written as the list of its fields in their order, the last ones left out where
they have a default.

A field can be required, have a default, or be optional. Null stands for an optional field that is
absent, but not for one with a default.
-/

namespace Orchestration

namespace Json

/-- Reads a value off a document, or refuses it. -/
abbrev Decoder (α : Type u) := Json → Option α

namespace Decoder

/-! ## Plain values -/

def text : Decoder String
  | .str s => some s
  | _ => none

def bool : Decoder Bool
  | .bool b => some b
  | _ => none

def integer (low high : Int) : Decoder Int
  | .int n => if low ≤ n ∧ n ≤ high then some n else none
  | _ => none

/-- An integer of 32 bits with a sign. -/
def int32 : Decoder Int := integer (-pow2 31) (pow2 31 - 1)

/-- An integer of 64 bits without a sign. -/
def nat64 : Decoder Nat := fun j => (integer 0 (pow2 64 - 1) j).map Int.toNat

def uid : Decoder Uid := fun j => (text j).bind Uid.parse?

def instant : Decoder Instant := fun j => (text j).bind Instant.parse?

/-- An object whose members may have any names; of several members of one name the last counts. -/
def object : Decoder Object
  | .obj members => some (canonicalMembers members)
  | _ => none

def optional (d : Decoder α) : Decoder (Option α)
  | .null => some none
  | j => (d j).map some

def list (d : Decoder α) : Decoder (List α)
  | .arr items => items.mapM d
  | _ => none

/-- An object whose members have any names and values of one type. -/
def dict (d : Decoder α) : Decoder (Dict α)
  | .obj members => do
    let entries ← members.mapM fun (name, j) => (d j).map fun a => (name, a)
    return Dict.ofList entries
  | _ => none

/-- One of some words, alone or as the name of a single member whose value is null. -/
def word (ofText? : String → Option α) : Decoder α
  | .str s => ofText? s
  | .obj [(name, .null)] => ofText? name
  | _ => none

/-! ## Records -/

/-- The fields of a record as they are written: by name, or as a list. -/
structure Record where
  listed : Bool
  fields : List (String × Json)

/-- The members of an object with the given names, unless one of these names occurs twice. -/
def known (names : List String) (members : List (String × Json)) : Option (List (String × Json)) :=
  let fields := members.filter fun m => names.contains m.1
  if (fields.map (·.1)).Nodup then some fields else none

/-- The fields of a record with the given names, which is written as an object. -/
def named (names : List String) : Decoder Record
  | .obj members => (known names members).map fun fields => ⟨false, fields⟩
  | _ => none

/-- The fields of a record with the given names. -/
def record (names : List String) : Decoder Record
  | .arr items =>
    if items.length ≤ names.length then some ⟨true, names.zip items⟩ else none
  | j => named names j

namespace Record

def field? (r : Record) (name : String) : Option Json := Dict.get? r.fields name

def required (r : Record) (name : String) (d : Decoder α) : Option α := (r.field? name).bind d

/-- A field that is replaced by a default where it is left out. -/
def withDefault (r : Record) (name : String) (d : Decoder α) (default : α) : Option α :=
  match r.field? name with
  | some j => d j
  | none => some default

/-- An optional field; in a list it may be null but not be left out. -/
def optional (r : Record) (name : String) (d : Decoder α) : Option (Option α) :=
  match r.field? name with
  | some j => Decoder.optional d j
  | none => if r.listed then none else some none

end Record

/-! ## Tagged records -/

/-- The index that a number stands for where a tag is read from a document that has been read
before. -/
def index? : Json → Option Nat
  | .int n => if 0 ≤ n then some n.toNat else none
  | _ => none

/-- The tag of a record and the rest of it. The tag is a member of a given name, which may not occur
twice, or the first item of a list. -/
def tagged (tag : String) : Json → Option (Json × Json)
  | .obj members =>
    match members.filter fun m => m.1 = tag with
    | [(_, value)] => some (value, .obj (members.filter fun m => m.1 ≠ tag))
    | _ => none
  | .arr (value :: rest) => some (value, .arr rest)
  | _ => none

/-- One of some variants by its word, or by its place among them where `byIndex` allows it. -/
def variant (byIndex : Bool) (all : List α) (ofText? : String → Option α) : Decoder α
  | .str s => ofText? s
  | j => if byIndex then (index? j).bind fun i => all[i]? else none

end Decoder

/-! ## Encoding records -/

def ofMembers (members : List (String × Json)) : Json := .obj (Dict.ofList members)

/-- A member that is left out where there is no value. -/
def optionalMember (name : String) (encode : α → Json) : Option α → List (String × Json)
  | some a => [(name, encode a)]
  | none => []

end Json

def Uid.toJson (u : Uid) : Json := .str u.text

def Instant.toJson (t : Instant) : Json := .str t.text

end Orchestration
