import Orchestration.Json.Decoder

/-!
# Looking into documents

Operations that are written as documents name what they need by members. What is not there, or is of
another kind, stands for a default.
-/

namespace Orchestration

namespace Json

/-- The member of a name, null if there is none. -/
def get (j : Json) (name : String) : Json := (j.member? name).getD .null

def text? : Json → Option String
  | .str s => some s
  | _ => none

/-- The text of a member, if it is one. -/
def getText? (j : Json) (name : String) : Option String := (j.get name).text?

def getText (j : Json) (name : String) : String := (j.getText? name).getD ""

def getInt (j : Json) (name : String) (default : Int) : Int :=
  match j.get name with
  | .int n => n
  | _ => default

/-- The number of a member, which is not negative. -/
def getNat (j : Json) (name : String) (default : Nat) : Nat := (j.getInt name default).toNat

def getBool (j : Json) (name : String) : Bool :=
  match j.get name with
  | .bool b => b
  | _ => false

/-- The members of a document, none if it is no object. -/
def members : Json → Object
  | .obj members => members
  | _ => []

def getObject (j : Json) (name : String) : Object := (j.get name).members

/-- The items of a document, none if it is no list. -/
def items : Json → List Json
  | .arr items => items
  | _ => []

def getItems (j : Json) (name : String) : List Json := (j.get name).items

/-- The identifier that a document spells; one that spells none stands for the nil identifier. -/
def toUid (j : Json) : Uid := (Decoder.uid j).getD Uid.nil

/-- The identifier of a member, if it spells one. -/
def getUid? (j : Json) (name : String) : Option Uid := Decoder.uid (j.get name)

def getUid (j : Json) (name : String) : Uid := (j.get name).toUid

/-- The point in time of a member, if it spells one. -/
def getInstant? (j : Json) (name : String) : Option Instant := Decoder.instant (j.get name)

/-! ## Changing the texts of a document -/

mutual

/-- Changes all texts of a document and the names of all its members. -/
def mapTexts (f : String → String) : Json → Json
  | .str s => .str (f s)
  | .arr items => .arr (mapTextsOfItems f items)
  | .obj members => .obj (Dict.ofList (mapTextsOfMembers f members))
  | .null => .null
  | .bool b => .bool b
  | .int n => .int n
  | .float x => .float x

def mapTextsOfItems (f : String → String) : List Json → List Json
  | [] => []
  | j :: rest => mapTexts f j :: mapTextsOfItems f rest

/-- Changes all texts of the members of an object. -/
def mapTextsOfMembers (f : String → String) : List (String × Json) → List (String × Json)
  | [] => []
  | (name, j) :: rest => (f name, mapTexts f j) :: mapTextsOfMembers f rest

end

mutual

/-- Puts a text in the place of the texts that members of certain names hold, at any depth. -/
def hideMembers (names : List String) (shown : String) : Json → Json
  | .arr items => .arr (hideMembersOfItems names shown items)
  | .obj members => .obj (hideMembersOfMembers names shown members)
  | .null => .null
  | .bool b => .bool b
  | .int n => .int n
  | .float x => .float x
  | .str s => .str s

/-- Puts a text in the place of certain texts in a list. -/
def hideMembersOfItems (names : List String) (shown : String) : List Json → List Json
  | [] => []
  | j :: rest => hideMembers names shown j :: hideMembersOfItems names shown rest

/-- Puts a text in the place of certain texts in an object. -/
def hideMembersOfMembers (names : List String) (shown : String) :
    List (String × Json) → List (String × Json)
  | [] => []
  | (name, j) :: rest =>
    let j := if names.contains name && j.text?.isSome then .str shown
      else hideMembers names shown j
    (name, j) :: hideMembersOfMembers names shown rest

end

end Json

end Orchestration
