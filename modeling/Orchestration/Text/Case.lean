import Orchestration.Text.CaseTable

/-!
# Upper and lower case

Both mappings work on whole texts: a letter can become two or three, and the lower case of a capital
sigma depends on whether it ends its word.
-/

namespace Orchestration

namespace Text

/-- The scalar value that a run of the table sends a character to, if the run holds it. -/
def runTarget? (r : CaseTable.Run) (n : Nat) : Option Nat :=
  if r.first ≤ n ∧ n ≤ r.last ∧ (n - r.first) % r.stride = 0 then some ((n : Int) + r.offset).toNat
  else none

/-- A character through a table of runs, or itself. -/
def throughTable (runs : List CaseTable.Run) (c : Char) : Char :=
  match runs.findSome? fun r => runTarget? r c.toNat with
  | some n => Char.ofNat n
  | none => c

/-- The upper case form of a character. -/
def upperChar (c : Char) : List Char :=
  if c.toNat < 0x80 then [c.toUpper]
  else
    match CaseTable.upperLong.lookup c.toNat with
    | some codes => codes.map Char.ofNat
    | none => [throughTable CaseTable.upper c]

/-- The lower case form of a character on its own; a dotted capital I becomes two characters. -/
def lowerChar (c : Char) : List Char :=
  if c.toNat < 0x80 then [c.toLower]
  else if c.toNat = 0x130 then ['i', Char.ofNat 0x307]
  else [throughTable CaseTable.lower c]

/-- A letter with case: one that either mapping changes. -/
def isCased (c : Char) : Bool := upperChar c != [c] || lowerChar c != [c]

/-- A mark that does not interrupt a word. -/
def isIgnorable (c : Char) : Bool :=
  CaseTable.ignorable.any fun (first, last) => first ≤ c.toNat && c.toNat ≤ last

/-- Whether the nearest character that is no mark has case. -/
def nextIsCased (cs : List Char) : Bool := ((cs.dropWhile isIgnorable).head?.map isCased).getD false

def upper (s : String) : String := String.ofList (s.toList.flatMap upperChar)

/-- Lower case, given the characters in front, the latest first. -/
def lowerAfter : List Char → List Char → List Char
  | _, [] => []
  | before, c :: rest =>
    let form :=
      if c = 'Σ' then [if nextIsCased before && !nextIsCased rest then 'ς' else 'σ']
      else lowerChar c
    form ++ lowerAfter (c :: before) rest

/-- The lower case form of a text; a capital sigma at the end of a word takes its final form. -/
def lower (s : String) : String := String.ofList (lowerAfter [] s.toList)

end Text

end Orchestration
