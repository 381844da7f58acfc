import Orchestration.Json.Basic
import Orchestration.Text.Blank
import Orchestration.Decimal.Integer

/-!
# Data references

A data reference reads a value of a step: `[fetch.output.rows.0.id]` follows a path through the
output of the step `fetch`. Scanning cuts a text into the references in it and the characters around
them, from left to right; a bracket that does not open a reference is an ordinary character.

Quoted texts are no exception: a reference inside one counts.
-/

namespace Orchestration

namespace Expression

/-- Which data of a step a reference reads. -/
inductive Section where
  | input
  | output
deriving DecidableEq, Repr

/-- The word for the data in a reference. -/
def Section.name : Section → String
  | .input => "input"
  | .output => "output"

structure DataPath where
  step : String
  side : Section
  path : List String
deriving DecidableEq, Repr

/-! ## Scanning -/

def isNameChar (c : Char) : Bool := c != '[' && c != ']' && c != '.' && !Text.isBlank c

def isPathChar (c : Char) : Bool := c.isAlphanum || c = '_' || c = '-' || c = '.'

/-- Takes a fixed beginning off a text. -/
def afterWord? : List Char → List Char → Option (List Char)
  | [], cs => some cs
  | _ :: _, [] => none
  | w :: ws, c :: cs => if w = c then afterWord? ws cs else none

/-- The section that a text begins with, between its two dots, and what follows. -/
def readSection? (cs : List Char) : Option (Section × List Char) :=
  match afterWord? ".input.".toList cs with
  | some rest => some (.input, rest)
  | none => (afterWord? ".output.".toList cs).map fun rest => (.output, rest)

/-- The parts of a path between its dots, which may be empty. -/
def splitPath (cs : List Char) : List String := (cs.splitOn '.').map String.ofList

/-- Reads a reference behind its opening bracket, and returns what follows its closing one. -/
def readReference? (cs : List Char) : Option (DataPath × List Char) :=
  let cs := cs.dropWhile Text.isBlank
  let name := cs.takeWhile isNameChar
  if name.isEmpty then none
  else
    match readSection? (cs.dropWhile isNameChar) with
    | none => none
    | some (side, rest) =>
      let path := rest.takeWhile isPathChar
      if path.isEmpty then none
      else
        match (rest.dropWhile isPathChar).dropWhile Text.isBlank with
        | ']' :: rest => some (⟨String.ofList name, side, splitPath path⟩, rest)
        | _ => none

theorem length_dropWhile_le (p : α → Bool) (l : List α) : (l.dropWhile p).length ≤ l.length := by
  induction l with
  | nil => simp
  | cons a l ih =>
    rw [List.dropWhile_cons]
    split
    · exact Nat.le_succ_of_le ih
    · exact Nat.le_refl _

theorem length_afterWord? {ws cs rest : List Char} (h : afterWord? ws cs = some rest) :
    rest.length ≤ cs.length := by
  induction ws generalizing cs with
  | nil => simp_all [afterWord?]
  | cons w ws ih =>
    cases cs with
    | nil => simp [afterWord?] at h
    | cons c cs =>
      simp only [afterWord?] at h
      split at h
      · have := ih h; simp; omega
      · simp at h

theorem length_readSection? {cs rest : List Char} {side : Section}
    (h : readSection? cs = some (side, rest)) : rest.length ≤ cs.length := by
  unfold readSection? at h
  split at h
  · next hw => simp at h; exact h.2 ▸ length_afterWord? hw
  · simp only [Option.map_eq_some_iff] at h
    obtain ⟨r, hr, heq⟩ := h
    simp at heq
    exact heq.2 ▸ length_afterWord? hr

theorem length_readReference? {cs rest : List Char} {path : DataPath}
    (h : readReference? cs = some (path, rest)) : rest.length ≤ cs.length := by
  unfold readReference? at h
  have h₁ := length_dropWhile_le Text.isBlank cs
  have h₂ := length_dropWhile_le isNameChar (cs.dropWhile Text.isBlank)
  simp only at h
  split at h
  · simp at h
  · split at h
    · simp at h
    · next side r hs =>
      have h₃ := length_readSection? hs
      have h₄ := length_dropWhile_le isPathChar r
      have h₅ := length_dropWhile_le Text.isBlank (r.dropWhile isPathChar)
      split at h
      · simp at h
      · split at h
        · next r' hr =>
          simp at h
          rw [hr] at h₅
          simp at h₅
          rw [← h.2]
          omega
        · simp at h

inductive Piece where
  | char (c : Char)
  | reference (path : DataPath)
deriving DecidableEq, Repr

/-- Cuts a text into its references and the characters around them. -/
def scan : List Char → List Piece
  | [] => []
  | c :: rest =>
    if c = '[' then
      match _h : readReference? rest with
      | some (path, rest') => .reference path :: scan rest'
      | none => .char c :: scan rest
    else .char c :: scan rest
termination_by cs => cs.length
decreasing_by
  · have := length_readReference? _h; simp; omega
  all_goals simp

/-! ## Resolving -/

/-- The position that a path segment denotes in a list: decimal digits, after an optional plus sign,
with a value that fits 64 bits. -/
def position? (segment : String) : Option Nat := Decimal.naturalBelow? (pow2 64) segment

/-- One step down a document: a member of an object or an item of a list. -/
def child? (j : Json) (segment : String) : Option Json :=
  match j with
  | .obj members => Dict.get? members segment
  | .arr items => (position? segment).bind fun i => items[i]?
  | _ => none

def follow? (j : Json) : List String → Option Json
  | [] => some j
  | segment :: rest => (child? j segment).bind fun next => follow? next rest

/-- The value that a reference points to in the data of its step. The first segment is always the
name of a member, and a reference has at least one. -/
def DataPath.resolve? (p : DataPath) (data : Json.Object) : Option Json :=
  match p.path with
  | [] => none
  | first :: rest => (data.get? first).bind fun j => follow? j rest

end Expression

end Orchestration
