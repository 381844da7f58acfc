import Orchestration.Json.Reader

/-!
# Identifiers

An identifier is a 128-bit number, written as 32 hexadecimal digits in groups of 8, 4, 4, 4 and 12.
It may also be read without the hyphens, in braces, or as a name in the `urn:uuid:` space, with
digits of either case.
-/

namespace Orchestration

/-- An identifier of a workflow, a function, a run or a step. -/
structure Uid where
  bits : BitVec 128
deriving DecidableEq, Repr, Inhabited

namespace Uid

def ofNat (n : Nat) : Uid := ⟨BitVec.ofNat 128 n⟩

def nil : Uid := ofNat 0

/-- Identifiers are ordered as numbers. -/
def lt (a b : Uid) : Bool := a.bits.toNat < b.bits.toNat

/-- The 32 hexadecimal digits of an identifier. -/
def digits (u : Uid) : List Char :=
  let ds := Nat.toDigits 16 u.bits.toNat
  List.replicate (32 - ds.length) '0' ++ ds

/-- The written form of an identifier. -/
def text (u : Uid) : String :=
  let ds := u.digits
  let group (start size : Nat) := String.ofList ((ds.drop start).take size)
  "-".intercalate [group 0 8, group 8 4, group 12 4, group 16 4, group 20 12]

instance : ToString Uid := ⟨text⟩

/-- The identifier with the given 32 hexadecimal digits. -/
def ofDigits? (ds : List Char) : Option Uid :=
  if ds.length = 32 then
    (ds.foldlM (fun n c => (Json.Reader.hexDigit? c).map (n * 16 + ·)) 0).map ofNat
  else none

/-- The identifier of five groups of digits with hyphens between them. -/
def ofGroups? (cs : List Char) : Option Uid :=
  match cs.splitOn '-' with
  | [a, b, c, d, e] =>
    if [a, b, c, d, e].map List.length = [8, 4, 4, 4, 12] then ofDigits? (a ++ b ++ c ++ d ++ e)
    else none
  | _ => none

/-- The inside of a text between two given parts. -/
def between? (left right : String) (cs : List Char) : Option (List Char) :=
  let inner := cs.length - left.length - right.length
  if left.length + right.length ≤ cs.length ∧ cs.take left.length = left.toList ∧
      cs.drop (left.length + inner) = right.toList then
    some ((cs.drop left.length).take inner)
  else none

/-- Reads an identifier in any of its written forms. -/
def parse? (s : String) : Option Uid :=
  let cs := s.toList
  if cs.length = 32 then ofDigits? cs
  else if cs.length = 36 then ofGroups? cs
  else if cs.length = 38 then (between? "\x7b" "\x7d" cs).bind ofGroups?
  else if cs.length = 45 then (between? "urn:uuid:" "" cs).bind ofGroups?
  else none

end Uid

end Orchestration
