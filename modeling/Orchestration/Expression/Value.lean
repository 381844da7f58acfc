import Orchestration.Json.Basic
import Orchestration.Decimal.Layout

/-!
# Values of the expression language

An expression computes with the values of documents and with one more, the undefined value, which a
name without a binding and a missing attribute have. The keys of a map can be any values. Its
entries stand in ascending order of their keys; but a map that is made of a document may be gone
through in any other order as well, and in another one at the next evaluation. Two maps are equal if
they have the same entries in whatever order.

Integers are exact here. Whether a result is in range is decided where an operation produces it, and
where a value becomes a document.
-/

namespace Orchestration

namespace Expression

inductive Value where
  | undefined
  | none
  | bool (b : Bool)
  | int (n : Int)
  | float (x : Float)
  | str (s : String)
  | seq (items : List Value)
  | map (entries : List (Value × Value))
deriving Inhabited, Repr

namespace Value

/-! ## Order -/

/-- The rank of a value's kind; values of different kinds are ordered by it. -/
def rank : Value → Nat
  | .undefined => 0
  | .none => 1
  | .bool _ => 2
  | .int _ | .float _ => 3
  | .str _ => 4
  | .seq _ => 5
  | .map _ => 6

/-- The integer with the sign and magnitude of a double, rounded towards zero; nothing for a double
that is not a number or not finite. -/
def truncate? (x : Float) : Option Int :=
  if x.isNaN || x.isInf then Option.none
  else
    let (m, q, _) := Decimal.binaryParts x
    let n : Nat := if 0 ≤ q then m * pow2 q.toNat else m / pow2 (-q).toNat
    some (if x < 0.0 then -(n : Int) else n)

/-- Compares an integer with a double exactly. A double that is not a number is below all
numbers. -/
def compareIntFloat (n : Int) (x : Float) : Ordering :=
  if x.isNaN then .gt
  else if x.isInf then (if x < 0.0 then .gt else .lt)
  else
    match truncate? x with
    | Option.none => .gt
    | some t =>
      if n < t then .lt
      else if t < n then .gt
      else if x < Float.ofInt t then .gt
      else if Float.ofInt t < x then .lt
      else if t = 0 ∧ pow2 63 ≤ x.toBits.toNat then .gt
      else .eq

/-- Compares two doubles. Minus zero is below zero, and what is not a number below all numbers. -/
def compareFloat (x y : Float) : Ordering :=
  match x.isNaN, y.isNaN with
  | true, true => .eq
  | true, false => .lt
  | false, true => .gt
  | false, false =>
    if x < y then .lt
    else if y < x then .gt
    else compare (decide (y.toBits.toNat ≥ pow2 63)) (decide (x.toBits.toNat ≥ pow2 63))

mutual

/-- The order of values: by kind, then numbers by size, texts and lists lexicographically. -/
def cmp : Value → Value → Ordering
  | .bool a, .bool b => compare a b
  | .int a, .int b => compare a b
  | .int a, .float b => compareIntFloat a b
  | .float a, .int b => (compareIntFloat b a).swap
  | .float a, .float b => compareFloat a b
  | .str a, .str b => compare a b
  | .seq a, .seq b => cmpItems a b
  | .map a, .map b => cmpEntries a b
  | a, b => compare a.rank b.rank

def cmpItems : List Value → List Value → Ordering
  | [], [] => .eq
  | [], _ :: _ => .lt
  | _ :: _, [] => .gt
  | a :: as, b :: bs => (cmp a b).then (cmpItems as bs)

/-- Maps in lexicographic order of their entries. -/
def cmpEntries : List (Value × Value) → List (Value × Value) → Ordering
  | [], [] => .eq
  | [], _ :: _ => .lt
  | _ :: _, [] => .gt
  | (k, a) :: as, (l, b) :: bs => (cmp k l).then ((cmp a b).then (cmpEntries as bs))

end

/-! ## Equality -/

def lookup? (key : Value) : List (Value × Value) → Option Value
  | [] => Option.none
  | (k, v) :: rest => if cmp key k == .eq then some v else lookup? key rest

/-- Whether an integer and a double are the same number. -/
def sameNumber (n : Int) (x : Float) : Bool :=
  truncate? x == some n && x == Float.ofInt n

/-- The integer of a truth value in arithmetic. -/
def ofBool (b : Bool) : Int := if b then 1 else 0

mutual

/-- Equality of values. Numbers and truth values are equal by size across their types, a double that
is not a number equals nothing, and other values of different kinds are different. -/
def same : Value → Value → Bool
  | .undefined, .undefined => true
  | .none, .none => true
  | .bool a, .bool b => a == b
  | .bool a, .int b => ofBool a == b
  | .int a, .bool b => a == ofBool b
  | .bool a, .float b => Float.ofInt (ofBool a) == b
  | .float a, .bool b => a == Float.ofInt (ofBool b)
  | .int a, .int b => a == b
  | .int a, .float b => sameNumber a b
  | .float a, .int b => sameNumber b a
  | .float a, .float b => a == b
  | .str a, .str b => a == b
  | .seq a, .seq b => sameItems a b
  | .map a, .map b => a.length == b.length && sameEntries a b
  | _, _ => false

def sameItems : List Value → List Value → Bool
  | [], [] => true
  | a :: as, b :: bs => same a b && sameItems as bs
  | _, _ => false

/-- Whether a map has what stands under each key of another, whatever the order of its entries. -/
def sameEntries : List (Value × Value) → List (Value × Value) → Bool
  | [], _ => true
  | (k, a) :: as, entries => (lookup? k entries).any (same a) && sameEntries as entries

end

/-! ## Maps -/

/-- Puts a value under a key of a map. A key that is already there stays as it was written. -/
def insertEntry (key value : Value) : List (Value × Value) → List (Value × Value)
  | [] => [(key, value)]
  | (k, v) :: rest =>
    match cmp key k with
    | .lt => (key, value) :: (k, v) :: rest
    | .eq => (k, value) :: rest
    | .gt => (k, v) :: insertEntry key value rest

/-- The map of a list of entries; of several values under one key the last counts. -/
def mapOf (entries : List (Value × Value)) : Value :=
  .map (entries.foldl (fun m e => insertEntry e.1 e.2 m) [])

/-! ## Between values and documents -/

mutual

/-- The value of a document. Integers that do not fit 64 bits with a sign become doubles. -/
def ofJson : Json → Value
  | .null => .none
  | .bool b => .bool b
  | .int n => if -pow2 63 ≤ n ∧ n < pow2 63 then .int n else .float (Float.ofInt n)
  | .float x => .float x
  | .str s => .str s
  | .arr items => .seq (ofJsonItems items)
  | .obj members => .map (ofJsonMembers members)

/-- The values of the items of a list. -/
def ofJsonItems : List Json → List Value
  | [] => []
  | j :: rest => ofJson j :: ofJsonItems rest

def ofJsonMembers : List (String × Json) → List (Value × Value)
  | [] => []
  | (name, j) :: rest => (.str name, ofJson j) :: ofJsonMembers rest

end

/-- The name that a key of a map takes in a document; lists, maps and null are no names. -/
def keyName? : Value → Option String
  | .str s => some s
  | .bool b => some (if b then "true" else "false")
  | .int n => some (toString n)
  | .float x => if x.isNaN || x.isInf then Option.none else some (Decimal.floatText .document x)
  | .none | .undefined | .seq _ | .map _ => Option.none

mutual

/-- The document of a value. Integers beyond the 64-bit ranges have none; doubles that documents
have no text for, and undefined values, become null. -/
def toJson? : Value → Option Json
  | .undefined | .none => some .null
  | .bool b => some (.bool b)
  | .int n => if -pow2 63 ≤ n ∧ n < pow2 64 then some (.int n) else Option.none
  | .float x => some (if x.isNaN || x.isInf then .null else .float x)
  | .str s => some (.str s)
  | .seq items => (itemsToJson? items).map .arr
  | .map entries => (entriesToJson? entries).map fun ms => .obj (Dict.ofList ms)

/-- The documents of the items of a list. -/
def itemsToJson? : List Value → Option (List Json)
  | [] => some []
  | v :: rest => do return (← toJson? v) :: (← itemsToJson? rest)

/-- The members of the object of a map. -/
def entriesToJson? : List (Value × Value) → Option (List (String × Json))
  | [] => some []
  | (k, v) :: rest => do return (← keyName? k, ← toJson? v) :: (← entriesToJson? rest)

end

/-! ## Text -/

/-- A character of a text that is shown inside a list or map. -/
def quotedChar (c : Char) : String :=
  match c with
  | '"' => "\\\""
  | '\\' => "\\\\"
  | '\n' => "\\n"
  | '\r' => "\\r"
  | '\t' => "\\t"
  | '\x00' => "\\0"
  | c =>
    if c.toNat < 0x20 ∨ (0x7f ≤ c.toNat ∧ c.toNat < 0xa0) then
      "\\u\x7b" ++ String.ofList (Nat.toDigits 16 c.toNat) ++ "\x7d"
    else c.toString

/-- A text as it is shown inside a list or map. -/
def quotedText (s : String) : String := "\"" ++ String.join (s.toList.map quotedChar) ++ "\""

mutual

/-- A value as it is shown inside a list or map: texts are quoted there. -/
def shown : Value → String
  | .undefined => "undefined"
  | .none => "None"
  | .bool b => if b then "True" else "False"
  | .int n => toString n
  | .float x => Decimal.floatText .plain x
  | .str s => quotedText s
  | .seq items => "[" ++ shownItems items ++ "]"
  | .map entries => "\x7b" ++ shownEntries entries ++ "\x7d"

def shownItems : List Value → String
  | [] => ""
  | [v] => shown v
  | v :: rest => shown v ++ ", " ++ shownItems rest

def shownEntries : List (Value × Value) → String
  | [] => ""
  | [(k, v)] => shown k ++ ": " ++ shown v
  | (k, v) :: rest => shown k ++ ": " ++ shown v ++ ", " ++ shownEntries rest

end

/-- The text of a value in an assembled text. -/
def text : Value → String
  | .undefined => ""
  | .str s => s
  | v => shown v

/-- The truth of a value: what is empty, zero, null or false does not hold. -/
def isTrue : Value → Bool
  | .undefined | .none => false
  | .bool b => b
  | .int n => n != 0
  | .float x => x != 0.0
  | .str s => !s.isEmpty
  | .seq items => !items.isEmpty
  | .map entries => !entries.isEmpty

end Value

end Expression

end Orchestration
