import Mathlib.Logic.Function.Basic
import Orchestration.Proofs.Records
import Orchestration.Sql.Connection

/-!
# What statements mean

A database holds rows for each table. An update looks for the rows that fulfil all conditions,
computes the new values from the old row, and tells how many rows it has changed. An insert makes a
row of its parameters, which are the values of the columns that it names, and a select takes the
columns that it names out of the rows that fulfil all conditions. A comparison with null is not
fulfilled.

A database is looked at in two ways. `Contents.execute` says what comes of the statements that
change rows in place, to the letter: the database refuses parameters that it has no values for, that
is texts and documents with the character of the number zero, integers that are too large, and
points in time too far away; it cuts times; and a statement fails that computes an integer which is
too large. `Contents.keep` says what comes of the statements that put rows in and read them, in a
database that gives back the values that it was given. A statement that fails changes nothing either
way, and what comes of other statements is left open.
-/

namespace Orchestration

namespace Json

mutual

/-- All texts of a document, the names of its members included, have a property. -/
def allTexts (p : String → Bool) : Json → Bool
  | .str s => p s
  | .arr items => allTextsOfItems p items
  | .obj members => allTextsOfMembers p members
  | .null | .bool _ | .int _ | .float _ => true

/-- `allTexts` for every item. -/
def allTextsOfItems (p : String → Bool) : List Json → Bool
  | [] => true
  | j :: rest => allTexts p j && allTextsOfItems p rest

/-- `allTexts` for every member. -/
def allTextsOfMembers (p : String → Bool) : List (String × Json) → Bool
  | [] => true
  | (name, j) :: rest => p name && allTexts p j && allTextsOfMembers p rest

end

end Json

namespace Sql

/-! ## Values and terms -/

/-- A text without the character of the number zero. -/
def isPlain (s : String) : Bool := !s.toList.contains (Char.ofNat 0)

/-- An integer that a column can hold. -/
def isInt (n : Int) : Bool := -pow2 31 ≤ n && n ≤ greatestInt

/-- The database counts the microseconds from the year 4713 before our era to the year 294276. -/
def isTime (t : Instant) : Bool :=
  -211813488000000000 ≤ microseconds t && microseconds t < 9223371331200000000

namespace Value

/-- A value is not an integer that is too large. -/
def isInRange : Value → Bool
  | .int4 n => isInt n
  | _ => true

def isKept : Value → Bool
  | .text s => isPlain s
  | .textArray texts => texts.all isPlain
  | .jsonb j => j.allTexts isPlain
  | .timestamptz t => isTime t
  | value => value.isInRange

def plus (k : Int) : Value → Value
  | .int4 n => .int4 (n + k)
  | _ => .null

/-- A document with the object of one member joined to it: an object gets the member, and anything
else becomes a list that goes on with the object. -/
def withMember : Value → Value → Value → Value
  | .jsonb (.obj members), .text name, value =>
    .jsonb (.obj (Dict.insert name value.toJson members))
  | .jsonb (.arr items), .text name, value => .jsonb (.arr (items ++ [.obj [(name, value.toJson)]]))
  | .jsonb j, .text name, value => .jsonb (.arr [j, .obj [(name, value.toJson)]])
  | _, _, _ => .null

end Value

variable {params : List Value} {changes : List (String × Term)} {conditions : List Condition}

def Term.value (params : List Value) (row : Row) : Term → Value
  | .param number | .cast number _ => (params[number - 1]?).getD .null
  | .null => .null
  | .successor column => (row.get column).plus 1
  | .predecessor column => (row.get column).plus (-1)
  | .withMember column name value =>
    (row.get column).withMember (name.value params row) (value.value params row)

def Condition.holds (params : List Value) (row : Row) : Condition → Bool
  | .equals column t => row.get column ≠ .null && row.get column = t.value params row
  | .differsFromAll column t =>
    match row.get column, t.value params row with
    | .text s, .textArray texts => !texts.contains s
    | .uuid u, .uuidArray uids => !uids.contains u
    | _, _ => false
  | .isPositive column =>
    match row.get column with
    | .int4 n => 0 < n
    | _ => false
  | .columnIsNull column => row.get column = .null
  | .isNull t => t.value params row = .null
  | .either a b => a.holds params row || b.holds params row

/-! ## Statements -/

namespace Row

/-- The row with another value in a column. -/
def set (r : Row) (column : String) (value : Value) : Row :=
  r.map fun e ↦ if e.1 = column then (column, value) else e

def change (params : List Value) (changes : List (String × Term)) (r : Row) : Row :=
  changes.foldl (fun changed e ↦ changed.set e.1 (e.2.value params r)) r

end Row

def fulfils (params : List Value) (conditions : List Condition) (r : Row) : Bool :=
  conditions.all fun condition ↦ condition.holds params r

/-- The rows of a table after a change of those that fulfil all conditions, and the number of
these. -/
def updateRows (params : List Value) (changes : List (String × Term)) (conditions : List Condition)
    (rows : List Row) : Except EngineError (List Row × Nat) :=
  if rows.any fun r ↦ fulfils params conditions r && changes.any fun e ↦
      !(e.2.value params r).isInRange then .error .database
  else .ok (rows.map fun r ↦ if fulfils params conditions r then r.change params changes else r,
    rows.countP (fulfils params conditions))

abbrev Contents := Table → List Row

/-- What comes of the statements that are given no meaning. -/
abbrev OtherStatements := Query → Contents → Except EngineError Outcome × Contents

namespace Contents

def execute (other : OtherStatements) (q : Query) (b : Contents) :
    Except EngineError Outcome × Contents :=
  let params := q.params.map (·.value.travelled)
  if q.params.any fun p ↦ !p.value.isKept then (.error .database, b)
  else
    match q.statement with
    | .update table changes conditions =>
      match updateRows params changes conditions (b table) with
      | .ok (rows, affected) => (.ok { affected := affected }, Function.update b table rows)
      | .error e => (.error e, b)
    | .take table column =>
      let isMeant (r : Row) := (Condition.equals "uid" (.param 1)).holds params r
      (.ok { rows := ((b table).filter isMeant).map fun r ↦ [(column, r.get column)]
             affected := (b table).countP isMeant },
        Function.update b table ((b table).map fun r ↦ if isMeant r then r.set column .null else r))
    | _ => other q b

/-- Answers what a connection is asked, where statements are answered in some way. -/
def answer (execute : OtherStatements) : (c : Call) → Contents → c.Answer × Contents
  | .control _, b => (.ok (), b)
  | .execute q, b => execute q b

/-- Carries an action out where statements are answered in some way. -/
def exchange (execute : OtherStatements) (b : Contents) (a : Action α) :
    Except EngineError α × Contents := a.run.run (answer execute) b

def act (other : OtherStatements) (b : Contents) (a : Action α) : Except EngineError α × Contents :=
  b.exchange (execute other) a

end Contents

/-! ### Rows that are put in and read -/

def Table.typeOf? (t : Table) (column : String) : Option ColumnType :=
  (t.columns.find? fun c ↦ c.name = column).map (·.type)

/-- The row that an insert makes: the parameters are the values of the columns that it names, in
their order, and of their types. A column that is not named is null. -/
def insertedRow? (table : Table) (columns : List String) (params : List Parameter) : Option Row :=
  if params.map (fun p ↦ some p.type) = columns.map table.typeOf? then
    some (table.columnNames.map fun column ↦
      (column, Row.get (columns.zip (params.map (·.value))) column))
  else none

def Row.selected (columns : List String) (r : Row) : Row :=
  columns.map fun column ↦ (column, r.get column)

/-- Answers a statement that puts a row in or reads rows, in a database that gives back the values
that it was given. It takes no second row with an identifier. -/
def Contents.keep (other : OtherStatements) : OtherStatements := fun q b ↦
  match q.statement with
  | .insert table columns =>
    match insertedRow? table columns q.params with
    | some row =>
      if (b table).any fun r ↦ r.get "uid" = row.get "uid" then (.error .database, b)
      else (.ok { affected := 1 }, Function.update b table (b table ++ [row]))
    | none => (.error .database, b)
  | .select columns table conditions none none =>
    if columns.all fun column ↦ (table.typeOf? column).isSome then
      let found := (b table).filter (fulfils (q.params.map (·.value)) conditions)
      (.ok { rows := found.map (Row.selected columns), affected := found.length }, b)
    else (.error .database, b)
  | _ => other q b

/-! ## Updates of one row -/

section Records

open Store (overwrite countP_eq_one)

variable {ρ : Type} {key : ρ → Uid} {row : ρ → Row} {l : List ρ} {x x' : ρ}

end Records

/-! ## Rows by their identifiers -/

namespace Contents

variable (other : OtherStatements) {b : Contents} {table : Table}
    {columns : List String} {row : Row}
variable {u : Uid}

/-- The row of a table that has an identifier. -/
def row? (b : Contents) (table : Table) (u : Uid) : Option Row :=
  (b table).find? fun r ↦ r.get "uid" = .uuid u

/-- The rows with one more in a table. -/
def put (b : Contents) (table : Table) (row : Row) : Contents :=
  Function.update b table (b table ++ [row])

theorem keep_insert {params : List Parameter} (hrow : insertedRow? table columns params = some row)
    (hu : row.get "uid" = .uuid u) (hnew : b.row? table u = none) :
    b.keep other ⟨.insert table columns, params⟩ = (.ok { affected := 1 }, b.put table row) := by
  have hany : ((b table).any fun r ↦ r.get "uid" = row.get "uid") = false := by
    rw [hu, List.any_eq_false]
    exact List.find?_eq_none.1 hnew
  simp only [keep, hrow, hany, Bool.false_eq_true, if_false]
  rfl

theorem row?_put_self (hu : row.get "uid" = .uuid u) (hnew : b.row? table u = none) :
    (b.put table row).row? table u = some row := by
  have hold : (b table).find? (fun r ↦ r.get "uid" = .uuid u) = none := hnew
  rw [row?, put, Function.update_self, List.find?_append, hold, Option.none_or]
  exact List.find?_cons_of_pos (decide_eq_true hu)

/-- What has another identifier, or is in another table, is found as before. -/
theorem row?_put_of_ne {table' : Table} {u' : Uid} (hu : row.get "uid" = .uuid u)
    (hne : table' = table → u' ≠ u) : (b.put table row).row? table' u' = b.row? table' u' := by
  rw [row?, put]
  by_cases ht : table' = table
  · subst ht
    have hlast : (decide (row.get "uid" = .uuid u')) = false := by
      rw [hu]
      exact decide_eq_false fun h ↦ hne rfl (Value.uuid.inj h).symm
    rw [Function.update_self, List.find?_append, List.find?_cons_of_neg (by simpa using hlast),
      List.find?_nil, Option.or_none]
    rfl
  · rw [Function.update_of_ne ht]
    rfl

theorem keep_select (hcolumns : (columns.all fun column ↦ (table.typeOf? column).isSome) = true)
    (hrow : b.row? table u = some row) :
    ∃ outcome : Outcome, outcome.rows.head? = some (row.selected columns) ∧
      b.keep other ⟨.select columns table [.equals "uid" (.param 1)] none none, [.uuid u]⟩ =
        (.ok outcome, b) := by
  have hmeant : fulfils ([Parameter.uuid u].map (·.value)) [.equals "uid" (.param 1)] =
      fun r ↦ decide (r.get "uid" = .uuid u) := by
    funext r
    simp only [fulfils, Condition.holds, Term.value, Parameter.uuid, List.all_cons, List.all_nil,
      Bool.and_true, List.map_cons, List.map_nil]
    by_cases hr : r.get "uid" = .uuid u
    · simp [hr]
    · simp [hr]
  set found := (b table).filter fun r ↦ decide (r.get "uid" = .uuid u) with hfound
  have hhead : found.head? = some row := by
    rw [hfound, List.head?_filter]
    exact hrow
  refine ⟨{ rows := found.map (Row.selected columns), affected := found.length }, ?_, ?_⟩
  · rw [List.head?_map, hhead, Option.map_some]
  · simp only [keep, hcolumns, if_true, hmeant, hfound]

end Contents

end Sql

end Orchestration
