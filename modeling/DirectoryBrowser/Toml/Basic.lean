/-!
# TOML documents

A document is a tree of tables. A table keeps how it was written, because
that decides who may still add to it: a header may complete a table that
only longer headers have implied, dotted keys may add to tables that dotted
keys have made, and a table in braces is closed.
-/

namespace DirectoryBrowser

inductive TableOrigin where
  | header
  /-- On the way to the table of a longer header. -/
  | implied
  | dotted
  | braces
  deriving DecidableEq, Repr

/-- Floats and times are kept as written, since nothing here computes with them. -/
inductive Toml where
  | text (value : String)
  | integer (value : Int)
  | float (written : String)
  | boolean (value : Bool)
  | dateTime (written : String)
  | array (items : List Toml)
  /-- Tables that headers in double brackets have collected. -/
  | tables (items : List Toml)
  | table (origin : TableOrigin) (rows : List (String × Toml))
  deriving Repr

namespace Toml

abbrev Rows := List (String × Toml)

def replaceRow (key : String) (value : Toml) (rows : Rows) : Rows :=
  rows.map fun (k, old) ↦ if k == key then (k, value) else (k, old)

/-- Whether dotted keys may lead through a table. -/
def isOpenToDots : TableOrigin → Bool
  | .implied | .dotted => true
  | .header | .braces => false

/-- Adds to the table that a path leads to, making the tables that are not there yet. Through an
array of tables the way goes to its last one. -/
def addAt (dotted : Bool) (add : TableOrigin → Rows → Option Rows) :
    List String → TableOrigin → Rows → Option Rows
  | [], origin, rows => add origin rows
  | key :: path, _, rows =>
    match rows.lookup key with
    | none => do
      let origin := if dotted then .dotted else .implied
      let below ← addAt dotted add path origin []
      return rows ++ [(key, .table origin below)]
    | some (.table .braces _) => none
    | some (.table origin below) =>
      if dotted && !isOpenToDots origin then none
      else do
        let below ← addAt dotted add path origin below
        return replaceRow key (.table origin below) rows
    | some (.tables items) =>
      match items.getLast? with
      | some (.table origin below) => do
        let below ← addAt dotted add path origin below
        return replaceRow key (.tables (items.dropLast ++ [.table origin below])) rows
      | _ => none
    | some _ => none

/-- A key is given one value, and a dotted key reaches only into tables of its kind. -/
def addValue (key : String) (value : Toml) (viaDots : Bool) (origin : TableOrigin)
    (rows : Rows) : Option Rows :=
  if viaDots && origin != .dotted then none
  else if (rows.lookup key).isSome then none
  else some (rows ++ [(key, value)])

/-- The line `a.b.c = value` in the table that is being filled. -/
def assign (path : List String) (value : Toml) (origin : TableOrigin) (rows : Rows) :
    Option Rows :=
  match path.getLast? with
  | none => none
  | some key =>
    addAt true (addValue key value (1 < path.length)) path.dropLast origin rows

/-- A header names a table for the first time, unless longer headers have implied it. -/
def addTable (key : String) (_ : TableOrigin) (rows : Rows) : Option Rows :=
  match rows.lookup key with
  | none => some (rows ++ [(key, .table .header [])])
  | some (.table .implied below) => some (replaceRow key (.table .header below) rows)
  | some _ => none

/-- A header in double brackets adds another table to its array. -/
def addItem (key : String) (_ : TableOrigin) (rows : Rows) : Option Rows :=
  match rows.lookup key with
  | none => some (rows ++ [(key, .tables [.table .header []])])
  | some (.tables items) =>
    some (replaceRow key (.tables (items ++ [.table .header []])) rows)
  | some _ => none

end Toml

end DirectoryBrowser
