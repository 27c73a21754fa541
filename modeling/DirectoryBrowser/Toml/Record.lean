import DirectoryBrowser.Toml.Basic

/-!
# Records from TOML

A record is read from a table by the names of its fields, or from an array
by their positions. Fields that nobody asks for are ignored, and a field
that is not there keeps its default; one of the wrong kind is an error.
-/

namespace DirectoryBrowser.Toml

inductive Fields where
  | named (rows : Rows)
  | listed (items : List Toml)

/-- A time counts as a table without any field of a record. -/
def fields? : Toml → Option Fields
  | .table _ rows => some (.named rows)
  | .array items | .tables items => some (.listed items)
  | .dateTime _ => some (.named [])
  | _ => none

namespace Fields

def get? (fields : Fields) (position : Nat) (name : String) : Option Toml :=
  match fields with
  | .named rows => rows.lookup name
  | .listed items => items[position]?

def field {α : Type} (fields : Fields) (position : Nat) (name : String) (read : Toml → Option α)
    (default : α) : Option α :=
  match fields.get? position name with
  | some value => read value
  | none => some default

def required {α : Type} (fields : Fields) (position : Nat) (name : String)
    (read : Toml → Option α) : Option α :=
  (fields.get? position name).bind read

end Fields

def string? : Toml → Option String
  | .text value => some value
  | _ => none

def bool? : Toml → Option Bool
  | .boolean value => some value
  | _ => none

def count? : Toml → Option Nat
  | .integer value => if 0 ≤ value then some value.toNat else none
  | _ => none

def items? : Toml → Option (List Toml)
  | .array items | .tables items => some items
  | _ => none

end DirectoryBrowser.Toml
