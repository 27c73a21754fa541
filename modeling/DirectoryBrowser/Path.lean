import DirectoryBrowser.Text.Chars

/-!
# Backend paths

A path is a string of names separated by slashes, whatever the storage
behind it calls its own paths. Only a lone slash ends in a separator once a
path is in normal form, and one path lies under another only at a separator,
so that `/data2` is not a part of `/data`.
-/

namespace DirectoryBrowser.Path

open Text

def isSlash (c : Char) : Bool := c == '/'

def normalizeChars (cs : List Char) : List Char :=
  match dropTrailing isSlash cs with
  | [] => ['/']
  | trimmed => trimmed

/-- Trailing separators say nothing, except in the root itself. -/
def normalize (path : String) : String :=
  String.ofList (normalizeChars path.toList)

def joinChars (base name : List Char) : List Char :=
  match name.dropWhile isSlash with
  | [] => normalizeChars base
  | name =>
    if base.isEmpty || base == ['/'] then '/' :: name
    else dropTrailing isSlash base ++ '/' :: name

/-- A name, or a relative path, placed under a base with one separator between them. -/
def join (base name : String) : String :=
  String.ofList (joinChars base.toList name.toList)

def parentChars? (cs : List Char) : Option (List Char) :=
  let path := normalizeChars cs
  if path == ['/'] then none
  else
    match cutLast? '/' path with
    | some ([], _) => some ['/']
    | some (above, _) => some above
    | none => none

/-- The directory above, which neither the root nor a bare name has. -/
def parent? (path : String) : Option String :=
  (parentChars? path.toList).map String.ofList

def relativeChars? (root path : List Char) : Option (List Char) :=
  let root := dropTrailing isSlash root
  match dropStart? root path with
  | none => none
  | some [] => some []
  | some rest =>
    if root.isEmpty || rest.head? == some '/' then some (trimBoth isSlash rest) else none

/-- What leads from a root down to a path that is the root or lies under it. -/
def relativeTo? (root path : String) : Option String :=
  (relativeChars? root.toList path.toList).map String.ofList

/-- Whether a path is a directory or lies under it. -/
def isUnder (root path : String) : Bool :=
  (relativeTo? root path).isSome

theorem dropTrailing_normalizeChars (cs : List Char) :
    dropTrailing isSlash (normalizeChars cs) = dropTrailing isSlash cs := by
  unfold normalizeChars
  cases hcs : dropTrailing isSlash cs with
  | nil => rfl
  | cons c rest =>
    simp only
    rw [← hcs, dropTrailing_dropTrailing]

/-- What lies under a directory does not depend on how its end is written. -/
@[simp] theorem isUnder_normalize (root path : String) :
    isUnder (normalize root) path = isUnder root path := by
  unfold isUnder relativeTo? relativeChars? normalize
  rw [String.toList_ofList, dropTrailing_normalizeChars]

/-- A tilde stands for the home directory alone or before a separator; it never names a user. -/
def expandHome (path : String) (home : Option String) : String :=
  match home with
  | none => path
  | some home =>
    match path.toList with
    | ['~'] => home
    | '~' :: '/' :: rest => join home (String.ofList rest)
    | _ => path

/-- The names on the way from the top to a path. -/
def componentsOf (path : List Char) : List (List Char) :=
  (splitOn '/' path).filter (fun name ↦ !name.isEmpty)

/-- The name after the last separator, if there is one. -/
def lastName? (path : String) : Option String :=
  let name :=
    match cutLast? '/' path.toList with
    | some (_, name) => name
    | none => path.toList
  if name.isEmpty then none else some (String.ofList name)

end DirectoryBrowser.Path
