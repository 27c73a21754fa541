import DirectoryBrowser.Path
import DirectoryBrowser.Text.Quote
import DirectoryBrowser.Text.Utf8

/-!
# Directory entries

An entry is a bare name with its kind, and with whatever the listing told
about it. It does not know where it was listed; a qualified entry adds the
directory.
-/

namespace DirectoryBrowser

open Text

/-- Facts beyond name and kind; a remote listing fills in what its format has. -/
structure EntryInfo where
  size : Nat
  /-- Seconds since the start of 1970. -/
  modified : Option Int
  mode : Nat
  owner : String
  group : String
  deriving DecidableEq, Repr

structure Entry where
  name : String
  isDir : Bool
  info : Option EntryInfo
  deriving DecidableEq, Repr

/-- What is wrong with a text that is no entry name. -/
inductive InvalidName where
  | empty
  | separator (name : String)
  deriving DecidableEq, Repr

def InvalidName.message : InvalidName → String
  | .empty => "entry name must not be empty"
  | .separator name => "entry name " ++ quoted name ++ " contains a path separator"

namespace Entry

def checkName (name : String) : Except InvalidName Unit :=
  if name.isEmpty then .error .empty
  else if name.toList.contains '/' then .error (.separator name)
  else .ok ()

/-- Names come from outside, and one with a separator would point somewhere else. -/
def make (name : String) (isDir : Bool) (info : Option EntryInfo) : Except InvalidName Entry := do
  checkName name
  return ⟨name, isDir, info⟩

def isHidden (entry : Entry) : Bool :=
  entry.name.toList.head? == some '.'

/-- Directories come first, and names decide within each kind. -/
def precedes (a b : Entry) : Bool :=
  if a.isDir != b.isDir then a.isDir else bytesLE a.name b.name

/-- Backends list in any order; entries of the same name and kind keep theirs. -/
def sorted (entries : List Entry) : List Entry :=
  entries.mergeSort precedes

end Entry

structure QualifiedEntry where
  dir : String
  entry : Entry
  deriving DecidableEq, Repr

namespace QualifiedEntry

/-- A directory that already ends in a separator needs none before the name. -/
def fullName (qualified : QualifiedEntry) : String :=
  let dir := qualified.dir
  if dir.isEmpty || dir.toList.getLast? == some '/' then dir ++ qualified.entry.name
  else dir ++ "/" ++ qualified.entry.name

end QualifiedEntry

end DirectoryBrowser
