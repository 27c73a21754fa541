import DirectoryBrowser.Disk.Files
import DirectoryBrowser.Status.Porcelain

/-!
# Status from git

The status of a path is asked for in its directory, or in itself if it is
one. The top of the repository comes first, and without it there is nothing
to say; then the branch, for which a detached head shows its short hash; and
then the changes. Every call that is made is recorded.
-/

namespace DirectoryBrowser

open Text

/-- What the tool prints for its arguments, joined by spaces, in a directory or in any. -/
structure GitAnswer where
  arguments : String
  directory : Option String
  output : String
  code : Nat
  deriving DecidableEq, Repr

/-- The tool on a machine: its answers, or nothing where it is not installed. What it has no answer
for fails. -/
abbrev GitTool := Option (List GitAnswer)

structure GitCall where
  directory : String
  arguments : List String
  deriving DecidableEq, Repr

namespace Git

/-- Output of a call that succeeds. -/
def answer (answers : List GitAnswer) (call : GitCall) : Option String :=
  let arguments := String.intercalate " " call.arguments
  match answers.find? (fun entry ↦
    entry.arguments == arguments && entry.directory.all (· == call.directory)) with
  | some entry => if entry.code = 0 then some entry.output else none
  | none => none

/-- Calls so far, with a result of the last one if it had any. -/
abbrev Asking := OptionT (StateM (List GitCall))

/-- Runs the tool in a directory, which must be there, and which it sees without links. -/
def ask (tool : GitTool) (disk : Disk) (directory : String) (arguments : List String) :
    Asking String := do
  let answers ← OptionT.mk (pure tool)
  if arguments.any (·.toList.contains '\x00') then failure
  match disk.locate true directory with
  | .ok (place, .directory _) =>
    let call : GitCall := ⟨Disk.placeText place, arguments⟩
    modify (· ++ [call])
    OptionT.mk (pure (answer answers call))
  | _ => failure

/-- A result that may be missing. -/
def perhaps {α : Type} (asking : Asking α) : Asking (Option α) :=
  OptionT.mk do
    let result ← asking.run
    return some result

/-- Directory to ask in, and the name to ask about. -/
def question? (path : String) (isDir : Bool) : Option (String × String) :=
  if isDir then some (path, ".")
  else
    match ((Path.componentsOf path.toList).filter (· != ['.'])).getLast? with
    | none => none
    | some name =>
      if name = ['.', '.'] then none
      else (Disk.parentPath? path.toList).map fun directory ↦
        (String.ofList directory, String.ofList name)

def branch (tool : GitTool) (disk : Disk) (directory : String) : Asking String := do
  let name ← ask tool disk directory ["rev-parse", "--abbrev-ref", "HEAD"]
  let name := trimSpace name
  if name == "HEAD" then
    let hash ← perhaps (ask tool disk directory ["rev-parse", "--short", "HEAD"])
    return (hash.map fun hash ↦ ":" ++ trimSpace hash).getD name
  else return name

def status (tool : GitTool) (disk : Disk) (path : String) (isDir : Bool) :
    Asking StatusRecord := do
  let (directory, name) ← OptionT.mk (pure (question? path isDir))
  let root ← ask tool disk directory ["rev-parse", "--show-toplevel"]
  let branch ← perhaps (branch tool disk directory)
  let changes ← ask tool disk directory ["status", "--porcelain", "--branch", "--", name]
  return { Porcelain.parse changes with repoRoot := trimSpace root, branch }

/-- Record of a path, with the calls that were made for it. -/
def read (tool : GitTool) (disk : Disk) (path : String) (isDir : Bool) :
    Option StatusRecord × List GitCall :=
  (status tool disk path isDir).run.run []

end Git

end DirectoryBrowser
