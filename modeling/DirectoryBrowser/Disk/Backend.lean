import DirectoryBrowser.Backend.Basic
import DirectoryBrowser.Disk.Files
import DirectoryBrowser.Location

/-!
# The disk as a backend

Paths of this backend are paths of the disk. A link to a directory counts as
one, so that it can be entered, and a link that leads nowhere is still an
entry that can be deleted.
-/

namespace DirectoryBrowser.Disk

open Text

/-- Node behind a child of a directory, seen through links. -/
def behind? (disk : Disk) (directory : Place) (name : FileName) : Option DiskNode :=
  match disk.resolve true linkLimit directory [name] with
  | .ok place => disk.node? place
  | .error _ => none

def directoryAt (disk : Disk) (path : String) : Except SystemError Place := do
  match ← disk.locate true path with
  | (place, .directory _) => return place
  | _ => .error .notDirectory

/-- A child with its name as text, its kind, and the node itself. -/
def childEntry (disk : Disk) (directory : Place) (child : FileName × DiskNode) : Entry × DiskNode :=
  let (name, node) := child
  let isDir := (disk.behind? directory name).any DiskNode.isDirectory
  (⟨textLossy name, isDir, none⟩, node)

def listing (disk : Disk) (path : String) : Except SystemError (List (Entry × DiskNode)) := do
  let directory ← disk.directoryAt path
  return (disk.children directory).map (disk.childEntry directory)

def list (disk : Disk) (path : String) : Except SystemError (List Entry) := do
  return (← disk.listing path).map Prod.fst

/-- Size and mode of a child. The size is that of the file behind a link, the mode is the link's. -/
structure Facts where
  size : Nat
  mode : Nat

def factsOf (disk : Disk) (directory : Place) (child : FileName × DiskNode) : Facts :=
  let (name, node) := child
  { size := ((disk.behind? directory name).map DiskNode.length).getD 0
    mode := node.fullMode }

/-- Entries of a directory with their facts, in the order of their names. -/
def inspect (disk : Disk) (path : String) : Except BackendError (List (Entry × Facts)) :=
  match disk.directoryAt path with
  | .error error => .error (.ofSystem path error)
  | .ok directory =>
    let found := (disk.children directory).map fun child ↦
      ((disk.childEntry directory child).1, disk.factsOf directory child)
    .ok (found.mergeSort fun a b ↦ bytesLE a.1.name b.1.name)

def applied (disk : Disk) (path : String) : Except SystemError Disk → BackendReply × Disk
  | .ok changed => (.done, changed)
  | .error error => (.failed (.ofSystem path error), disk)

/-- Answers a call whose token may have been cancelled before it began. -/
def call (userHome : Option String) (cancelled : Bool) (disk : Disk) :
    BackendCall → BackendReply × Disk
  | .list path =>
    if cancelled then (.failed (.cancelled path), disk)
    else (.ofEntries ((disk.list path).mapError (.ofSystem path)), disk)
  | .createDirectory path =>
    if cancelled then (.failed (.cancelled path), disk)
    else disk.applied path (disk.makeDirectory path)
  | .createFile path =>
    if cancelled then (.failed (.cancelled path), disk)
    else disk.applied path (disk.makeFile path)
  | .delete path =>
    if cancelled then (.failed (.cancelled path), disk)
    else disk.applied path (disk.remove path)
  | .join base name => (.path (Path.join base name), disk)
  | .root => (.root Storage.disk.root, disk)
  | .home => (.place userHome, disk)
  | .localPath path => (.place (some path), disk)

/-! ### Setting up and looking over a disk -/

/-- Everything below a place as paths from there, directories with a separator at their ends. -/
def pathsBelow (disk : Disk) (place : Place) : List String :=
  let below := disk.nodes.rows.filterMap fun (at', node) ↦
    if place.isPrefixOf at' && at' != place then
      let names := (at'.drop place.length).map decodeLossy
      let path := String.ofList (joinWith ['/'] names)
      some (if node.isDirectory then path ++ "/" else path)
    else none
  below.mergeSort bytesLE

/-- Gives what a path leads to a mode of its own. -/
def setMode (disk : Disk) (path : String) (mode : Nat) : Except SystemError Disk := do
  let (place, node) ← disk.locate true path
  return disk.put place (node.withMode mode)

def makeLink (disk : Disk) (path target : String) : Except SystemError Disk := do
  match ← disk.target (← route path) with
  | .top | .here | .above => .error .alreadyExists
  | .named directory name =>
    let place := directory ++ [name]
    if (disk.node? place).isSome then .error .alreadyExists
    else return disk.put place (.link target)

/-- Makes an empty file under a name that need not be text. -/
def makeNamed (disk : Disk) (directory : String) (name : FileName) : Except SystemError Disk := do
  let place := (← disk.directoryAt directory) ++ [name]
  return disk.put place (.file fileMode [])

end DirectoryBrowser.Disk
