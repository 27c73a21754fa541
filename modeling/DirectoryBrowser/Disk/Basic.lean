import DirectoryBrowser.Failure
import DirectoryBrowser.Path
import DirectoryBrowser.Table
import DirectoryBrowser.Text.Utf8

/-!
# Disks

A disk is a table of nodes. The place of a node is the list of names that
lead to it from the top, without dots and links; a path is what users write,
and following it takes links into account. Names are bytes, since nothing
makes a disk keep to UTF-8.
-/

namespace DirectoryBrowser

open Text

abbrev FileName := List UInt8

abbrev Place := List FileName

inductive DiskNode where
  | directory (mode : Nat)
  | file (mode : Nat) (content : List UInt8)
  | link (target : String)
  deriving DecidableEq, Repr

structure Disk where
  nodes : Table Place DiskNode
  workingDir : Place

namespace DiskNode

def isDirectory : DiskNode → Bool
  | .directory _ => true
  | _ => false

/-- Mode as a listing shows it, with the kind of the node above the permissions. -/
def fullMode : DiskNode → Nat
  | .directory mode => 0o040000 + mode
  | .file mode _ => 0o100000 + mode
  | .link _ => 0o120777

def length : DiskNode → Nat
  | .file _ content => content.length
  | .directory _ | .link _ => 0

def withMode (mode : Nat) : DiskNode → DiskNode
  | .directory _ => .directory mode
  | .file _ content => .file mode content
  | .link target => .link target

end DiskNode

namespace Disk

/-- A disk with nothing but its top. -/
def empty : Disk := ⟨Table.empty, []⟩

def here : FileName := ['.'.toUInt8]
def above : FileName := ['.'.toUInt8, '.'.toUInt8]

/-- The top is always there. -/
def node? (disk : Disk) (place : Place) : Option DiskNode :=
  if place.isEmpty then some (.directory 0o755) else disk.nodes.find? place

def isDirectoryAt (disk : Disk) (place : Place) : Bool :=
  (disk.node? place).any DiskNode.isDirectory

def put (disk : Disk) (place : Place) (node : DiskNode) : Disk :=
  { disk with nodes := disk.nodes.set place node }

def removeAt (disk : Disk) (place : Place) : Disk :=
  { disk with nodes := disk.nodes.erase place }

/-- What a directory holds. -/
def children (disk : Disk) (place : Place) : List (FileName × DiskNode) :=
  disk.nodes.rows.filterMap fun (below, node) ↦
    match below.getLast? with
    | some name => if below.dropLast = place then some (name, node) else none
    | none => none

/-- Path of a place from the top. -/
def placeText (place : Place) : String :=
  if place.isEmpty then "/"
  else String.ofList (place.flatMap fun name ↦ '/' :: decodeLossy name)

/-! ### Paths -/

/-- A path cut into names. A separator at its end insists on a directory. -/
structure Route where
  fromTop : Bool
  names : List FileName
  slashEnded : Bool

def nameLimit : Nat := 255
def pathLimit : Nat := 4096

def Route.ofChars (path : List Char) : Route :=
  { fromTop := path.head? == some '/'
    names := (Path.componentsOf path).map utf8
    slashEnded := path.getLast? == some '/' }

def route (path : String) : Except SystemError Route :=
  let cs := path.toList
  if cs.isEmpty then .error .noEntry
  else if cs.contains '\x00' then .error .nulInName
  else if pathLimit ≤ (utf8 cs).length then .error .nameTooLong
  else .ok (Route.ofChars cs)

def start (disk : Disk) (route : Route) : Place :=
  if route.fromTop then [] else disk.workingDir

/-- Names to look up; a last dot is as good as the insistence on a directory. -/
def Route.lookups (route : Route) : List FileName :=
  if route.slashEnded then route.names ++ [here] else route.names

/-- Where a walk comes to a stop: at a place, at a failure, or at a link that leads on. -/
inductive Stop where
  | at (place : Place)
  | failed (error : SystemError)
  | link (directory : Place) (target : String) (rest : List FileName)

/-- Follows names from a place up to the first link. A link as the last name may be meant itself. -/
def walk (disk : Disk) (followLast : Bool) (place : Place) : List FileName → Stop
  | [] => .at place
  | name :: rest =>
    if !disk.isDirectoryAt place then .failed .notDirectory
    else if name = here then walk disk followLast place rest
    else if name = above then walk disk followLast place.dropLast rest
    else if nameLimit < name.length then .failed .nameTooLong
    else
      match disk.node? (place ++ [name]) with
      | none => .failed .noEntry
      | some (.link target) =>
        if rest.isEmpty && !followLast then .at (place ++ [name]) else .link place target rest
      | some _ => walk disk followLast (place ++ [name]) rest

/-- Place that names lead to, over at most so many links. -/
def resolve (disk : Disk) (followLast : Bool) (links : Nat) (place : Place)
    (names : List FileName) : Except SystemError Place :=
  match walk disk followLast place names, links with
  | .at found, _ => .ok found
  | .failed error, _ => .error error
  | .link .., 0 => .error .linkLoop
  | .link directory target rest, links + 1 =>
    let onward := Route.ofChars target.toList
    resolve disk followLast links (if onward.fromTop then [] else directory)
      (onward.lookups ++ rest)

def linkLimit : Nat := 40

/-- Place and node that a path leads to. -/
def locate (disk : Disk) (followLast : Bool) (path : String) :
    Except SystemError (Place × DiskNode) := do
  let route ← route path
  let place ← disk.resolve followLast linkLimit (disk.start route) route.lookups
  match disk.node? place with
  | some node => return (place, node)
  | none => .error .noEntry

/-- The last name of a path, which need not be there, in the directory that the others lead to. -/
inductive Target where
  | top
  | here
  | above
  | named (directory : Place) (name : FileName)

def target (disk : Disk) (route : Route) : Except SystemError Target :=
  match route.names.getLast? with
  | none => .ok .top
  | some name => do
    let directory ← disk.resolve true linkLimit (disk.start route) route.names.dropLast
    if !disk.isDirectoryAt directory then .error .notDirectory
    else if name = here then .ok .here
    else if name = above then .ok .above
    else if nameLimit < name.length then .error .nameTooLong
    else .ok (.named directory name)

end Disk

end DirectoryBrowser
