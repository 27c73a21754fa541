import DirectoryBrowser.Disk.Basic

/-!
# Files on a disk

Making, reading, writing and removing what a path names. Links are followed
on the way to a name, but the name itself is made or removed as it stands;
only reading and writing go through a link at the end.
-/

namespace DirectoryBrowser.Disk

open Text

def directoryMode : Nat := 0o755
def fileMode : Nat := 0o644

def contains (disk : Disk) (path : String) : Bool :=
  (disk.locate true path).isOk

def isDirectory (disk : Disk) (path : String) : Bool :=
  match disk.locate true path with
  | .ok (_, node) => node.isDirectory
  | .error _ => false

def makeDirectory (disk : Disk) (path : String) : Except SystemError Disk := do
  match ← disk.target (← route path) with
  | .top | .here | .above => .error .alreadyExists
  | .named directory name =>
    let place := directory ++ [name]
    if (disk.node? place).isSome then .error .alreadyExists
    else return disk.put place (.directory directoryMode)

/-- Makes an empty file where nothing is yet, not even a link that leads nowhere. -/
def makeFile (disk : Disk) (path : String) : Except SystemError Disk := do
  let route ← route path
  match ← disk.target route with
  | .top | .here | .above => .error .alreadyExists
  | .named directory name =>
    let place := directory ++ [name]
    if route.slashEnded then .error .isDirectory
    else if (disk.node? place).isSome then .error .alreadyExists
    else return disk.put place (.file fileMode [])

def removeDirectory (disk : Disk) (path : String) : Except SystemError Disk := do
  match ← disk.target (← route path) with
  | .top => .error .busy
  | .here => .error .invalidArgument
  | .above => .error .notEmpty
  | .named directory name =>
    let place := directory ++ [name]
    match disk.node? place with
    | none => .error .noEntry
    | some (.directory _) =>
      if (disk.children place).isEmpty then return disk.removeAt place else .error .notEmpty
    | some _ => .error .notDirectory

def removeFile (disk : Disk) (path : String) : Except SystemError Disk := do
  let route ← route path
  match ← disk.target route with
  | .top | .here | .above => .error .isDirectory
  | .named directory name =>
    let place := directory ++ [name]
    match disk.node? place with
    | none => .error .noEntry
    | some (.directory _) => .error .isDirectory
    | some _ => if route.slashEnded then .error .notDirectory else return disk.removeAt place

/-- A directory goes only once it is empty; a link goes without what it leads to. -/
def remove (disk : Disk) (path : String) : Except SystemError Disk := do
  let (_, node) ← disk.locate false path
  if node.isDirectory then disk.removeDirectory path else disk.removeFile path

def readBytes (disk : Disk) (path : String) : Except SystemError (List UInt8) := do
  match ← disk.locate true path with
  | (_, .file _ content) => return content
  | _ => .error .isDirectory

def readText (disk : Disk) (path : String) : Except SystemError String := do
  match text? (← disk.readBytes path) with
  | some text => return text
  | none => .error .invalidText

/-- Writes what a route ends in, going on through at most so many links, the last of which may lead
to a file that is yet to be made. -/
def writeAt (disk : Disk) (content : List UInt8) (links : Nat) (workingDir : Place)
    (route : Route) : Except SystemError Disk := do
  match ← { disk with workingDir }.target route with
  | .top | .here | .above => .error .isDirectory
  | .named directory name =>
    if route.slashEnded then .error .isDirectory
    else
      let place := directory ++ [name]
      match disk.node? place, links with
      | none, _ => return disk.put place (.file fileMode content)
      | some (.file mode _), _ => return disk.put place (.file mode content)
      | some (.directory _), _ => .error .isDirectory
      | some (.link _), 0 => .error .linkLoop
      | some (.link target), links + 1 =>
        writeAt disk content links directory (Route.ofChars target.toList)

/-- Replaces the content of a file, which comes into being if need be. -/
def write (disk : Disk) (path : String) (content : List UInt8) : Except SystemError Disk := do
  disk.writeAt content linkLimit disk.workingDir (← route path)

/-- The path above a path as written, by names alone. A bare name lies in the nameless directory
that it is relative to. -/
def parentPath? (path : List Char) : Option (List Char) :=
  let names := (Path.componentsOf path).filter (· != ['.'])
  let opening : List Char :=
    if path.head? == some '/' then ['/']
    else if (Path.componentsOf path).head? == some ['.'] then ['.', '/']
    else []
  if names.isEmpty then none else some (opening ++ joinWith ['/'] names.dropLast)

/-- A failure to make a directory that is there already is none. -/
def orThere (disk : Disk) (path : String) : Except SystemError Disk → Except SystemError Disk
  | .ok made => .ok made
  | .error error => if disk.isDirectory path then .ok disk else .error error

/-- Makes a directory and those that lead to it, of which there are fewer than steps. -/
def makeDirectories (disk : Disk) (path : List Char) : Nat → Except SystemError Disk
  | 0 => .error .nameTooLong
  | steps + 1 =>
    if path.isEmpty then .ok disk
    else
      let text := String.ofList path
      match disk.makeDirectory text with
      | .error (.code 2) =>
        match parentPath? path with
        | none => .error (.text "failed to create whole tree")
        | some parent => do
          let disk ← makeDirectories disk parent steps
          disk.orThere text (disk.makeDirectory text)
      | result => disk.orThere text result

def ensureDirectory (disk : Disk) (path : String) : Except SystemError Disk :=
  disk.makeDirectories path.toList (path.length + 1)

end DirectoryBrowser.Disk
