import DirectoryBrowser.Backend.Basic
import DirectoryBrowser.Table

/-!
# Trees in memory

A tree is a table from directory paths to the names they hold, each marked
as directory or file. Paths are used as written up to trailing separators,
and the builders create the directories that lead to what they add.
-/

namespace DirectoryBrowser

structure MemoryTree where
  name : String
  home : Option String
  directories : Table String (Table String Bool)
  deriving DecidableEq, Repr

namespace MemoryTree

/-- A tree that holds only its root. -/
def empty (name : String) : MemoryTree :=
  ⟨name, none, Table.empty.set "/" Table.empty⟩

def default : MemoryTree := empty "memory"

def withHome (tree : MemoryTree) (home : String) : MemoryTree :=
  { tree with home := some (Path.normalize home) }

def children? (tree : MemoryTree) (directory : String) : Option (Table String Bool) :=
  tree.directories.find? directory

/-- Enters a name in a directory, which comes into being if need be. -/
def link (tree : MemoryTree) (directory name : String) (isDir : Bool) : MemoryTree :=
  let children := (tree.children? directory).getD Table.empty
  { tree with directories := tree.directories.set directory (children.set name isDir) }

def ensureDirectory (tree : MemoryTree) (directory : String) : MemoryTree :=
  if tree.directories.contains directory then tree
  else { tree with directories := tree.directories.set directory Table.empty }

/-- Links a path to its parent, the parent to its own, and so on up; each step shortens the path,
so its length bounds their number. -/
def linkUpward (steps : Nat) (tree : MemoryTree) (path : String) (isDir : Bool) : MemoryTree :=
  match steps, Path.parent? path, Path.lastName? path with
  | steps + 1, some parent, some name =>
    let linked := tree.link parent name isDir
    let linked := if isDir then linked.ensureDirectory path else linked
    linkUpward steps linked parent true
  | _, _, _ => tree

def insert (tree : MemoryTree) (path : String) (isDir : Bool) : MemoryTree :=
  let path := Path.normalize path
  linkUpward path.length tree path isDir

def withDirectory (tree : MemoryTree) (path : String) : MemoryTree := tree.insert path true

def withFile (tree : MemoryTree) (path : String) : MemoryTree := tree.insert path false

def contains (tree : MemoryTree) (path : String) : Bool :=
  let path := Path.normalize path
  path == "/" ||
    match Path.parent? path, Path.lastName? path with
    | some parent, some name => (tree.children? parent).any (·.contains name)
    | _, _ => false

/-- Children of a directory in the order of their names. -/
def entriesOf (children : Table String Bool) : List Entry :=
  (children.rows.mergeSort fun a b ↦ Text.bytesLE a.1 b.1).map fun (name, isDir) ↦
    ⟨name, isDir, none⟩

def list (tree : MemoryTree) (path : String) : Except BackendError (List Entry) :=
  match tree.children? (Path.normalize path) with
  | some children => .ok (entriesOf children)
  | none => .error (.notFound path)

def create (tree : MemoryTree) (path : String) (isDir : Bool) : Except BackendError MemoryTree :=
  let norm := Path.normalize path
  match Path.parent? norm, Path.lastName? norm with
  | some parent, some name =>
    match tree.children? parent with
    | none => .error (.notFound parent)
    | some children =>
      if children.contains name then .error (.other path "already exists")
      else
        let linked := tree.link parent name isDir
        .ok (if isDir then { linked with directories := linked.directories.set norm Table.empty }
          else linked)
  | _, _ => .error (.other path "cannot create the root")

/-- A directory can only go once it is empty, and the root never does. -/
def delete (tree : MemoryTree) (path : String) : Except BackendError MemoryTree :=
  let norm := Path.normalize path
  match Path.parent? norm, Path.lastName? norm with
  | some parent, some name =>
    if (tree.children? norm).any (fun children ↦ 0 < children.size) then
      .error (.other path "directory not empty")
    else
      match tree.children? parent with
      | none => .error (.notFound path)
      | some children =>
        if children.contains name then
          let directories := tree.directories.set parent (children.erase name)
          .ok { tree with directories := directories.erase norm }
        else .error (.notFound path)
  | _, _ => .error (.permissionDenied path)

/-- A name that makes no URL falls back to one that does. -/
def root (tree : MemoryTree) : RootIdentity :=
  let fallback : Url :=
    { scheme := "memory".toList, username := [], password := none
      host := .domain "memory".toList, port := none
      path := .segments [[]], query := none, fragment := none }
  { title := tree.name
    url := (Url.parse ("memory://" ++ tree.name ++ "/")).toOption.getD fallback
    path := "/" }

/-- Result of a change, with the tree as it is afterwards. -/
def applied (tree : MemoryTree) : Except BackendError MemoryTree → BackendReply × MemoryTree
  | .ok changed => (.done, changed)
  | .error error => (.failed error, tree)

/-- Answers a call whose token may have been cancelled before it began. -/
def call (tree : MemoryTree) (cancelled : Bool) : BackendCall → BackendReply × MemoryTree
  | .list path =>
    (.ofEntries (if cancelled then .error (.cancelled path) else tree.list path), tree)
  | .createDirectory path =>
    tree.applied (if cancelled then .error (.cancelled path) else tree.create path true)
  | .createFile path =>
    tree.applied (if cancelled then .error (.cancelled path) else tree.create path false)
  | .delete path =>
    tree.applied (if cancelled then .error (.cancelled path) else tree.delete path)
  | .join base name => (.path (Path.join base name), tree)
  | .root => (.root tree.root, tree)
  | .home => (.place tree.home, tree)
  | .localPath _ => (.place none, tree)

/-- Every path that can be reached from the root, directories with a trailing separator. -/
def reachable (steps : Nat) (tree : MemoryTree) (directory : String) : List String :=
  match steps, tree.list directory with
  | steps + 1, .ok found =>
    found.flatMap fun entry ↦
      let path := Path.join directory entry.name
      if entry.isDir then (path ++ "/") :: reachable steps tree path else [path]
  | _, _ => []

def allPaths (tree : MemoryTree) : List String :=
  (reachable (tree.directories.size + 1) tree "/").mergeSort Text.bytesLE

end MemoryTree

end DirectoryBrowser
