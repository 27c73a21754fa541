import DirectoryBrowser.Backend.Basic

/-!
# Directory snapshots

A snapshot is what is on show for one directory of one backend: a
placeholder while its listing is under way, then its children in canonical
order, or the reason why there are none.
-/

namespace DirectoryBrowser

/-- What the navigator needs to know of a backend without asking it. -/
structure Backend where
  id : Nat
  root : RootIdentity
  home : Option String
  /-- Where a path lies in the local file system, for backends that live there. -/
  localPath? : String → Option String

inductive SnapshotState where
  | loading
  | loaded
  | failed (message : String)
  deriving DecidableEq, Repr

structure Snapshot where
  backend : Backend
  path : String
  children : List Entry
  generation : Nat
  state : SnapshotState

structure SnapshotKey where
  rootUrl : String
  path : String
  deriving DecidableEq, Repr

namespace Snapshot

def loading (backend : Backend) (path : String) (generation : Nat) : Snapshot :=
  ⟨backend, path, [], generation, .loading⟩

/-- The order of a listing carries no meaning, so children are sorted. -/
def loaded (backend : Backend) (path : String) (children : List Entry) (generation : Nat) :
    Snapshot :=
  ⟨backend, path, Entry.sorted children, generation, .loaded⟩

/-- A failed listing keeps no children, so that no stale rows survive. -/
def failed (backend : Backend) (path message : String) (generation : Nat) : Snapshot :=
  ⟨backend, path, [], generation, .failed message⟩

def isLoaded (snapshot : Snapshot) : Bool :=
  snapshot.state == .loaded

/-- The same path on two backends is two directories. -/
def key (snapshot : Snapshot) : SnapshotKey :=
  ⟨snapshot.backend.root.key, snapshot.path⟩

def child? (snapshot : Snapshot) (name : String) : Option Entry :=
  snapshot.children.find? fun entry ↦ entry.name == name

def qualifiedChildren (snapshot : Snapshot) : List QualifiedEntry :=
  snapshot.children.map fun entry ↦ ⟨snapshot.path, entry⟩

end Snapshot

end DirectoryBrowser
