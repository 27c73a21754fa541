import DirectoryBrowser.Entry
import DirectoryBrowser.Failure
import DirectoryBrowser.Url.Parse

/-!
# Storage backends

A backend gives one view of a tree of directories, wherever it is stored.
Its root names it: the key of the root tells the same path on two backends
apart, and it holds no credentials, so that it can be saved.
-/

namespace DirectoryBrowser

structure RootIdentity where
  title : String
  url : Url
  path : String
  deriving DecidableEq, Repr

def RootIdentity.key (root : RootIdentity) : String :=
  root.url.withoutCredentials.toText

/-- What a caller can ask of a backend. -/
inductive BackendCall where
  | list (path : String)
  | createDirectory (path : String)
  | createFile (path : String)
  | delete (path : String)
  | join (base name : String)
  | root
  | home
  | localPath (path : String)
  deriving DecidableEq, Repr

inductive BackendReply where
  | entries (entries : List Entry)
  | done
  | path (path : String)
  | root (root : RootIdentity)
  | place (path : Option String)
  | failed (error : BackendError)
  | panicked (message : String)
  deriving DecidableEq, Repr

namespace BackendReply

def ofUnit : Except BackendError Unit → BackendReply
  | .ok () => .done
  | .error error => .failed error

def ofEntries : Except BackendError (List Entry) → BackendReply
  | .ok found => .entries found
  | .error error => .failed error

end BackendReply

namespace BackendError

def creatingDirectory (path : String) : BackendError := .notSupported path "create directory"
def creatingFile (path : String) : BackendError := .notSupported path "create file"
def deleting (path : String) : BackendError := .notSupported path "delete"

end BackendError

end DirectoryBrowser
