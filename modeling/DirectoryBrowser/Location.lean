import DirectoryBrowser.Ftp.Config
import DirectoryBrowser.Http.Index

/-!
# Locations

A location is what a user writes to say where to look: a path of the local
disk, or a URL whose scheme names the kind of storage. It leads to a storage
and to the path in it that is opened first. A tilde is left for the storage
to expand, since only the storage knows its home.
-/

namespace DirectoryBrowser

open Text

inductive Storage where
  | disk
  | ftp (config : FtpConfig)
  | http (index : HttpIndex)
  deriving DecidableEq, Repr

namespace Storage

def diskRoot : RootIdentity :=
  { title := "Local"
    url :=
      { scheme := "file".toList, username := [], password := none, host := .empty, port := none
        path := .segments [[]], query := none, fragment := none }
    path := "/" }

def root : Storage → RootIdentity
  | .disk => diskRoot
  | .ftp config => config.root
  | .http index => index.root

/-- Where a tilde leads, on a machine whose user has the given home. -/
def home? (userHome : Option String) : Storage → Option String
  | .disk => userHome
  | .ftp config => some config.home
  | .http _ => none

/-- Paths of the disk are local paths as they stand. -/
def localPath? : Storage → String → Option String
  | .disk, path => some path
  | .ftp _, _ | .http _, _ => none

end Storage

structure Location where
  storage : Storage
  path : String
  deriving DecidableEq, Repr

namespace Location

/-- A relative path put under the working directory. Dots for the same directory drop out, and the
way up is kept, since only the disk knows where it leads. -/
def absoluteChars (workingDir path : List Char) : List Char :=
  ((Path.componentsOf path).filter (· != ['.'])).foldl Path.joinChars workingDir

def ofDiskPath (workingDir path : String) : Location :=
  let path :=
    match path.toList with
    | [] => []
    | '~' :: rest => '~' :: rest
    | '/' :: rest => '/' :: rest
    | relative => absoluteChars workingDir.toList relative
  ⟨.disk, String.ofList (Path.normalizeChars path)⟩

def ofUrl (passive : Bool) (workingDir scheme : String) (url : Url) : Except String Location :=
  if scheme == "file" then
    match url.filePath? with
    | some path => .ok (ofDiskPath workingDir path)
    | none => .error "not a local file URL"
  else if scheme == "ftp" || scheme == "ftps" then do
    let config ← FtpConfig.ofUrl url passive
    return ⟨.ftp config, Path.normalize url.pathText⟩
  else if scheme == "http" || scheme == "https" then
    let index := HttpIndex.ofUrl url
    .ok ⟨.http index, index.root.path⟩
  else .error ("unsupported scheme '" ++ scheme ++ "'")

/-- What a location text leads to. The scheme is read off the text, where a leading blank still
belongs to it. -/
def resolve (passive : Bool) (workingDir text : String) : Except AppError Location :=
  match cutAt? "://".toList text.toList with
  | none => .ok (ofDiskPath workingDir text)
  | some (scheme, _) =>
    let result : Except String Location :=
      match Url.parse text with
      | .error error => .error error.message
      | .ok url => ofUrl passive workingDir (lowered (String.ofList scheme)) url
    match result with
    | .ok place => .ok place
    | .error reason => .error (.location text reason)

end Location

end DirectoryBrowser
