import DirectoryBrowser.Backend.Basic
import DirectoryBrowser.Http.Anchor
import DirectoryBrowser.Url.Access

/-!
# HTTP directory indexes

Web servers list a directory as a page of links. A link is an entry when it
leads from the page to a direct child; column headers, the way up, and
links to other places are not. Backend paths are decoded, so a percent sign
in them is escaped on the way back into a URL.
-/

namespace DirectoryBrowser

open Text

structure HttpIndex where
  base : Url
  deriving DecidableEq, Repr

namespace HttpIndex

/-- Query and fragment do not belong to a directory, and its path ends in a separator. -/
def ofUrl (url : Url) : HttpIndex :=
  let url := { url with query := none, fragment := none }
  ⟨if url.path.text.getLast? = some '/' then url else url.setPath (url.pathText ++ "/")⟩

def root (index : HttpIndex) : RootIdentity :=
  let url := index.base.withoutCredentials
  { title := url.toText, url, path := Path.normalize url.pathText }

/-- URL of the listing of a backend path. -/
def listingUrl (index : HttpIndex) (path : String) : Url :=
  let dir := Path.normalize path
  let dir := if dir == "/" then dir else dir ++ "/"
  index.base.setPath (String.ofList (replaceAll ['%'] "%25".toList dir.toList))

/-- Name and kind of the direct child that a URL on the same server leads to. -/
def childOf (listing target : Url) : Option (List Char × Bool) :=
  match dropStart? listing.path.text target.path.text with
  | none => none
  | some rest =>
    let (name, isDir) :=
      match dropEnd? ['/'] rest with
      | some name => (name, true)
      | none => (rest, false)
    if name.isEmpty || name.contains '/' then none else some (name, isDir)

/-- Decoding must not turn a name into a way out of the directory. -/
def isEntryName (name : String) : Bool :=
  name != "." && name != ".." && !name.toList.contains '/'

/-- Entry of one link of a page, if it is one. -/
def entryOf (listing : Url) (link : List Char) : Option Entry :=
  let link := replaceAll "&amp;".toList ['&'] link
  if link.isEmpty || link.head? == some '?' || link.head? == some '#' then none
  else
    match listing.join (String.ofList link) with
    | .error _ => none
    | .ok target =>
      if !target.sameOrigin listing then none
      else
        match childOf listing target with
        | none => none
        | some (name, isDir) =>
          let name := percentDecode (String.ofList name)
          if isEntryName name then some ⟨name, isDir, none⟩ else none

/-- A name that comes up again is the same entry. -/
def distinct (seen : List String) : List Entry → List Entry
  | [] => []
  | entry :: entries =>
    if seen.contains entry.name then distinct seen entries
    else entry :: distinct (entry.name :: seen) entries

def extractEntries (listing : Url) (page : String) : List Entry :=
  distinct [] ((Anchor.links page).filterMap (entryOf listing))

end HttpIndex

end DirectoryBrowser
