import DirectoryBrowser.Path

/-!
# Breadcrumb trail

The trail leads from the root of a backend to the directory on show. Each
crumb carries the path it goes back to, which is the path of the crumb
before it extended by its own label.
-/

namespace DirectoryBrowser

open Text

structure Breadcrumb where
  label : String
  path : String
  deriving DecidableEq, Repr

namespace Breadcrumb

def extend (base : String) : List (List Char) → List Breadcrumb
  | [] => []
  | name :: names =>
    let label := String.ofList name
    let path := Path.join base label
    ⟨label, path⟩ :: extend path names

/-- A path outside the root has nothing to show but the root. -/
def trail (title root path : String) : List Breadcrumb :=
  let root := Path.normalize root
  let below :=
    match Path.relativeTo? root (Path.normalize path) with
    | none => []
    | some relative => extend root (Path.componentsOf relative.toList)
  ⟨title, root⟩ :: below

end Breadcrumb

end DirectoryBrowser
