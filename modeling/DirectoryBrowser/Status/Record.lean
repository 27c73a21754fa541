import DirectoryBrowser.Text.Numeral

/-!
# Status records and badges

A record summarises what version control knows about one path. The badge is
the text shown next to the entry. Files only show what has changed; a
directory speaks up when something below it has changed, and the top of a
repository always does, with its branch.
-/

namespace DirectoryBrowser

open Text

structure StatusRecord where
  repoRoot : String
  branch : Option String
  changed : Nat
  dirty : Bool
  staged : Bool
  untracked : Bool
  ahead : Nat
  behind : Nat
  deriving DecidableEq, Repr

namespace StatusRecord

def clean : StatusRecord := ⟨"", none, 0, false, false, false, 0, 0⟩

def indicators (record : StatusRecord) : String :=
  (if record.staged then "+" else "") ++ (if record.dirty then "*" else "") ++
    (if record.untracked then "?" else "")

/-- Either side may carry one trailing separator. -/
def isRootPath (record : StatusRecord) (path : String) : Bool :=
  let root := record.repoRoot
  !root.isEmpty && (path == root || path == root ++ "/" || root == path ++ "/")

def badge (record : StatusRecord) (path : String) (isDir : Bool) : String :=
  if !isDir then record.indicators
  else if !record.isRootPath path then
    if record.changed == 0 then "" else "[*" ++ toString record.changed ++ "]"
  else
    let ahead := if 0 < record.ahead then "↑" ++ toString record.ahead else ""
    let behind := if 0 < record.behind then "↓" ++ toString record.behind else ""
    let marks := if record.indicators.isEmpty then "" else " " ++ record.indicators
    "[" ++ record.branch.getD "HEAD" ++ ahead ++ behind ++ marks ++ "]"

end StatusRecord

end DirectoryBrowser
