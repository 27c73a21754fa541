import DirectoryBrowser.Failure
import DirectoryBrowser.Operation.Progress
import DirectoryBrowser.Text.Numeral

/-!
# Tree layouts

A layout describes a tree of directories in which every node above the last
level has the same number of children, named after a template. Sizes are
cut off at the largest counter value.
-/

namespace DirectoryBrowser

open Text

structure TreeLayout where
  breadth : Nat
  depth : Nat
  /-- Holds the places of level and index, both counted from one. -/
  template : String
  deriving DecidableEq, Repr

namespace TreeLayout

def levelPlace : List Char := "{level}".toList
def indexPlace : List Char := "{index}".toList

def name (layout : TreeLayout) (level index : Nat) : String :=
  String.ofList
    (replaceAll indexPlace (decimal index)
      (replaceAll levelPlace (decimal level) layout.template.toList))

/-- Nodes in a number of levels below one node. -/
def nodesBelow (breadth : Nat) : Nat → Nat
  | 0 => 0
  | levels + 1 => nodesBelow breadth levels + Nat.pow breadth (levels + 1)

/-- Levels are counted in 32 bits. With two children or more, 64 levels already exceed every
counter, and with fewer there is nothing to add up. -/
def subtreeSize (layout : TreeLayout) (levels : Nat) : Nat :=
  let levels := levels % UInt32.size
  if layout.breadth ≤ 1 then layout.breadth * levels
  else if 64 ≤ levels then Progress.limit - 1
  else min (nodesBelow layout.breadth levels) (Progress.limit - 1)

def total (layout : TreeLayout) : Nat := layout.subtreeSize layout.depth

/-- Siblings need names of their own, and a name must not reach into another directory. -/
def validate (layout : TreeLayout) : Except OperationError Unit :=
  let template := layout.template.toList
  if template.isEmpty || template.contains '/' then
    .error (.invalid
      ("template '" ++ layout.template ++ "' must be a non-empty name without '/'"))
  else if 1 < layout.breadth && (cutAt? indexPlace template).isNone then
    .error (.invalid
      "template needs an {index} placeholder when breadth is above 1")
  else .ok ()

end TreeLayout

end DirectoryBrowser
