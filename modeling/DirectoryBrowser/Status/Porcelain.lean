import DirectoryBrowser.Status.Record
import DirectoryBrowser.Text.Utf8

/-!
# Porcelain output

`git status --porcelain --branch` prints one header line, which opens with
two hash signs and may end in a bracket with the divergence from the remote,
and one line per changed path, whose first two columns are the states of
index and worktree.
-/

namespace DirectoryBrowser.Porcelain

open Text

/-- The number after a label; one that does not fit 32 bits counts as none. -/
def countAfter (label info : List Char) : Nat :=
  match cutAt? label info with
  | none => 0
  | some (_, after) => (numeral? 10 UInt32.size (after.takeWhile isDigit)).getD 0

def readHeader (record : StatusRecord) (header : List Char) : StatusRecord :=
  match header.dropWhile (· != '[') with
  | [] => record
  | info =>
    { record with
      ahead := countAfter "ahead ".toList info
      behind := countAfter "behind ".toList info }

def isChange (column : Char) : Bool :=
  column != ' ' && column != '?'

def readChange (record : StatusRecord) (index worktree : Char) : StatusRecord :=
  { record with
    changed := record.changed + 1
    staged := record.staged || isChange index
    dirty := record.dirty || isChange worktree
    untracked := record.untracked || index == '?' }

/-- A line of a single byte is no status line, though a single wider character makes one. -/
def readLine (record : StatusRecord) : List Char → StatusRecord
  | '#' :: '#' :: header => readHeader record header
  | index :: worktree :: _ => readChange record index worktree
  | [index] => if index.toNat < 0x80 then record else readChange record index ' '
  | [] => record

def parse (output : String) : StatusRecord :=
  (lines output.toList).foldl readLine StatusRecord.clean

end DirectoryBrowser.Porcelain
