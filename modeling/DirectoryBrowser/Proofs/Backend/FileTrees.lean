import Mathlib.Logic.Function.Basic
import DirectoryBrowser.Proofs.Backend.TreeCalls

/-!
# Trees of directories and files

A file tree has nodes, each of them a directory or a file, and every node but the
root lies in a directory. What can be created and deleted, and what a listing tells,
is said here of the nodes alone. A dialogue is a row of calls, each answered by
the file tree that the calls before it have left.
-/

namespace DirectoryBrowser

/-- A place is told by the names on the way up from it to the root, and what is there by whether it
is a directory. -/
structure FileTree where
  node : List String → Option Bool
  root : node [] = some true
  closed : ∀ name place, (node (name :: place)).isSome = true → node place = some true

namespace FileTree

variable {files : FileTree} {place other above : List String} {name : String} {isDir : Bool}

def bare : FileTree where
  node place := if place = [] then some true else none
  root := rfl
  closed name place hnode := by simp at hnode

/-- Nothing is there yet, and it would lie in a directory. -/
def Creatable (files : FileTree) : List String → Prop
  | [] => False
  | name :: place => files.node place = some true ∧ files.node (name :: place) = none

/-- Something is there that has nothing in it, and it is not the root. -/
def Deletable (files : FileTree) (place : List String) : Prop :=
  place ≠ [] ∧ (files.node place).isSome = true ∧ ∀ name, files.node (name :: place) = none

/-- What is at the places of a tree in which a builder has led the way to one of them. -/
def built (files : FileTree) (place : List String) (isDir : Bool) (other : List String) :
    Option Bool :=
  if other = place then some isDir
  else if other <:+ place then some true
  else files.node other

theorem node_cons_eq_none (hplace : files.node place ≠ some true) (name : String) :
    files.node (name :: place) = none := by
  by_contra hnode
  exact hplace (files.closed name place (Option.isSome_iff_ne_none.mpr hnode))

theorem Creatable.node_eq_none (h : files.Creatable place) : files.node place = none := by
  cases place with
  | nil => cases h
  | cons name place => exact h.2

theorem length_ne_of_suffix (h : name :: place <:+ other) : place ≠ other := by
  rintro rfl
  exact absurd h.length_le (Nat.not_succ_le_self _)

/-- A place above another one has a next place on the way down to it. -/
theorem exists_cons_suffix (h : other <:+ place) (hne : other ≠ place) :
    ∃ name, name :: other <:+ place := by
  obtain ⟨front, rfl⟩ := h
  rcases List.eq_nil_or_concat front with rfl | ⟨front, name, rfl⟩
  · exact absurd rfl hne
  · exact ⟨name, front, by simp⟩

/-- A builder may only put a file where no directory is. -/
def raise (files : FileTree) (place : List String) (isDir : Bool)
    (hfree : isDir = false → files.node place ≠ some true) : FileTree where
  node := files.built place isDir
  root := by
    unfold built
    split
    case isTrue hroot =>
      cases isDir with
      | true => rfl
      | false => exact absurd (hroot ▸ files.root) (hfree rfl)
    case isFalse => rw [if_pos (List.nil_suffix)]
  closed name other hnode := by
    unfold built at hnode ⊢
    by_cases hsuffix : name :: other <:+ place
    · rw [if_neg (length_ne_of_suffix hsuffix), if_pos ((List.suffix_cons name other).trans hsuffix)]
    · have hne : name :: other ≠ place := by
        rintro rfl
        exact hsuffix List.suffix_rfl
      rw [if_neg hne, if_neg hsuffix] at hnode
      have hother := files.closed name other hnode
      split
      case isTrue hplace =>
        cases isDir with
        | true => rfl
        | false => exact absurd (hplace ▸ hother) (hfree rfl)
      case isFalse => split <;> [rfl; exact hother]

/-- One node more. -/
def add (files : FileTree) (place : List String) (isDir : Bool) (h : files.Creatable place) :
    FileTree where
  node := Function.update files.node place (some isDir)
  root := by
    cases place with
    | nil => cases h
    | cons name place => exact files.root
  closed name other hnode := by
    have hother : files.node other = some true := by
      by_cases hplace : name :: other = place
      · subst hplace
        exact h.1
      · rw [Function.update_of_ne hplace] at hnode
        exact files.closed name other hnode
    have hne : other ≠ place := by
      rintro rfl
      rw [h.node_eq_none] at hother
      cases hother
    rw [Function.update_of_ne hne, hother]

/-- One node less. -/
def remove (files : FileTree) (place : List String) (h : files.Deletable place) : FileTree where
  node := Function.update files.node place none
  root := by
    rw [Function.update_of_ne h.1.symm, files.root]
  closed name other hnode := by
    by_cases hplace : name :: other = place
    · rw [hplace, Function.update_self] at hnode
      cases hnode
    · rw [Function.update_of_ne hplace] at hnode
      have hne : other ≠ place := by
        rintro rfl
        rw [h.2.2 name] at hnode
        cases hnode
      rw [Function.update_of_ne hne, files.closed name other hnode]

open DirectoryBrowser.Path

/-- How a file tree answers a call, and what has become of it then. -/
inductive Serves (files : FileTree) : TreeCall → TreeReply → FileTree → Prop
  | withHome (home : String) : Serves files (.withHome home) .built files
  | built {path : String} {isDir : Bool}
      (hfree : isDir = false → files.node (namesOf path) ≠ some true) :
      Serves files (.build path isDir) .built (files.raise (namesOf path) isDir hfree)
  | created {path : String} {isDir : Bool} (h : files.Creatable (namesOf path)) :
      Serves files (.create path isDir) (.reply .done) (files.add (namesOf path) isDir h)
  | notCreated {path : String} {isDir : Bool} (h : ¬ files.Creatable (namesOf path))
      (error : BackendError) :
      Serves files (.create path isDir) (.reply (.failed error)) files
  | deleted {path : String} (h : files.Deletable (namesOf path)) :
      Serves files (.delete path) (.reply .done) (files.remove (namesOf path) h)
  | notDeleted {path : String} (h : ¬ files.Deletable (namesOf path)) (error : BackendError) :
      Serves files (.delete path) (.reply (.failed error)) files
  | listed {path : String} {entries : List Entry}
      (hdirectory : files.node (namesOf path) = some true)
      (hsorted : entries.Pairwise fun a b ↦ Text.bytesOf a.name < Text.bytesOf b.name)
      (hentries : ∀ entry, entry ∈ entries ↔
        entry.info = none ∧ files.node (entry.name :: namesOf path) = some entry.isDir) :
      Serves files (.list path) (.reply (.entries entries)) files
  | notListed {path : String} (h : files.node (namesOf path) ≠ some true) (error : BackendError) :
      Serves files (.list path) (.reply (.failed error)) files
  | contains (path : String) :
      Serves files (.contains path) (.found (files.node (namesOf path)).isSome) files

/-- Calls with their replies, from one file tree to another. -/
inductive Dialogue : FileTree → List (TreeCall × TreeReply) → FileTree → Prop
  | ended (files : FileTree) : Dialogue files [] files
  | served {files changed last : FileTree} {call : TreeCall} {reply : TreeReply}
      {rest : List (TreeCall × TreeReply)} (h : Serves files call reply changed)
      (hrest : Dialogue changed rest last) :
      Dialogue files ((call, reply) :: rest) last

end FileTree

end DirectoryBrowser
