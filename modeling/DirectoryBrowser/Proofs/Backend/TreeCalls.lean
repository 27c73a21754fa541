import DirectoryBrowser.Proofs.Backend.Climbing

/-!
# Calls to a tree in memory

A tree is built step by step, and then it is asked to change and to tell what it
holds. Each call is answered as the backend answers it while nobody cancels. A call
that fails leaves the tree as it was, and every call keeps it proper.
-/

namespace DirectoryBrowser

/-- What is done with a tree: its builder goes on, or somebody calls it. -/
inductive TreeCall where
  | withHome (home : String)
  | build (path : String) (isDir : Bool)
  | create (path : String) (isDir : Bool)
  | delete (path : String)
  | list (path : String)
  | contains (path : String)
  deriving DecidableEq, Repr

inductive TreeReply where
  | built
  | reply (reply : BackendReply)
  | found (there : Bool)
  deriving DecidableEq, Repr

/-- The path of a call in the tree; a home is not looked up. -/
def TreeCall.path? : TreeCall → Option String
  | .withHome _ => none
  | .build path _ | .create path _ | .delete path | .list path | .contains path => some path

namespace MemoryTree

open DirectoryBrowser.Path

def answer (tree : MemoryTree) : TreeCall → TreeReply × MemoryTree
  | .withHome home => (.built, tree.withHome home)
  | .build path isDir => (.built, if isDir then tree.withDirectory path else tree.withFile path)
  | .create path isDir =>
    (tree.call false (if isDir then .createDirectory path else .createFile path)).map .reply id
  | .delete path => (tree.call false (.delete path)).map .reply id
  | .list path => (tree.call false (.list path)).map .reply id
  | .contains path => (.found (tree.contains path), tree)

/-- The tree after some calls, one after the other. -/
def after (tree : MemoryTree) : List TreeCall → MemoryTree
  | [] => tree
  | call :: calls => after (tree.answer call).2 calls

def replies (tree : MemoryTree) : List TreeCall → List TreeReply
  | [] => []
  | call :: calls => (tree.answer call).1 :: replies (tree.answer call).2 calls

variable {tree changed : MemoryTree} {path : String} {isDir : Bool} {error : BackendError}

theorem answer_withHome (home : String) :
    tree.answer (.withHome home) = (.built, tree.withHome home) := by
  rw [answer]

theorem answer_build :
    tree.answer (.build path isDir) = (.built, tree.insert path isDir) := by
  cases isDir <;> simp [answer, withDirectory, withFile]

theorem answer_create_of_ok (h : tree.create path isDir = .ok changed) :
    tree.answer (.create path isDir) = (.reply .done, changed) := by
  cases isDir <;> simp [answer, call, applied, h]

theorem answer_create_of_error (h : tree.create path isDir = .error error) :
    tree.answer (.create path isDir) = (.reply (.failed error), tree) := by
  cases isDir <;> simp [answer, call, applied, h]

theorem answer_delete_of_ok (h : tree.delete path = .ok changed) :
    tree.answer (.delete path) = (.reply .done, changed) := by
  simp [answer, call, applied, h]

theorem answer_delete_of_error (h : tree.delete path = .error error) :
    tree.answer (.delete path) = (.reply (.failed error), tree) := by
  simp [answer, call, applied, h]

theorem answer_list : tree.answer (.list path) =
    (.reply (.ofEntries (tree.list path)), tree) := by
  simp [answer, call]

theorem answer_of_failed {call : TreeCall}
    (h : (tree.answer call).1 = .reply (.failed error)) : (tree.answer call).2 = tree := by
  cases call with
  | withHome home => cases h
  | build path isDir => cases h
  | create path isDir =>
    cases hcreate : tree.create path isDir with
    | ok changed => rw [answer_create_of_ok hcreate] at h; cases h
    | error other => rw [answer_create_of_error hcreate]
  | delete path =>
    cases hdelete : tree.delete path with
    | ok changed => rw [answer_delete_of_ok hdelete] at h; cases h
    | error other => rw [answer_delete_of_error hdelete]
  | list path => rw [answer_list]
  | contains path => rfl

/-- What comes of an attempt to create a path. -/
theorem create_cases (tree : MemoryTree) (path : String) (isDir : Bool) :
    (∃ directory name, Sits (normalize path) directory name ∧ tree.Opens directory ∧
      tree.mark? directory name = none ∧
      tree.answer (.create path isDir) =
        (.reply .done, tree.added directory name (normalize path) isDir)) ∨
    (¬ tree.Creatable (normalize path) ∧
      ∃ error, tree.answer (.create path isDir) = (.reply (.failed error), tree)) := by
  by_cases hcreatable : tree.Creatable (normalize path)
  · left
    obtain ⟨directory, name, hsits, hopens, hfree⟩ := hcreatable
    exact ⟨directory, name, hsits, hopens, hfree,
      answer_create_of_ok (create_of_creatable hsits hopens hfree)⟩
  · right
    obtain ⟨error, hcreate⟩ := create_fails hcreatable
    exact ⟨hcreatable, error, answer_create_of_error hcreate⟩

/-- What comes of an attempt to delete a path. -/
theorem delete_cases (tree : MemoryTree) (path : String) :
    (∃ directory name, Sits (normalize path) directory name ∧
      (tree.mark? directory name).isSome = true ∧
      (∀ other, tree.mark? (normalize path) other = none) ∧
      tree.answer (.delete path) = (.reply .done, tree.unlink directory name (normalize path))) ∨
    (¬ tree.Deletable (normalize path) ∧
      ∃ error, tree.answer (.delete path) = (.reply (.failed error), tree)) := by
  by_cases hdeletable : tree.Deletable (normalize path)
  · left
    obtain ⟨⟨directory, name, hsits, hthere⟩, hempty⟩ := hdeletable
    exact ⟨directory, name, hsits, hthere, hempty,
      answer_delete_of_ok (delete_of_deletable hsits hthere hempty)⟩
  · right
    obtain ⟨error, hdelete⟩ := delete_fails hdeletable
    exact ⟨hdeletable, error, answer_delete_of_error hdelete⟩

theorem Proper.answer (h : tree.Proper) (call : TreeCall) : (tree.answer call).2.Proper := by
  cases call with
  | withHome home =>
    rw [answer_withHome]
    exact h.withHome home
  | build path isDir =>
    rw [answer_build]
    dsimp only
    exact h.insert path isDir
  | create path isDir =>
    rcases create_cases tree path isDir with
      ⟨directory, name, hsits, -, -, hanswer⟩ | ⟨-, error, hanswer⟩
    · rw [hanswer]
      exact h.added hsits.isName
    · rw [hanswer]
      exact h
  | delete path =>
    rcases delete_cases tree path with
      ⟨directory, name, -, hthere, -, hanswer⟩ | ⟨-, error, hanswer⟩
    · rw [hanswer]
      exact h.unlink (opens_of_mark? hthere)
    · rw [hanswer]
      exact h
  | list path =>
    rw [answer_list]
    exact h
  | contains path => exact h

theorem Proper.after (h : tree.Proper) (calls : List TreeCall) : (tree.after calls).Proper := by
  induction calls generalizing tree with
  | nil => exact h
  | cons call calls ih => exact ih (h.answer call)

/-- Whatever paths a tree is called with, it lists only what may be the name of an entry. -/
theorem checkName_of_mem_list (title : String) (calls : List TreeCall) {entries : List Entry}
    (hlist : ((empty title).after calls).list path = .ok entries) :
    ∀ entry ∈ entries, Entry.checkName entry.name = .ok () := by
  intro entry hentry
  have hproper := (empty_proper title).after calls
  have hopens := isOk_list_iff.mp (congrArg Except.isOk hlist)
  obtain ⟨others, hothers, -, hmarks⟩ := exists_entries hproper hopens
  obtain rfl : entries = others := Except.ok.inj (hlist.symm.trans hothers)
  have hname := hproper.isName (Option.isSome_of_eq_some ((hmarks entry).mp hentry).2)
  simp [Entry.checkName, hname.1, hname.2]

end MemoryTree

end DirectoryBrowser
