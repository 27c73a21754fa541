import DirectoryBrowser.Proofs.Backend.Observing

/-!
# From a path up to the root

A builder enters a path where it sits, then that directory where it sits itself,
and so on until a path sits nowhere. The rungs of this climb do not depend on the
tree, and their directories are all different, since each is shorter than the one
before. So the tree that is built is told by the rungs alone.
-/

namespace DirectoryBrowser.MemoryTree

open DirectoryBrowser.Path

/-- A path together with the place where it sits, and how it is to be marked there. -/
structure Rung where
  path : String
  directory : String
  name : String
  isDir : Bool

/-- The path sits where it is to be entered. -/
def Rung.Sits (rung : Rung) : Prop := Path.Sits rung.path rung.directory rung.name

/-- Marks a rung, and provides a key if it is a directory. -/
def mount (tree : MemoryTree) (rung : Rung) : MemoryTree :=
  let linked := tree.link rung.directory rung.name rung.isDir
  if rung.isDir then linked.ensureDirectory rung.path else linked

def climb (steps : Nat) (path : String) (isDir : Bool) : List Rung :=
  match steps, parent? path, lastName? path with
  | steps + 1, some directory, some name =>
    ⟨path, directory, name, isDir⟩ :: climb steps directory true
  | _, _, _ => []

/-- The rungs of a builder. -/
def rungs (path : String) (isDir : Bool) : List Rung :=
  climb (normalize path).length (normalize path) isDir

variable {tree : MemoryTree} {path directory name other others : String} {isDir : Bool}
  {steps : Nat} {rung : Rung} {ladder : List Rung}

theorem climb_of_sits (steps : Nat) (isDir : Bool) (h : Sits path directory name) :
    climb (steps + 1) path isDir =
      ⟨path, directory, name, isDir⟩ :: climb steps directory true := by
  rw [climb.eq_def, h.parent, h.lastName]

theorem climb_of_not_sits (h : ¬ ∃ directory name, Sits path directory name) :
    climb steps path isDir = [] := by
  cases steps with
  | zero => rfl
  | succ steps =>
    unfold climb
    split
    case h_1 hparent hlast => exact absurd ⟨_, _, ⟨hparent, hlast⟩⟩ h
    case h_2 => rfl

theorem linkUpward_of_not_sits (h : ¬ ∃ directory name, Sits path directory name) :
    linkUpward steps tree path isDir = tree := by
  cases steps with
  | zero => rfl
  | succ steps =>
    unfold linkUpward
    split
    case h_1 hparent hlast => exact absurd ⟨_, _, ⟨hparent, hlast⟩⟩ h
    case h_2 => rfl

theorem linkUpward_eq_foldl :
    linkUpward steps tree path isDir = (climb steps path isDir).foldl mount tree := by
  induction steps generalizing tree path isDir with
  | zero => rfl
  | succ steps ih =>
    by_cases hsits : ∃ directory name, Sits path directory name
    · obtain ⟨directory, name, hsits⟩ := hsits
      rw [climb_of_sits steps isDir hsits, List.foldl_cons, ← ih]
      rw [linkUpward.eq_def, hsits.parent, hsits.lastName]
      rfl
    · rw [climb_of_not_sits hsits, linkUpward_of_not_sits hsits]
      rfl

theorem insert_eq_foldl : tree.insert path isDir = (rungs path isDir).foldl mount tree :=
  linkUpward_eq_foldl

/-! ### The rungs -/

/-- A rung is the first one, or belongs to the climb from its directory. -/
theorem of_mem_climb_succ (h : rung ∈ climb (steps + 1) path isDir) :
    ∃ directory name, Sits path directory name ∧
      (rung = ⟨path, directory, name, isDir⟩ ∨ rung ∈ climb steps directory true) := by
  by_cases hsits : ∃ directory name, Sits path directory name
  · obtain ⟨directory, name, hsits⟩ := hsits
    rw [climb_of_sits steps isDir hsits] at h
    exact ⟨directory, name, hsits, List.mem_cons.mp h⟩
  · rw [climb_of_not_sits hsits] at h
    cases h

theorem sits_of_mem_climb (h : rung ∈ climb steps path isDir) :
    rung.Sits ∧ rung.directory.length < path.length := by
  induction steps generalizing path isDir with
  | zero => cases h
  | succ steps ih =>
    obtain ⟨directory, name, hsits, rfl | hrest⟩ := of_mem_climb_succ h
    · exact ⟨hsits, hsits.length_lt⟩
    · obtain ⟨habove, hshorter⟩ := ih hrest
      exact ⟨habove, Nat.lt_trans hshorter hsits.length_lt⟩

theorem climb_pairwise (steps : Nat) (path : String) (isDir : Bool) :
    (climb steps path isDir).Pairwise (·.directory ≠ ·.directory) := by
  induction steps generalizing path isDir with
  | zero => exact .nil
  | succ steps ih =>
    by_cases hsits : ∃ directory name, Sits path directory name
    · obtain ⟨directory, name, hsits⟩ := hsits
      rw [climb_of_sits steps isDir hsits]
      apply List.Pairwise.cons
      · intro above habove heq
        have hshorter := (sits_of_mem_climb habove).2
        rw [← heq] at hshorter
        exact Nat.lt_irrefl _ hshorter
      · exact ih directory true
    · rw [climb_of_not_sits hsits]
      exact .nil

/-- With enough steps the climb goes on wherever a directory sits itself. -/
theorem exists_rung_above (hsteps : path.length ≤ steps) (h : rung ∈ climb steps path isDir)
    (habove : Sits rung.directory directory name) :
    ⟨rung.directory, directory, name, true⟩ ∈ climb steps path isDir := by
  induction steps generalizing path isDir with
  | zero => cases h
  | succ steps ih =>
    obtain ⟨first, last, hsits, hcases⟩ := of_mem_climb_succ h
    have hfirst : first.length ≤ steps :=
      Nat.le_of_lt_succ (Nat.lt_of_lt_of_le hsits.length_lt hsteps)
    rw [climb_of_sits steps isDir hsits]
    apply List.mem_cons_of_mem
    rcases hcases with rfl | hrest
    · cases steps with
      | zero => exact absurd (Nat.lt_of_lt_of_le habove.length_lt hfirst) (Nat.not_lt_zero _)
      | succ steps =>
        rw [climb_of_sits steps true habove]
        exact List.mem_cons_self
    · exact ih hfirst hrest

/-! ### The tree that is built -/

theorem mount_opens_iff : (tree.mount rung).Opens other ↔
    tree.Opens other ∨ other = rung.directory ∨ rung.isDir = true ∧ other = rung.path := by
  unfold mount
  cases hdir : rung.isDir with
  | false => simp [link_opens_iff, or_comm]
  | true => simp only [if_true, ensureDirectory_opens_iff, link_opens_iff, true_and]; tauto

theorem mark?_mount : (tree.mount rung).mark? other others =
    if rung.directory = other ∧ rung.name = others then some rung.isDir
    else tree.mark? other others := by
  unfold mount
  cases rung.isDir <;> simp [mark?_ensureDirectory, mark?_link]

theorem Proper.mount (h : tree.Proper) (hsits : rung.Sits) : (tree.mount rung).Proper := by
  unfold MemoryTree.mount
  split
  · exact (h.link hsits.isName).ensureDirectory
  · exact h.link hsits.isName

theorem foldl_mount_opens_iff : (ladder.foldl mount tree).Opens other ↔
    tree.Opens other ∨
      ∃ rung ∈ ladder, other = rung.directory ∨ rung.isDir = true ∧ other = rung.path := by
  induction ladder generalizing tree with
  | nil => simp
  | cons rung ladder ih => simp [ih, mount_opens_iff, or_assoc]

theorem mark?_foldl_mount_of_notMem
    (h : ∀ rung ∈ ladder, rung.directory = other → rung.name ≠ others) :
    (ladder.foldl mount tree).mark? other others = tree.mark? other others := by
  induction ladder generalizing tree with
  | nil => rfl
  | cons rung ladder ih =>
    obtain ⟨hrung, hrest⟩ := List.forall_mem_cons.mp h
    rw [List.foldl_cons, ih hrest, mark?_mount, if_neg (not_and.mpr hrung)]

theorem mark?_foldl_mount_of_mem (hdistinct : ladder.Pairwise (·.directory ≠ ·.directory))
    (h : rung ∈ ladder) :
    (ladder.foldl mount tree).mark? rung.directory rung.name = some rung.isDir := by
  induction ladder generalizing tree with
  | nil => cases h
  | cons first ladder ih =>
    obtain ⟨hfirst, hrest⟩ := List.pairwise_cons.mp hdistinct
    rw [List.foldl_cons]
    rcases List.mem_cons.mp h with rfl | hmem
    · rw [mark?_foldl_mount_of_notMem fun later hlater heq ↦ absurd heq.symm (hfirst later hlater),
        mark?_mount, if_pos ⟨rfl, rfl⟩]
    · exact ih hrest hmem

theorem Proper.foldl_mount (h : tree.Proper) (hsits : ∀ rung ∈ ladder, rung.Sits) :
    (ladder.foldl MemoryTree.mount tree).Proper := by
  induction ladder generalizing tree with
  | nil => exact h
  | cons rung ladder ih =>
    obtain ⟨hrung, hrest⟩ := List.forall_mem_cons.mp hsits
    exact ih (h.mount hrung) hrest

theorem insert_opens_iff : (tree.insert path isDir).Opens other ↔
    tree.Opens other ∨
      ∃ rung ∈ rungs path isDir, other = rung.directory ∨ rung.isDir = true ∧ other = rung.path := by
  rw [insert_eq_foldl]
  exact foldl_mount_opens_iff

theorem mark?_insert_of_mem (h : rung ∈ rungs path isDir) :
    (tree.insert path isDir).mark? rung.directory rung.name = some rung.isDir := by
  rw [insert_eq_foldl]
  exact mark?_foldl_mount_of_mem (climb_pairwise _ _ _) h

theorem mark?_insert_of_notMem
    (h : ∀ rung ∈ rungs path isDir, rung.directory = other → rung.name ≠ others) :
    (tree.insert path isDir).mark? other others = tree.mark? other others := by
  rw [insert_eq_foldl]
  exact mark?_foldl_mount_of_notMem h

theorem Proper.insert (h : tree.Proper) (path : String) (isDir : Bool) :
    (tree.insert path isDir).Proper := by
  rw [insert_eq_foldl]
  exact h.foldl_mount fun rung hrung ↦ (sits_of_mem_climb hrung).1

end DirectoryBrowser.MemoryTree
