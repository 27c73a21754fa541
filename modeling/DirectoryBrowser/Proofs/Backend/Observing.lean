import DirectoryBrowser.Proofs.Backend.Listings
import DirectoryBrowser.Proofs.Names

/-!
# What can be seen of a tree in memory

A tree holds every directory twice: as a key of its own, under which it can be
opened, and as a mark in the directory above, which tells its kind. What is kept
under a key and what is marked there is all that any call asks, and each change is
described here by what it does to both. The two need not agree; whether they do is
up to the paths under which the changes were made.
-/

namespace DirectoryBrowser.MemoryTree

open DirectoryBrowser.Path

/-- Whether a tree has a directory under a key. -/
def Opens (tree : MemoryTree) (directory : String) : Prop :=
  (tree.children? directory).isSome = true

instance (tree : MemoryTree) (directory : String) : Decidable (tree.Opens directory) :=
  inferInstanceAs (Decidable (_ = true))

/-- How a name is marked in a directory, if it is there: as a directory or as a file. -/
def mark? (tree : MemoryTree) (directory name : String) : Option Bool :=
  (tree.children? directory).bind (·.find? name)

/-- Every directory holds each of its names once, and nothing but names. -/
def Proper (tree : MemoryTree) : Prop :=
  ∀ directory children, tree.children? directory = some children →
    children.Keyed ∧ ∀ name, (children.find? name).isSome = true → IsName name

variable {tree : MemoryTree} {path directory name other others : String} {isDir : Bool}

theorem opens_of_mark? (h : (tree.mark? directory name).isSome = true) : tree.Opens directory := by
  unfold mark? at h
  unfold Opens
  cases hchildren : tree.children? directory with
  | none => simp [hchildren] at h
  | some children => rfl

theorem mark?_eq_none (h : ¬ tree.Opens directory) (name : String) :
    tree.mark? directory name = none := by
  by_contra hsome
  exact h (opens_of_mark? (Option.isSome_iff_ne_none.mpr hsome))

theorem Proper.isName (h : tree.Proper) (hmark : (tree.mark? directory name).isSome = true) :
    IsName name := by
  unfold mark? at hmark
  cases hchildren : tree.children? directory with
  | none => simp [hchildren] at hmark
  | some children => exact (h directory children hchildren).2 name (by simpa [hchildren] using hmark)

theorem children?_empty (title : String) :
    (empty title).children? directory = if "/" = directory then some Table.empty else none :=
  Table.find?_set _ _ _ _

theorem empty_opens_iff (title : String) : (empty title).Opens directory ↔ directory = "/" := by
  rw [Opens, children?_empty]
  by_cases hroot : "/" = directory
  · simp [hroot]
  · simp [hroot, Ne.symm hroot]

theorem mark?_empty (title : String) : (empty title).mark? directory name = none := by
  rw [mark?, children?_empty]
  by_cases hroot : "/" = directory <;> simp [hroot]

theorem empty_proper (title : String) : (empty title).Proper := by
  intro directory children hchildren
  obtain ⟨-, rfl⟩ : "/" = directory ∧ Table.empty = children := by
    simpa [children?_empty] using hchildren
  exact ⟨Table.keyed_empty, by simp⟩

/-! ### What the calls tell -/

theorem exists_entries (hproper : tree.Proper) (hopens : tree.Opens (normalize path)) :
    ∃ entries, tree.list path = .ok entries ∧
      entries.Pairwise (fun a b ↦ Text.bytesOf a.name < Text.bytesOf b.name) ∧
      ∀ entry, entry ∈ entries ↔
        entry.info = none ∧ tree.mark? (normalize path) entry.name = some entry.isDir := by
  obtain ⟨children, hchildren⟩ := Option.isSome_iff_exists.mp hopens
  have hkeyed := (hproper _ children hchildren).1
  refine ⟨entriesOf children, ?_, entriesOf_pairwise hkeyed, fun entry ↦ ?_⟩
  · rw [list, hchildren]
  · rw [mem_entriesOf_iff hkeyed, mark?, hchildren, Option.bind_some]

theorem list_of_not_opens (hopens : ¬ tree.Opens (normalize path)) :
    tree.list path = .error (.notFound path) := by
  have hnone : tree.children? (normalize path) = none := by
    simpa [Opens] using hopens
  rw [list, hnone]

theorem isOk_list_iff : (tree.list path).isOk = true ↔ tree.Opens (normalize path) := by
  rw [list, Opens]
  cases tree.children? (normalize path) <;> simp [Except.isOk, Except.toBool]

/-! ### What a change does to the tree -/

theorem children?_link : (tree.link directory name isDir).children? other =
    if directory = other then
      some (((tree.children? directory).getD Table.empty).set name isDir)
    else tree.children? other :=
  Table.find?_set _ _ _ _

theorem link_opens_iff :
    (tree.link directory name isDir).Opens other ↔ other = directory ∨ tree.Opens other := by
  rw [Opens, children?_link]
  by_cases hdirectory : directory = other
  · simp [hdirectory]
  · simp [hdirectory, Ne.symm hdirectory, Opens]

theorem mark?_link : (tree.link directory name isDir).mark? other others =
    if directory = other ∧ name = others then some isDir else tree.mark? other others := by
  rw [mark?, children?_link]
  by_cases hdirectory : directory = other
  · subst hdirectory
    rw [if_pos rfl, Option.bind_some, Table.find?_set, mark?]
    cases tree.children? directory <;> simp
  · simp [hdirectory, mark?]

theorem Proper.link (h : tree.Proper) (hname : IsName name) :
    (tree.link directory name isDir).Proper := by
  intro other children hchildren
  rw [children?_link] at hchildren
  split at hchildren
  case isTrue =>
    obtain rfl := Option.some.inj hchildren
    have hold : ((tree.children? directory).getD Table.empty).Keyed ∧
        ∀ name, (((tree.children? directory).getD Table.empty).find? name).isSome = true →
          IsName name := by
      cases hchildren : tree.children? directory with
      | none => exact ⟨Table.keyed_empty, by simp⟩
      | some children => exact h directory children hchildren
    refine ⟨hold.1.set name isDir, fun others hothers ↦ ?_⟩
    rw [Table.find?_set] at hothers
    split at hothers
    case isTrue hsame => exact hsame ▸ hname
    case isFalse => exact hold.2 others hothers
  case isFalse => exact h other children hchildren

theorem children?_withHome (home : String) :
    (tree.withHome home).children? directory = tree.children? directory := rfl

theorem withHome_opens_iff (home : String) :
    (tree.withHome home).Opens directory ↔ tree.Opens directory := by
  rw [Opens, children?_withHome, Opens]

theorem mark?_withHome (home : String) :
    (tree.withHome home).mark? directory name = tree.mark? directory name := by
  rw [mark?, children?_withHome, mark?]

theorem Proper.withHome (h : tree.Proper) (home : String) : (tree.withHome home).Proper := by
  intro directory children hchildren
  rw [children?_withHome] at hchildren
  exact h directory children hchildren

/-- Puts an empty directory under a key, whatever was there. -/
def emptied (tree : MemoryTree) (directory : String) : MemoryTree :=
  { tree with directories := tree.directories.set directory Table.empty }

theorem children?_emptied : (tree.emptied directory).children? other =
    if directory = other then some Table.empty else tree.children? other :=
  Table.find?_set _ _ _ _

theorem emptied_opens_iff :
    (tree.emptied directory).Opens other ↔ other = directory ∨ tree.Opens other := by
  rw [Opens, children?_emptied]
  by_cases hdirectory : directory = other
  · simp [hdirectory]
  · simp [hdirectory, Ne.symm hdirectory, Opens]

theorem mark?_emptied : (tree.emptied directory).mark? other name =
    if directory = other then none else tree.mark? other name := by
  rw [mark?, children?_emptied]
  by_cases hdirectory : directory = other
  · simp [hdirectory]
  · simp [hdirectory, mark?]

theorem Proper.emptied (h : tree.Proper) : (tree.emptied directory).Proper := by
  intro other children hchildren
  rw [children?_emptied] at hchildren
  split at hchildren
  case isTrue =>
    obtain rfl := Option.some.inj hchildren
    exact ⟨Table.keyed_empty, by simp⟩
  case isFalse => exact h other children hchildren

theorem ensureDirectory_eq : tree.ensureDirectory directory =
    if (tree.children? directory).isSome then tree else tree.emptied directory := rfl

theorem ensureDirectory_opens_iff :
    (tree.ensureDirectory directory).Opens other ↔ other = directory ∨ tree.Opens other := by
  rw [ensureDirectory_eq]
  split
  case isTrue hopens =>
    refine ⟨Or.inr, ?_⟩
    rintro (rfl | hother)
    · exact hopens
    · exact hother
  case isFalse => exact emptied_opens_iff

theorem mark?_ensureDirectory :
    (tree.ensureDirectory directory).mark? other name = tree.mark? other name := by
  rw [ensureDirectory_eq]
  split
  case isTrue => rfl
  case isFalse hopens =>
    rw [mark?_emptied]
    split
    case isTrue hother => rw [← hother, mark?_eq_none hopens]
    case isFalse => rfl

theorem Proper.ensureDirectory (h : tree.Proper) : (tree.ensureDirectory directory).Proper := by
  rw [ensureDirectory_eq]
  split
  · exact h
  · exact h.emptied

/-- Takes a name out of a directory, and what is kept under the key of its path. -/
def unlink (tree : MemoryTree) (directory name place : String) : MemoryTree :=
  let children := (tree.children? directory).getD Table.empty
  { tree with
    directories := (tree.directories.set directory (children.erase name)).erase place }

theorem children?_unlink {place : String} : (tree.unlink directory name place).children? other =
    if place = other then none
    else if directory = other then
      some (((tree.children? directory).getD Table.empty).erase name)
    else tree.children? other := by
  rw [unlink, children?, Table.find?_erase, Table.find?_set]
  rfl

theorem unlink_opens_iff {place : String} (hopens : tree.Opens directory) :
    (tree.unlink directory name place).Opens other ↔ other ≠ place ∧ tree.Opens other := by
  rw [Opens, children?_unlink]
  by_cases hplace : place = other
  · simp [hplace]
  · by_cases hdirectory : directory = other
    · simpa [hdirectory, hplace, Ne.symm hplace] using hdirectory ▸ hopens
    · simp [hdirectory, hplace, Ne.symm hplace, Opens]

theorem mark?_unlink {place : String} : (tree.unlink directory name place).mark? other others =
    if place = other ∨ directory = other ∧ name = others then none
    else tree.mark? other others := by
  rw [mark?, children?_unlink]
  by_cases hplace : place = other
  · simp [hplace]
  · by_cases hdirectory : directory = other
    · subst hdirectory
      simp only [hplace, if_false, if_true, Option.bind_some, Table.find?_erase, false_or,
        true_and, mark?]
      cases tree.children? directory <;> simp
    · simp [hplace, hdirectory, mark?]

theorem Proper.unlink {place : String} (h : tree.Proper) (hopens : tree.Opens directory) :
    (tree.unlink directory name place).Proper := by
  obtain ⟨old, hold⟩ := Option.isSome_iff_exists.mp hopens
  intro other children hchildren
  rw [children?_unlink, hold] at hchildren
  by_cases hplace : place = other
  · simp [hplace] at hchildren
  · by_cases hdirectory : directory = other
    · obtain rfl : old.erase name = children := by simpa [hplace, hdirectory] using hchildren
      refine ⟨(h directory old hold).1.erase name, fun others hothers ↦ ?_⟩
      rw [Table.find?_erase] at hothers
      split at hothers
      case isTrue => cases hothers
      case isFalse => exact (h directory old hold).2 others hothers
    · exact h other children (by simpa [hplace, hdirectory] using hchildren)

/-! ### When a path can be created or deleted -/

/-- Enters a name, together with an empty directory under the key of its path if it is one. -/
def added (tree : MemoryTree) (directory name place : String) (isDir : Bool) : MemoryTree :=
  if isDir then (tree.link directory name isDir).emptied place
  else tree.link directory name isDir

theorem added_opens_iff {place : String} (hopens : tree.Opens directory) :
    (tree.added directory name place isDir).Opens other ↔
      tree.Opens other ∨ isDir = true ∧ other = place := by
  have hlink : (tree.link directory name isDir).Opens other ↔ tree.Opens other := by
    rw [link_opens_iff, or_iff_right_iff_imp]
    rintro rfl
    exact hopens
  cases isDir with
  | false => simp [added, hlink]
  | true => simp [added, emptied_opens_iff, hlink, or_comm]

theorem mark?_added {place : String} : (tree.added directory name place isDir).mark? other others =
    if isDir = true ∧ place = other then none
    else if directory = other ∧ name = others then some isDir
    else tree.mark? other others := by
  cases isDir <;> simp [added, mark?_emptied, mark?_link]

theorem Proper.added {place : String} (h : tree.Proper) (hname : IsName name) :
    (tree.added directory name place isDir).Proper := by
  unfold MemoryTree.added
  split
  · exact (h.link hname).emptied
  · exact h.link hname

/-- Whether a path can be created: where it sits there is a directory without its name. -/
def Creatable (tree : MemoryTree) (path : String) : Prop :=
  ∃ directory name, Sits path directory name ∧ tree.Opens directory ∧
    tree.mark? directory name = none

theorem create_of_creatable (hsits : Sits (normalize path) directory name)
    (hopens : tree.Opens directory) (hfree : tree.mark? directory name = none) :
    tree.create path isDir = .ok (tree.added directory name (normalize path) isDir) := by
  obtain ⟨children, hchildren⟩ := Option.isSome_iff_exists.mp hopens
  have hcontains : children.contains name = false := by
    simpa [mark?, hchildren, Table.contains] using hfree
  simp only [create, hsits.parent, hsits.lastName, hchildren, hcontains, Bool.false_eq_true,
    if_false]
  rfl

theorem create_fails (h : ¬ tree.Creatable (normalize path)) :
    ∃ error, tree.create path isDir = .error error := by
  cases hparent : parent? (normalize path) with
  | none => exact ⟨_, by simp only [create, hparent]; rfl⟩
  | some directory =>
    cases hlast : lastName? (normalize path) with
    | none => exact ⟨_, by simp only [create, hparent, hlast]; rfl⟩
    | some name =>
      cases hchildren : tree.children? directory with
      | none => exact ⟨_, by simp only [create, hparent, hlast, hchildren]; rfl⟩
      | some children =>
        have hcontains : children.contains name = true := by
          by_contra hfree
          refine h ⟨directory, name, ⟨hparent, hlast⟩, ?_, ?_⟩
          · simp [Opens, hchildren]
          · simpa [mark?, hchildren, Table.contains] using hfree
        exact ⟨_, by simp only [create, hparent, hlast, hchildren, hcontains, if_true]; rfl⟩

/-- Whether a path can be deleted: its name is there, and nothing is kept under the path. -/
def Deletable (tree : MemoryTree) (path : String) : Prop :=
  (∃ directory name, Sits path directory name ∧ (tree.mark? directory name).isSome = true) ∧
    ∀ name, tree.mark? path name = none

theorem any_size_pos_iff : (tree.children? path).any (fun children ↦ 0 < children.size) = true ↔
    ∃ name, (tree.mark? path name).isSome = true := by
  unfold mark?
  cases tree.children? path with
  | none => simp
  | some children => simpa using children.size_pos_iff

theorem delete_of_deletable (hsits : Sits (normalize path) directory name)
    (hthere : (tree.mark? directory name).isSome = true)
    (hempty : ∀ name, tree.mark? (normalize path) name = none) :
    tree.delete path = .ok (tree.unlink directory name (normalize path)) := by
  have hany : (tree.children? (normalize path)).any (fun children ↦ 0 < children.size) = false := by
    rw [Bool.eq_false_iff, ne_eq, any_size_pos_iff]
    simp [hempty]
  obtain ⟨children, hchildren⟩ := Option.isSome_iff_exists.mp (opens_of_mark? hthere)
  have hcontains : children.contains name = true := by
    simpa [mark?, hchildren, Table.contains] using hthere
  simp only [delete, hsits.parent, hsits.lastName, hany, hchildren, hcontains,
    Bool.false_eq_true, if_false, if_true]
  rw [unlink, hchildren]
  rfl

theorem delete_fails (h : ¬ tree.Deletable (normalize path)) :
    ∃ error, tree.delete path = .error error := by
  cases hparent : parent? (normalize path) with
  | none => exact ⟨_, by simp only [delete, hparent]; rfl⟩
  | some directory =>
    cases hlast : lastName? (normalize path) with
    | none => exact ⟨_, by simp only [delete, hparent, hlast]; rfl⟩
    | some name =>
      cases hany : (tree.children? (normalize path)).any (fun children ↦ 0 < children.size) with
      | true => exact ⟨_, by simp only [delete, hparent, hlast, hany, if_true]; rfl⟩
      | false =>
        have hempty : ∀ name, tree.mark? (normalize path) name = none := by
          simpa [any_size_pos_iff] using mt any_size_pos_iff.mpr (ne_true_of_eq_false hany)
        have hgone : tree.mark? directory name = none := by
          by_contra hthere
          exact h ⟨⟨directory, name, ⟨hparent, hlast⟩, Option.isSome_iff_ne_none.mpr hthere⟩,
            hempty⟩
        cases hchildren : tree.children? directory with
        | none => exact ⟨_, by simp only [delete, hparent, hlast, hany, hchildren, Bool.false_eq_true, if_false]; rfl⟩
        | some children =>
          have hcontains : children.contains name = false := by
            simpa [mark?, hchildren, Table.contains] using hgone
          exact ⟨_, by simp only [delete, hparent, hlast, hany, hchildren, hcontains, Bool.false_eq_true, if_false]; rfl⟩

theorem contains_iff : tree.contains path = true ↔ normalize path = "/" ∨
    ∃ directory name, Sits (normalize path) directory name ∧
      (tree.mark? directory name).isSome = true := by
  rw [contains, Bool.or_eq_true, beq_iff_eq]
  apply or_congr_right
  constructor
  · intro hthere
    cases hparent : parent? (normalize path) with
    | none => simp [hparent] at hthere
    | some directory =>
      cases hlast : lastName? (normalize path) with
      | none => simp [hparent, hlast] at hthere
      | some name =>
        refine ⟨directory, name, ⟨hparent, hlast⟩, ?_⟩
        cases hchildren : tree.children? directory with
        | none => simp [hparent, hlast, hchildren] at hthere
        | some children =>
          simpa [hparent, hlast, hchildren, mark?, Table.contains] using hthere
  · rintro ⟨directory, name, hsits, hthere⟩
    obtain ⟨children, hchildren⟩ := Option.isSome_iff_exists.mp (opens_of_mark? hthere)
    simpa [hsits.parent, hsits.lastName, hchildren, mark?, Table.contains] using hthere

end DirectoryBrowser.MemoryTree
