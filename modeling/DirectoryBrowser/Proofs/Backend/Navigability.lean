import Mathlib.Data.List.Nodup
import DirectoryBrowser.Proofs.Backend.Representing

/-!
# Where the listings of a tree lead

Whoever lists a directory joins the names to its path to go on. That works as long
as the tree was changed at just the paths that such joins lead to. A path with a
second separator at its front sits in the root under a name, but is kept apart from
the path of the two joined; a file can take the mark of a directory and leave its
key; and a dot or two are marked like any other name. What every call enters is told
here without what comes later, and a run of calls is navigable throughout exactly if
each of these entries was sound when it was made.
-/

namespace DirectoryBrowser.MemoryTree

open DirectoryBrowser.Path

/-- Every directory that is listed can be listed in turn, and nothing else can. -/
def Navigable (tree : MemoryTree) : Prop :=
  ∀ directory entries, tree.list directory = .ok entries → ∀ entry ∈ entries,
    entry.name ≠ "." ∧ entry.name ≠ ".." ∧
    (entry.isDir = true → ∃ inner, tree.list (join directory entry.name) = .ok inner) ∧
    (entry.isDir = false → ∃ error, tree.list (join directory entry.name) = .error error)

/-- What a call enters in the tree. -/
def entered (tree : MemoryTree) : TreeCall → List Rung
  | .build path isDir => rungs path isDir
  | .create path isDir =>
    match tree.create path isDir, parent? (normalize path), lastName? (normalize path) with
    | .ok _, some directory, some name => [⟨normalize path, directory, name, isDir⟩]
    | _, _, _ => []
  | .withHome _ | .delete _ | .list _ | .contains _ => []

/-- An entry of a directory that can be listed should have a plain name. A directory should be kept
where joining its name leads to, or be there already, and a file should not. -/
def Sound (tree : MemoryTree) (rung : Rung) : Prop :=
  normalize rung.directory = rung.directory →
    rung.name ≠ "." ∧ rung.name ≠ ".." ∧
    (rung.isDir = true →
      rung.path = join rung.directory rung.name ∨ tree.Opens (join rung.directory rung.name)) ∧
    (rung.isDir = false → ¬ tree.Opens (join rung.directory rung.name))

variable {tree changed : MemoryTree} {path directory name : String} {isDir : Bool} {made : List Rung}

/-! ### Keys and marks of navigable trees -/

theorem join_normalize (directory : String) (hname : IsName name) :
    join (normalize directory) name = join directory name := by
  rw [← String.toList_inj, toList_join _ hname, toList_join _ hname, Path.normalize,
    String.toList_ofList, dropTrailing_normalizeChars]

theorem normalize_join (directory : String) (hname : IsName name) :
    normalize (join directory name) = join directory name :=
  (sits_join directory hname).normalize

theorem exists_ok_iff : (∃ entries, tree.list path = .ok entries) ↔ tree.Opens (normalize path) := by
  rw [← isOk_list_iff]
  cases tree.list path <;> simp [Except.isOk, Except.toBool]

theorem exists_error_iff :
    (∃ error, tree.list path = .error error) ↔ ¬ tree.Opens (normalize path) := by
  rw [← isOk_list_iff]
  cases tree.list path <;> simp [Except.isOk, Except.toBool]

/-- A tree is navigable if the marks in its directories tell what is kept under the joined paths. -/
theorem navigable_iff (hproper : tree.Proper) :
    tree.Navigable ↔ ∀ directory name isDir, normalize directory = directory →
      tree.mark? directory name = some isDir →
      name ≠ "." ∧ name ≠ ".." ∧ (isDir = true ↔ tree.Opens (join directory name)) := by
  have hleads (directory name : String) (isDir : Bool) (hname : IsName name) :
      ((isDir = true → ∃ inner, tree.list (join directory name) = .ok inner) ∧
        (isDir = false → ∃ error, tree.list (join directory name) = .error error)) ↔
      (isDir = true ↔ tree.Opens (join (normalize directory) name)) := by
    rw [exists_ok_iff, exists_error_iff, normalize_join _ hname, join_normalize _ hname]
    cases isDir <;> simp
  constructor
  · intro h directory name isDir hnormal hmark
    have hsome := Option.isSome_of_eq_some hmark
    have hopens : tree.Opens (normalize directory) := by
      rw [hnormal]
      exact opens_of_mark? hsome
    obtain ⟨entries, hlist, -, hentries⟩ := exists_entries hproper hopens
    have hentry : ⟨name, isDir, none⟩ ∈ entries := by
      rw [hentries, hnormal]
      exact ⟨rfl, hmark⟩
    obtain ⟨hdot, hdots, hends⟩ := h directory entries hlist _ hentry
    have hiff := (hleads directory name isDir (hproper.isName hsome)).mp hends
    rw [hnormal] at hiff
    exact ⟨hdot, hdots, hiff⟩
  · intro h directory entries hlist entry hentry
    have hopens := exists_ok_iff.mp ⟨entries, hlist⟩
    obtain ⟨others, hothers, -, hentries⟩ := exists_entries hproper hopens
    obtain rfl : entries = others := Except.ok.inj (hlist.symm.trans hothers)
    obtain ⟨-, hmark⟩ := (hentries entry).mp hentry
    obtain ⟨hdot, hdots, hiff⟩ :=
      h (normalize directory) entry.name entry.isDir (normalize_normalize _) hmark
    have hname := hproper.isName (Option.isSome_of_eq_some hmark)
    exact ⟨hdot, hdots, (hleads directory entry.name entry.isDir hname).mpr hiff⟩

/-! ### What entries do to a navigable tree -/

/-- The names that a list of entries does not enter in a directory. -/
def Misses (made : List Rung) (directory name : String) : Prop :=
  ∀ rung ∈ made, rung.directory = directory → rung.name ≠ name

/-- One tree comes from another by entering a list of rungs, as far as joined paths can tell. -/
structure Enters (tree changed : MemoryTree) (made : List Rung) : Prop where
  marked : ∀ rung ∈ made, changed.mark? rung.directory rung.name = some rung.isDir
  kept : ∀ directory name isDir, Misses made directory name →
    changed.mark? directory name = some isDir → tree.mark? directory name = some isDir
  opens_marked : ∀ rung ∈ made, normalize rung.directory = rung.directory →
    (changed.Opens (join rung.directory rung.name) ↔
      tree.Opens (join rung.directory rung.name) ∨
        rung.isDir = true ∧ rung.path = join rung.directory rung.name)
  opens_kept : ∀ directory name, Misses made directory name →
    normalize directory = directory → (changed.mark? directory name).isSome = true →
    (changed.Opens (join directory name) ↔ tree.Opens (join directory name))

theorem Enters.navigable_iff (h : tree.Enters changed made) (hproper : tree.Proper)
    (hchanged : changed.Proper) (hnavigable : tree.Navigable) :
    changed.Navigable ↔ ∀ rung ∈ made, tree.Sound rung := by
  rw [MemoryTree.navigable_iff hproper] at hnavigable
  rw [MemoryTree.navigable_iff hchanged]
  constructor
  · intro hafter rung hrung hnormal
    obtain ⟨hdot, hdots, hiff⟩ := hafter _ _ _ hnormal (h.marked rung hrung)
    rw [h.opens_marked rung hrung hnormal] at hiff
    refine ⟨hdot, hdots, fun hdir ↦ ?_, fun hfile hopens ↦ ?_⟩
    · exact (hiff.mp hdir).elim .inr (fun hkept ↦ .inl hkept.2)
    · rw [hiff.mpr (.inl hopens)] at hfile
      cases hfile
  · intro hsound directory name isDir hnormal hmark
    -- what the entries miss is as before, and what they hit is sound
    by_cases hmisses : Misses made directory name
    · rw [h.opens_kept directory name hmisses hnormal (Option.isSome_of_eq_some hmark)]
      exact hnavigable directory name isDir hnormal (h.kept directory name isDir hmisses hmark)
    · obtain ⟨rung, hrung, rfl, rfl⟩ :
          ∃ rung ∈ made, rung.directory = directory ∧ rung.name = name := by
        simpa [Misses] using hmisses
      obtain rfl : rung.isDir = isDir := Option.some.inj ((h.marked rung hrung).symm.trans hmark)
      obtain ⟨hdot, hdots, hdir, hfile⟩ := hsound rung hrung hnormal
      refine ⟨hdot, hdots, ?_⟩
      rw [h.opens_marked rung hrung hnormal]
      cases hkind : rung.isDir with
      | false => simpa using hfile hkind
      | true => simpa [or_comm] using hdir hkind

theorem enters_nil (tree : MemoryTree) : tree.Enters tree [] where
  marked rung hrung := by cases hrung
  kept directory name isDir _ hmark := hmark
  opens_marked rung hrung := by cases hrung
  opens_kept directory name _ _ _ := Iff.rfl

theorem withHome_enters (tree : MemoryTree) (home : String) :
    tree.Enters (tree.withHome home) [] where
  marked rung hrung := by cases hrung
  kept directory name isDir _ hmark := by
    rwa [mark?_withHome] at hmark
  opens_marked rung hrung := by cases hrung
  opens_kept directory name _ _ _ := withHome_opens_iff home

/-- No two rungs of a builder share their directory. -/
theorem rungs_inj {rung other : Rung} (hrung : rung ∈ rungs path isDir)
    (hother : other ∈ rungs path isDir) (h : rung.directory = other.directory) : rung = other := by
  have hdistinct : ((rungs path isDir).map Rung.directory).Nodup :=
    List.pairwise_map.mpr (climb_pairwise _ _ _)
  exact List.inj_on_of_nodup_map hdistinct hrung hother h

/-- The key of a joined path is new only where a builder comes by its name. -/
theorem insert_opens_join_iff (hnormal : normalize directory = directory) (hname : IsName name) :
    (tree.insert path isDir).Opens (join directory name) ↔
      tree.Opens (join directory name) ∨ ∃ rung ∈ rungs path isDir,
        rung.directory = directory ∧ rung.name = name ∧ rung.isDir = true ∧
          rung.path = join directory name := by
  have hsits := sits_join directory hname
  rw [hnormal] at hsits
  rw [insert_opens_iff]
  apply or_congr_right
  constructor
  · rintro ⟨rung, hrung, hkey | ⟨hdir, hkey⟩⟩
    · -- a directory that a name joins to sits itself, so it has a rung of its own
      rw [hkey] at hsits
      exact ⟨_, exists_rung_above Nat.le.refl hrung hsits, rfl, rfl, rfl, hkey.symm⟩
    · rw [hkey] at hsits
      obtain ⟨hdirectory, hlast⟩ := (sits_of_mem_climb hrung).1.unique hsits
      exact ⟨rung, hrung, hdirectory, hlast, hdir, hkey.symm⟩
  · rintro ⟨rung, hrung, -, -, hdir, hkey⟩
    exact ⟨rung, hrung, .inr ⟨hdir, hkey.symm⟩⟩

theorem insert_enters (hproper : tree.Proper) :
    tree.Enters (tree.insert path isDir) (rungs path isDir) where
  marked rung hrung := mark?_insert_of_mem hrung
  kept directory name flag hmisses hmark := by
    rwa [mark?_insert_of_notMem hmisses] at hmark
  opens_marked rung hrung hnormal := by
    rw [insert_opens_join_iff hnormal (sits_of_mem_climb hrung).1.isName]
    apply or_congr_right
    constructor
    · rintro ⟨other, hother, hdirectory, -, hdir, hpath⟩
      obtain rfl := rungs_inj hother hrung hdirectory
      exact ⟨hdir, hpath⟩
    · rintro ⟨hdir, hpath⟩
      exact ⟨rung, hrung, rfl, rfl, hdir, hpath⟩
  opens_kept directory name hmisses hnormal hmark := by
    rw [mark?_insert_of_notMem hmisses] at hmark
    rw [insert_opens_join_iff hnormal (hproper.isName hmark), or_iff_left_iff_imp]
    rintro ⟨rung, hrung, hdirectory, hname, -⟩
    exact absurd hname (hmisses rung hrung hdirectory)

theorem added_enters (hproper : tree.Proper) (hsits : Sits path directory name)
    (hopens : tree.Opens directory) :
    tree.Enters (tree.added directory name path isDir) [⟨path, directory, name, isDir⟩] where
  marked rung hrung := by
    obtain rfl := List.mem_singleton.mp hrung
    have hne : path ≠ directory := fun heq ↦ Nat.lt_irrefl _ (heq ▸ hsits.length_lt)
    simp [mark?_added, hne]
  kept other others flag hmisses hmark := by
    have hother : ¬ (directory = other ∧ name = others) :=
      not_and.mpr (hmisses _ List.mem_cons_self)
    rw [mark?_added, if_neg hother] at hmark
    split at hmark
    case isTrue => cases hmark
    case isFalse => exact hmark
  opens_marked rung hrung hnormal := by
    obtain rfl := List.mem_singleton.mp hrung
    show _ ↔ tree.Opens (join directory name) ∨ isDir = true ∧ path = join directory name
    rw [added_opens_iff hopens, @eq_comm _ path]
  opens_kept other others hmisses hnormal hmark := by
    have hother : ¬ (directory = other ∧ name = others) :=
      not_and.mpr (hmisses _ List.mem_cons_self)
    have hthere : (tree.mark? other others).isSome = true := by
      rw [mark?_added, if_neg hother] at hmark
      split at hmark
      case isTrue => cases hmark
      case isFalse => exact hmark
    have hjoined := sits_join other (hproper.isName hthere)
    rw [hnormal] at hjoined
    -- the new key is a joined path of the new name only
    rw [added_opens_iff hopens, or_iff_left_iff_imp]
    rintro ⟨-, hpath⟩
    rw [hpath] at hjoined
    exact absurd (hsits.unique hjoined) hother

theorem unlink_enters (hproper : tree.Proper) (hsits : Sits path directory name)
    (hopens : tree.Opens directory) : tree.Enters (tree.unlink directory name path) [] where
  marked rung hrung := by cases hrung
  kept other others flag _ hmark := by
    rw [mark?_unlink] at hmark
    split at hmark
    case isTrue => cases hmark
    case isFalse => exact hmark
  opens_marked rung hrung := by cases hrung
  opens_kept other others _ hnormal hmark := by
    rw [mark?_unlink] at hmark
    split at hmark
    case isTrue => cases hmark
    case isFalse hother =>
      have hjoined := sits_join other (hproper.isName hmark)
      rw [hnormal] at hjoined
      rw [unlink_opens_iff hopens, and_iff_right_iff_imp]
      rintro - hpath
      rw [hpath] at hjoined
      exact hother (.inr (hsits.unique hjoined))

theorem entered_create_of_ok (hsits : Sits (normalize path) directory name)
    (hcreate : tree.create path isDir = .ok changed) :
    tree.entered (.create path isDir) = [⟨normalize path, directory, name, isDir⟩] := by
  simp only [entered, hcreate, hsits.parent, hsits.lastName]

theorem entered_create_of_error {error : BackendError}
    (hcreate : tree.create path isDir = .error error) :
    tree.entered (.create path isDir) = [] := by
  simp only [entered, hcreate]

/-- Every call does to a tree what its entries say, a deletion included: it has none. -/
theorem answer_enters (hproper : tree.Proper) (call : TreeCall) :
    tree.Enters (tree.answer call).2 (tree.entered call) := by
  cases call with
  | withHome home =>
    rw [answer_withHome]
    exact withHome_enters tree home
  | build path isDir =>
    rw [answer_build]
    dsimp only [entered]
    exact insert_enters hproper
  | create path isDir =>
    by_cases hcreatable : tree.Creatable (normalize path)
    · obtain ⟨directory, name, hsits, hopens, hfree⟩ := hcreatable
      have hcreate : tree.create path isDir = _ := create_of_creatable hsits hopens hfree
      rw [answer_create_of_ok hcreate, entered_create_of_ok hsits hcreate]
      exact added_enters hproper hsits hopens
    · obtain ⟨error, hcreate⟩ := create_fails hcreatable
      rw [answer_create_of_error hcreate, entered_create_of_error hcreate]
      exact enters_nil tree
  | delete path =>
    rcases delete_cases tree path with
      ⟨directory, name, hsits, hthere, -, hanswer⟩ | ⟨-, error, hanswer⟩
    · rw [hanswer]
      exact unlink_enters hproper hsits (opens_of_mark? hthere)
    · rw [hanswer]
      exact enters_nil tree
  | list path =>
    rw [answer_list]
    exact enters_nil tree
  | contains path => exact enters_nil tree

/-- One call leaves a navigable tree navigable exactly if all that it enters is sound. -/
theorem answer_navigable_iff (hproper : tree.Proper) (hnavigable : tree.Navigable)
    (call : TreeCall) :
    (tree.answer call).2.Navigable ↔ ∀ rung ∈ tree.entered call, tree.Sound rung :=
  (answer_enters hproper call).navigable_iff hproper (hproper.answer call) hnavigable

/-! ### Runs of calls -/

theorem empty_navigable (title : String) : (empty title).Navigable := by
  rw [navigable_iff (empty_proper title)]
  intro directory name isDir _ hmark
  rw [mark?_empty] at hmark
  cases hmark

theorem after_concat (tree : MemoryTree) (calls : List TreeCall) (call : TreeCall) :
    tree.after (calls ++ [call]) = ((tree.after calls).answer call).2 := by
  induction calls generalizing tree with
  | nil => rfl
  | cons first calls ih => exact ih (tree.answer first).2

/-- Whatever paths a tree is built, created and deleted at, it is navigable at all times exactly if
every entry is sound when it is made. -/
theorem navigable_iff_entered_sound (title : String) (calls : List TreeCall) :
    (∀ earlier later, calls = earlier ++ later → ((empty title).after earlier).Navigable) ↔
    ∀ earlier call later, calls = earlier ++ call :: later →
      ∀ rung ∈ ((empty title).after earlier).entered call,
        ((empty title).after earlier).Sound rung := by
  have hproper (earlier : List TreeCall) : ((empty title).after earlier).Proper :=
    (empty_proper title).after earlier
  constructor
  · intro hnavigable earlier call later hcalls
    rw [← answer_navigable_iff (hproper earlier) (hnavigable earlier _ hcalls), ← after_concat]
    exact hnavigable (earlier ++ [call]) later (by simp [hcalls])
  · intro hsound earlier
    induction earlier using List.reverseRecOn with
    | nil => exact fun later _ ↦ empty_navigable title
    | append_singleton earlier call ih =>
      intro later hcalls
      rw [List.append_assoc, List.singleton_append] at hcalls
      rw [after_concat, answer_navigable_iff (hproper earlier) (ih _ hcalls)]
      exact hsound earlier call later hcalls

theorem not_navigable_of_mark? (hproper : tree.Proper) (hnormal : normalize directory = directory)
    (hmark : tree.mark? directory name = some isDir)
    (hwrong : name = "." ∨ name = ".." ∨ ¬ (isDir = true ↔ tree.Opens (join directory name))) :
    ¬ tree.Navigable := by
  intro hnavigable
  obtain ⟨hdot, hdots, hiff⟩ :=
    (navigable_iff hproper).mp hnavigable directory name isDir hnormal hmark
  rcases hwrong with rfl | rfl | hwrong
  · exact hdot rfl
  · exact hdots rfl
  · exact hwrong hiff

/-- A directory that goes by two dots, one that is kept where no join leads to, and a file in the
place of a directory that is still kept, from a builder or from calls. -/
theorem not_always_navigable :
    ¬ ((empty "memory").after [.create "/c" true, .create "/c/.." true]).Navigable ∧
    ¬ ((empty "memory").after [.create "//a" true]).Navigable ∧
    ¬ ((empty "memory").after [.build "/b" true, .build "/b" false]).Navigable ∧
    ¬ ((empty "memory").after [.create "/b" true, .delete "//b", .create "/b" false]).Navigable := by
  have hproper (calls : List TreeCall) : ((empty "memory").after calls).Proper :=
    (empty_proper "memory").after calls
  refine ⟨?dots, ?doubled, ?rebuilt, ?recreated⟩
  case dots =>
    have hmark : ((empty "memory").after [.create "/c" true, .create "/c/.." true]).mark?
        "/c" ".." = some true := by decide +kernel
    exact not_navigable_of_mark? (hproper _) (by decide +kernel) hmark (.inr (.inl rfl))
  case doubled =>
    have hmark : ((empty "memory").after [.create "//a" true]).mark? "/" "a" = some true := by
      decide +kernel
    exact not_navigable_of_mark? (hproper _) (by decide +kernel) hmark (by decide +kernel)
  case rebuilt =>
    have hmark : ((empty "memory").after [.build "/b" true, .build "/b" false]).mark? "/" "b" =
        some false := by decide +kernel
    exact not_navigable_of_mark? (hproper _) (by decide +kernel) hmark (by decide +kernel)
  case recreated =>
    have hmark : ((empty "memory").after
        [.create "/b" true, .delete "//b", .create "/b" false]).mark? "/" "b" = some false := by
      decide +kernel
    exact not_navigable_of_mark? (hproper _) (by decide +kernel) hmark (by decide +kernel)

/-! ### Canonical paths -/

theorem sound_of_join {rung : Rung} (hdot : rung.name ≠ ".") (hdots : rung.name ≠ "..")
    (hpath : rung.path = join rung.directory rung.name)
    (hfile : rung.isDir = false → ¬ tree.Opens rung.path) : tree.Sound rung := by
  intro _
  rw [hpath] at hfile
  exact ⟨hdot, hdots, fun _ ↦ .inl hpath, hfile⟩

theorem entered_build_sound (hpath : IsCanonical path)
    (hplain : "." ∉ namesOf path ∧ ".." ∉ namesOf path)
    (hkeeps : isDir = false → ¬ tree.Opens path) :
    ∀ rung ∈ tree.entered (.build path isDir), tree.Sound rung := by
  intro rung hrung
  have hplace := isName_namesOf path
  have hrung : rung ∈ rungs (ofNames (namesOf path)) isDir := by
    rwa [ofNames_namesOf hpath]
  obtain ⟨name, above, hsuffix, rfl⟩ := (mem_rungs_ofNames_iff hplace).mp hrung
  have hname : name ∈ namesOf path := hsuffix.subset List.mem_cons_self
  refine sound_of_join (fun heq ↦ hplain.1 (heq ▸ hname)) (fun heq ↦ hplain.2 (heq ▸ hname)) rfl ?_
  intro hfile
  obtain ⟨hwhole, rfl⟩ : name :: above = namesOf path ∧ isDir = false := by
    simpa [rungAt] using hfile
  show ¬ tree.Opens (ofNames (name :: above))
  rw [hwhole, ofNames_namesOf hpath]
  exact hkeeps rfl

theorem Represents.entered_create_sound {files : FileTree} (h : tree.Represents files)
    (hpath : IsCanonical path) (hplain : "." ∉ namesOf path ∧ ".." ∉ namesOf path)
    (isDir : Bool) : ∀ rung ∈ tree.entered (.create path isDir), tree.Sound rung := by
  by_cases hcreatable : tree.Creatable (normalize path)
  · have hclosed : ¬ tree.Opens path := by
      have hplace := isName_namesOf path
      rw [hpath.normalize, ← ofNames_namesOf hpath, h.creatable_iff hplace] at hcreatable
      rw [← ofNames_namesOf hpath, h.opens_iff _ hplace, hcreatable.node_eq_none]
      exact nofun
    obtain ⟨directory, name, hsits, hopens, hfree⟩ := hcreatable
    rw [entered_create_of_ok hsits (create_of_creatable hsits hopens hfree)]
    rw [hpath.normalize] at hsits ⊢
    obtain ⟨hjoin, hname⟩ := hpath.eq_join hsits
    intro rung hrung
    obtain rfl := List.mem_singleton.mp hrung
    exact sound_of_join (fun heq ↦ hplain.1 (heq ▸ hname)) (fun heq ↦ hplain.2 (heq ▸ hname)) hjoin
      fun _ ↦ hclosed
  · obtain ⟨error, hcreate⟩ := create_fails hcreatable
    rw [entered_create_of_error hcreate]
    exact fun rung hrung ↦ absurd hrung List.not_mem_nil

/-- At a canonical path without dots everything that is entered is sound, as long as the builder
puts no file where a directory is. -/
theorem Represents.entered_sound {files : FileTree} (h : tree.Represents files) {call : TreeCall}
    (hcanonical : ∀ path ∈ call.path?, IsCanonical path)
    (hplain : ∀ path ∈ call.path?, "." ∉ namesOf path ∧ ".." ∉ namesOf path)
    (hkeeps : ∀ path, call = .build path false → ¬ tree.Opens path) :
    ∀ rung ∈ tree.entered call, tree.Sound rung := by
  cases call with
  | build path isDir =>
    apply entered_build_sound (hcanonical path rfl) (hplain path rfl)
    rintro rfl
    exact hkeeps path rfl
  | create path isDir => exact h.entered_create_sound (hcanonical path rfl) (hplain path rfl) isDir
  | _ => exact fun rung hrung ↦ absurd hrung List.not_mem_nil

theorem Represents.after_navigable {files : FileTree} (h : tree.Represents files)
    (hnavigable : tree.Navigable) {calls : List TreeCall}
    (hcanonical : ∀ call ∈ calls, ∀ path ∈ call.path?, IsCanonical path)
    (hplain : ∀ call ∈ calls, ∀ path ∈ call.path?, "." ∉ namesOf path ∧ ".." ∉ namesOf path)
    (hkeeps : tree.keepsDirectories calls = true) : (tree.after calls).Navigable := by
  induction calls generalizing tree files with
  | nil => exact hnavigable
  | cons call calls ih =>
    obtain ⟨hcall, hcalls⟩ := List.forall_mem_cons.mp hcanonical
    obtain ⟨hfirst, hrest⟩ := List.forall_mem_cons.mp hplain
    have hfree := not_opens_of_keepsDirectories hcall hkeeps
    obtain ⟨changed, -, hchanged⟩ := h.answer hcall hfree
    have hsound := h.entered_sound hcall hfirst hfree
    exact ih hchanged ((answer_navigable_iff h.proper hnavigable call).mpr hsound) hcalls hrest
      (Bool.and_eq_true_iff.mp hkeeps).2

/-- Canonical paths without dots lead to navigable trees only. -/
theorem navigable_of_canonical (title : String) {calls : List TreeCall}
    (hcanonical : ∀ call ∈ calls, ∀ path ∈ call.path?, IsCanonical path)
    (hplain : ∀ call ∈ calls, ∀ path ∈ call.path?, "." ∉ namesOf path ∧ ".." ∉ namesOf path)
    (hkeeps : (empty title).keepsDirectories calls = true) :
    ((empty title).after calls).Navigable :=
  (empty_represents title).after_navigable (empty_navigable title) hcanonical hplain hkeeps

end DirectoryBrowser.MemoryTree
