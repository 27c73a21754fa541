import DirectoryBrowser.Proofs.Backend.FileTrees

/-!
# File trees in memory

A tree in memory represents a file tree as long as it is called with canonical
paths: the keys then are the directories of the file tree, and the marks its nodes.
Every call keeps it so, and is answered as the file tree answers it. For a builder
that means to find out by which places it comes on its way up to the root.
-/

namespace DirectoryBrowser.MemoryTree

open DirectoryBrowser.Path FileTree

variable {tree : MemoryTree} {files : FileTree} {place other : List String} {path name : String}
  {isDir : Bool}

/-- The places of the file tree are kept under the paths to them. -/
structure Represents (tree : MemoryTree) (files : FileTree) : Prop where
  proper : tree.Proper
  opens_iff : ∀ place, (∀ name ∈ place, IsName name) →
    (tree.Opens (ofNames place) ↔ files.node place = some true)
  mark?_eq : ∀ place, (∀ name ∈ place, IsName name) →
    ∀ name, tree.mark? (ofNames place) name = files.node (name :: place)

theorem empty_represents (title : String) : (empty title).Represents bare where
  proper := empty_proper title
  opens_iff place hplace := by
    have hroot : ofNames place = "/" ↔ place = [] := by
      rw [show "/" = ofNames [] from rfl, ofNames_inj hplace (by simp)]
    simp [empty_opens_iff, hroot, bare]
  mark?_eq place hplace name := by simp [mark?_empty, bare]

theorem Represents.withHome (h : tree.Represents files) (home : String) :
    (tree.withHome home).Represents files where
  proper := h.proper.withHome home
  opens_iff place hplace := by
    rw [withHome_opens_iff, h.opens_iff place hplace]
  mark?_eq place hplace name := by
    rw [mark?_withHome, h.mark?_eq place hplace]

/-! ### Building -/

theorem length_le_length_ofNames (hplace : ∀ name ∈ place, IsName name) :
    place.length ≤ (ofNames place).length := by
  induction place with
  | nil => exact Nat.zero_le _
  | cons name place ih =>
    calc place.length + 1 ≤ (ofNames place).length + 1 :=
          Nat.succ_le_succ (ih (List.forall_mem_cons.mp hplace).2)
      _ ≤ (ofNames (name :: place)).length := (sits_ofNames hplace).length_lt

/-- The rung of a place that is not the root, in a climb from some place. -/
def rungAt (place : List String) (isDir : Bool) (name : String) (above : List String) : Rung where
  path := ofNames (name :: above)
  directory := ofNames above
  name := name
  isDir := if name :: above = place then isDir else true

theorem rungAt_of_suffix (first : String) (isDir : Bool) (h : name :: above <:+ place) :
    rungAt (first :: place) isDir name above = rungAt place true name above := by
  have hne : name :: above ≠ first :: place := by
    intro heq
    have hlength := h.length_le
    rw [heq] at hlength
    exact Nat.not_succ_le_self _ hlength
  simp [rungAt, hne]

/-- A climb from a place comes by all places above it. -/
theorem mem_climb_ofNames_iff {steps : Nat} {rung : Rung} (hplace : ∀ name ∈ place, IsName name)
    (hsteps : place.length ≤ steps) :
    rung ∈ climb steps (ofNames place) isDir ↔
      ∃ name above, name :: above <:+ place ∧ rung = rungAt place isDir name above := by
  induction place generalizing steps isDir with
  | nil =>
    have hroot : ¬ ∃ directory name, Sits (ofNames []) directory name := by
      rintro ⟨directory, name, hsits⟩
      cases hsits.parent
    simp [climb_of_not_sits hroot]
  | cons first place ih =>
    cases steps with
    | zero => exact absurd hsteps (Nat.not_succ_le_zero _)
    | succ steps =>
      rw [climb_of_sits steps isDir (sits_ofNames hplace), List.mem_cons,
        ih (List.forall_mem_cons.mp hplace).2 (Nat.le_of_succ_le_succ hsteps)]
      constructor
      · rintro (rfl | ⟨name, above, hsuffix, rfl⟩)
        · exact ⟨first, place, List.suffix_rfl, by simp [rungAt]⟩
        · exact ⟨name, above, hsuffix.trans (List.suffix_cons first place),
            (rungAt_of_suffix first isDir hsuffix).symm⟩
      · rintro ⟨name, above, hsuffix, rfl⟩
        rcases List.suffix_cons_iff.mp hsuffix with heq | hsuffix
        · obtain ⟨rfl, rfl⟩ := List.cons.inj heq
          exact .inl (by simp [rungAt])
        · exact .inr ⟨name, above, hsuffix, rungAt_of_suffix first isDir hsuffix⟩

theorem mem_rungs_ofNames_iff {rung : Rung} (hplace : ∀ name ∈ place, IsName name) :
    rung ∈ rungs (ofNames place) isDir ↔
      ∃ name above, name :: above <:+ place ∧ rung = rungAt place isDir name above := by
  rw [rungs, normalize_ofNames hplace]
  exact mem_climb_ofNames_iff hplace (length_le_length_ofNames hplace)

theorem isName_of_suffix (hplace : ∀ name ∈ place, IsName name) (h : other <:+ place) :
    ∀ name ∈ other, IsName name :=
  fun name hname ↦ hplace name (h.subset hname)

theorem insert_ofNames_opens_iff (hplace : ∀ name ∈ place, IsName name)
    (hother : ∀ name ∈ other, IsName name) :
    (tree.insert (ofNames place) isDir).Opens (ofNames other) ↔
      tree.Opens (ofNames other) ∨
        (other <:+ place ∧ other ≠ place) ∨ (isDir = true ∧ other = place ∧ place ≠ []) := by
  rw [insert_opens_iff]
  apply or_congr_right
  constructor
  · rintro ⟨rung, hrung, hkey⟩
    obtain ⟨name, above, hsuffix, rfl⟩ := (mem_rungs_ofNames_iff hplace).mp hrung
    have habove := (List.suffix_cons name above).trans hsuffix
    rcases hkey with hkey | ⟨hdir, hkey⟩
    · obtain rfl := (ofNames_inj hother (isName_of_suffix hplace habove)).mp hkey
      exact .inl ⟨habove, length_ne_of_suffix hsuffix⟩
    · obtain rfl := (ofNames_inj hother (isName_of_suffix hplace hsuffix)).mp hkey
      by_cases heq : name :: above = place
      · exact .inr ⟨by simpa [rungAt, heq] using hdir, heq, heq ▸ List.cons_ne_nil _ _⟩
      · exact .inl ⟨hsuffix, heq⟩
  · rintro (⟨hsuffix, hne⟩ | ⟨rfl, rfl, hne⟩)
    · obtain ⟨name, hnext⟩ := exists_cons_suffix hsuffix hne
      exact ⟨_, (mem_rungs_ofNames_iff hplace).mpr ⟨name, other, hnext, rfl⟩, .inl rfl⟩
    · obtain ⟨name, above, rfl⟩ := List.exists_cons_of_ne_nil hne
      exact ⟨_, (mem_rungs_ofNames_iff hplace).mpr ⟨name, above, List.suffix_rfl, rfl⟩,
        .inr ⟨by simp [rungAt], rfl⟩⟩

theorem mark?_insert_ofNames (hplace : ∀ name ∈ place, IsName name)
    (hother : ∀ name ∈ other, IsName name) :
    (tree.insert (ofNames place) isDir).mark? (ofNames other) name =
      if name :: other = place then some isDir
      else if name :: other <:+ place then some true
      else tree.mark? (ofNames other) name := by
  by_cases hsuffix : name :: other <:+ place
  · let rung := rungAt place isDir name other
    have hrung : rung ∈ rungs (ofNames place) isDir :=
      (mem_rungs_ofNames_iff hplace).mpr ⟨name, other, hsuffix, rfl⟩
    have hmark : (tree.insert (ofNames place) isDir).mark? rung.directory rung.name =
        some rung.isDir := mark?_insert_of_mem hrung
    rw [if_pos hsuffix, ← apply_ite some]
    exact hmark
  · have hne : name :: other ≠ place := by
      rintro rfl
      exact hsuffix List.suffix_rfl
    rw [if_neg hne, if_neg hsuffix]
    apply mark?_insert_of_notMem
    rintro rung hrung hdirectory rfl
    obtain ⟨name, above, habove, rfl⟩ := (mem_rungs_ofNames_iff hplace).mp hrung
    have hnames := isName_of_suffix hplace ((List.suffix_cons name above).trans habove)
    obtain rfl := (ofNames_inj hnames hother).mp hdirectory
    exact hsuffix habove

theorem Represents.insert (h : tree.Represents files) (hplace : ∀ name ∈ place, IsName name)
    (hfree : isDir = false → files.node place ≠ some true) :
    (tree.insert (ofNames place) isDir).Represents (files.raise place isDir hfree) where
  proper := h.proper.insert _ _
  opens_iff other hother := by
    rw [insert_ofNames_opens_iff hplace hother, h.opens_iff other hother]
    show _ ↔ files.built place isDir other = some true
    unfold built
    -- a file opens nothing, and `hfree` says that nothing was open there before
    by_cases heq : other = place
    · subst heq
      cases isDir with
      | false => simp [hfree rfl]
      | true => by_cases hroot : other = [] <;> simp [hroot, files.root]
    · by_cases hsuffix : other <:+ place <;> simp [heq, hsuffix]
  mark?_eq other hother name := by
    rw [mark?_insert_ofNames hplace hother, h.mark?_eq other hother]
    rfl

/-! ### Creating and deleting -/

theorem not_creatable_root : ¬ tree.Creatable (ofNames []) := by
  rintro ⟨directory, name, hsits, -⟩
  cases hsits.parent

theorem Represents.creatable_iff (h : tree.Represents files)
    (hplace : ∀ name ∈ place, IsName name) :
    tree.Creatable (ofNames place) ↔ files.Creatable place := by
  cases place with
  | nil => exact iff_of_false not_creatable_root id
  | cons name above =>
    have habove := (List.forall_mem_cons.mp hplace).2
    have hsits := sits_ofNames hplace
    rw [FileTree.Creatable, ← h.opens_iff above habove, ← h.mark?_eq above habove]
    constructor
    · rintro ⟨directory, other, hother, hopens, hfree⟩
      obtain ⟨rfl, rfl⟩ := hother.unique hsits
      exact ⟨hopens, hfree⟩
    · rintro ⟨hopens, hfree⟩
      exact ⟨_, _, hsits, hopens, hfree⟩

/-- Who goes from a place to one of its children does not pass another place. -/
theorem cons_eq_cons_iff {others : String} :
    others :: other = name :: place ↔ place = other ∧ name = others := by
  rw [List.cons.injEq, and_comm, eq_comm, @eq_comm _ others]

theorem Represents.added {directory : String} (h : tree.Represents files)
    (hplace : ∀ name ∈ place, IsName name) (hcreatable : files.Creatable place)
    (hsits : Sits (ofNames place) directory name) :
    (tree.added directory name (ofNames place) isDir).Represents
      (files.add place isDir hcreatable) := by
  cases place with
  | nil => cases hcreatable
  | cons first above =>
    obtain ⟨rfl, rfl⟩ := hsits.unique (sits_ofNames hplace)
    have habove := (List.forall_mem_cons.mp hplace).2
    have hfree := hcreatable.node_eq_none
    refine ⟨h.proper.added hsits.isName, fun other hother ↦ ?_, fun other hother others ↦ ?_⟩
    · rw [added_opens_iff ((h.opens_iff above habove).mpr hcreatable.1), h.opens_iff other hother,
        ofNames_inj hother hplace]
      show _ ↔ Function.update files.node (name :: above) (some isDir) other = some true
      by_cases heq : other = name :: above
      · subst heq
        simp [hfree]
      · simp [heq]
    · show _ = Function.update files.node (name :: above) (some isDir) (others :: other)
      simp only [mark?_added, h.mark?_eq other hother, ofNames_inj hplace hother,
        ofNames_inj habove hother, Function.update_apply, cons_eq_cons_iff]
      split
      case isTrue hin =>
        obtain ⟨-, rfl⟩ := hin
        rw [if_neg (by simp), node_cons_eq_none (by simp [hfree])]
      case isFalse => rfl

theorem Represents.deletable_iff (h : tree.Represents files)
    (hplace : ∀ name ∈ place, IsName name) :
    tree.Deletable (ofNames place) ↔ files.Deletable place := by
  have hempty : (∀ name, tree.mark? (ofNames place) name = none) ↔
      ∀ name, files.node (name :: place) = none :=
    forall_congr' fun name ↦ by rw [h.mark?_eq place hplace]
  rw [Deletable, FileTree.Deletable, hempty, ← and_assoc]
  apply and_congr_left'
  cases place with
  | nil =>
    apply iff_of_false
    · rintro ⟨directory, name, hsits, -⟩
      cases hsits.parent
    · simp
  | cons name above =>
    have hsits := sits_ofNames hplace
    rw [← h.mark?_eq above (List.forall_mem_cons.mp hplace).2]
    constructor
    · rintro ⟨directory, other, hother, hthere⟩
      obtain ⟨rfl, rfl⟩ := hother.unique hsits
      exact ⟨List.cons_ne_nil _ _, hthere⟩
    · rintro ⟨-, hthere⟩
      exact ⟨_, _, hsits, hthere⟩

theorem Represents.unlink {directory : String} (h : tree.Represents files)
    (hplace : ∀ name ∈ place, IsName name) (hdeletable : files.Deletable place)
    (hsits : Sits (ofNames place) directory name) :
    (tree.unlink directory name (ofNames place)).Represents (files.remove place hdeletable) := by
  cases place with
  | nil => exact absurd rfl hdeletable.1
  | cons first above =>
    obtain ⟨rfl, rfl⟩ := hsits.unique (sits_ofNames hplace)
    have habove := (List.forall_mem_cons.mp hplace).2
    have hopens : tree.Opens (ofNames above) :=
      (h.opens_iff above habove).mpr (files.closed name above hdeletable.2.1)
    refine ⟨h.proper.unlink hopens, fun other hother ↦ ?_, fun other hother others ↦ ?_⟩
    · rw [unlink_opens_iff hopens, h.opens_iff other hother, ne_eq, ofNames_inj hother hplace]
      show _ ↔ Function.update files.node (name :: above) none other = some true
      by_cases heq : other = name :: above
      · subst heq
        simp
      · simp [heq]
    · show _ = Function.update files.node (name :: above) none (others :: other)
      simp only [mark?_unlink, h.mark?_eq other hother, ofNames_inj hplace hother,
        ofNames_inj habove hother, Function.update_apply, cons_eq_cons_iff]
      by_cases hin : name :: above = other
      · subst hin
        rw [if_pos (.inl rfl), hdeletable.2.2 others]
        exact (ite_self _).symm
      · simp only [hin, false_or]

/-! ### Every call -/

theorem Represents.answer_build (h : tree.Represents files) (hpath : IsCanonical path)
    (hkeeps : isDir = false → ¬ tree.Opens path) :
    ∃ changed, Serves files (.build path isDir) (tree.answer (.build path isDir)).1 changed ∧
      (tree.answer (.build path isDir)).2.Represents changed := by
  have hplace := isName_namesOf path
  have hfree : isDir = false → files.node (namesOf path) ≠ some true := by
    intro hfile
    rw [ne_eq, ← h.opens_iff _ hplace, ofNames_namesOf hpath]
    exact hkeeps hfile
  have hinsert := h.insert hplace hfree
  rw [ofNames_namesOf hpath] at hinsert
  rw [MemoryTree.answer_build]
  dsimp only
  exact ⟨_, .built hfree, hinsert⟩

theorem Represents.answer_create (h : tree.Represents files) (hpath : IsCanonical path)
    (isDir : Bool) :
    ∃ changed, Serves files (.create path isDir) (tree.answer (.create path isDir)).1 changed ∧
      (tree.answer (.create path isDir)).2.Represents changed := by
  have hplace := isName_namesOf path
  have hnames := ofNames_namesOf hpath
  have hcreatable := h.creatable_iff hplace
  rw [hnames] at hcreatable
  rcases create_cases tree path isDir with
    ⟨directory, name, hsits, hopens, hfree, hanswer⟩ | ⟨hnot, error, hanswer⟩
  · rw [hpath.normalize] at hsits hanswer
    have hadd := hcreatable.mp ⟨directory, name, hsits, hopens, hfree⟩
    have hadded : (tree.added directory name (ofNames (namesOf path)) isDir).Represents
        (files.add (namesOf path) isDir hadd) := h.added hplace hadd (by rwa [hnames])
    rw [hnames] at hadded
    rw [hanswer]
    exact ⟨_, .created hadd, hadded⟩
  · rw [hpath.normalize, hcreatable] at hnot
    rw [hanswer]
    exact ⟨_, .notCreated hnot error, h⟩

theorem Represents.answer_delete (h : tree.Represents files) (hpath : IsCanonical path) :
    ∃ changed, Serves files (.delete path) (tree.answer (.delete path)).1 changed ∧
      (tree.answer (.delete path)).2.Represents changed := by
  have hplace := isName_namesOf path
  have hnames := ofNames_namesOf hpath
  have hdeletable := h.deletable_iff hplace
  rw [hnames] at hdeletable
  rcases delete_cases tree path with
    ⟨directory, name, hsits, hthere, hempty, hanswer⟩ | ⟨hnot, error, hanswer⟩
  · rw [hpath.normalize] at hsits hempty hanswer
    have hremove := hdeletable.mp ⟨⟨directory, name, hsits, hthere⟩, hempty⟩
    have hunlinked := h.unlink hplace hremove (by rwa [hnames])
    rw [hnames] at hunlinked
    rw [hanswer]
    exact ⟨_, .deleted hremove, hunlinked⟩
  · rw [hpath.normalize, hdeletable] at hnot
    rw [hanswer]
    exact ⟨_, .notDeleted hnot error, h⟩

theorem Represents.answer_list (h : tree.Represents files) (hpath : IsCanonical path) :
    Serves files (.list path) (tree.answer (.list path)).1 files := by
  have hplace := isName_namesOf path
  have hnormal := hpath.normalize
  have hopens := h.opens_iff _ hplace
  have hmark := h.mark?_eq _ hplace
  rw [ofNames_namesOf hpath] at hopens hmark
  rw [MemoryTree.answer_list]
  by_cases hdirectory : tree.Opens path
  · rw [← hnormal] at hdirectory
    obtain ⟨entries, hlist, hsorted, hentries⟩ := exists_entries h.proper hdirectory
    rw [hnormal] at hdirectory hentries
    rw [hlist]
    refine .listed (hopens.mp hdirectory) hsorted fun entry ↦ ?_
    rw [hentries, hmark]
  · rw [hopens] at hdirectory
    rw [list_of_not_opens (by rwa [hnormal, hopens])]
    exact .notListed hdirectory _

theorem Represents.contains_iff (h : tree.Represents files)
    (hplace : ∀ name ∈ place, IsName name) :
    tree.contains (ofNames place) = true ↔ (files.node place).isSome = true := by
  rw [MemoryTree.contains_iff, normalize_ofNames hplace]
  cases place with
  | nil => exact iff_of_true (.inl rfl) (by rw [files.root]; rfl)
  | cons name above =>
    have hsits := sits_ofNames hplace
    rw [← h.mark?_eq above (List.forall_mem_cons.mp hplace).2]
    constructor
    · rintro (hroot | ⟨directory, other, hother, hthere⟩)
      · have hnil : name :: above = [] := (ofNames_inj hplace (by simp)).mp hroot
        cases hnil
      · obtain ⟨rfl, rfl⟩ := hother.unique hsits
        exact hthere
    · intro hthere
      exact .inr ⟨_, _, hsits, hthere⟩

theorem Represents.answer_contains (h : tree.Represents files) (hpath : IsCanonical path) :
    Serves files (.contains path) (tree.answer (.contains path)).1 files := by
  have hplace := isName_namesOf path
  have hthere : tree.contains path = (files.node (namesOf path)).isSome := by
    rw [Bool.eq_iff_iff, ← h.contains_iff hplace, ofNames_namesOf hpath]
  rw [MemoryTree.answer, hthere]
  exact .contains path

/-- Every call of a tree is answered as by the file tree that it represents. -/
theorem Represents.answer (h : tree.Represents files) {call : TreeCall}
    (hcanonical : ∀ path ∈ call.path?, IsCanonical path)
    (hkeeps : ∀ path, call = .build path false → ¬ tree.Opens path) :
    ∃ changed, Serves files call (tree.answer call).1 changed ∧
      (tree.answer call).2.Represents changed := by
  cases call with
  | withHome home =>
    rw [answer_withHome]
    exact ⟨files, .withHome home, h.withHome home⟩
  | build path isDir =>
    apply h.answer_build (hcanonical path rfl)
    rintro rfl
    exact hkeeps path rfl
  | create path isDir => exact h.answer_create (hcanonical path rfl) isDir
  | delete path => exact h.answer_delete (hcanonical path rfl)
  | list path =>
    refine ⟨files, h.answer_list (hcanonical path rfl), ?_⟩
    rw [MemoryTree.answer_list]
    exact h
  | contains path => exact ⟨files, h.answer_contains (hcanonical path rfl), h⟩

/-- Whether no call of a builder puts a file where the tree has a directory by then. -/
def keepsDirectories (tree : MemoryTree) : List TreeCall → Bool
  | [] => true
  | call :: calls =>
    (match call with
      | .build path false => !(tree.list path).isOk
      | _ => true) && keepsDirectories (tree.answer call).2 calls

theorem not_opens_of_keepsDirectories {call : TreeCall} {calls : List TreeCall}
    (hcanonical : ∀ path ∈ call.path?, IsCanonical path)
    (hkeeps : tree.keepsDirectories (call :: calls) = true) :
    ∀ path, call = .build path false → ¬ tree.Opens path := by
  rintro path rfl hopens
  rw [← (hcanonical path rfl).normalize, ← isOk_list_iff] at hopens
  simp [keepsDirectories, hopens] at hkeeps

theorem Represents.dialogue (h : tree.Represents files) {calls : List TreeCall}
    (hcanonical : ∀ call ∈ calls, ∀ path ∈ call.path?, IsCanonical path)
    (hkeeps : tree.keepsDirectories calls = true) :
    ∃ last, Dialogue files (calls.zip (tree.replies calls)) last ∧
      (tree.after calls).Represents last := by
  induction calls generalizing tree files with
  | nil => exact ⟨files, .ended files, h⟩
  | cons call calls ih =>
    obtain ⟨hcall, hcalls⟩ := List.forall_mem_cons.mp hcanonical
    obtain ⟨changed, hserves, hchanged⟩ :=
      h.answer hcall (not_opens_of_keepsDirectories hcall hkeeps)
    obtain ⟨last, hrest, hlast⟩ := ih hchanged hcalls (Bool.and_eq_true_iff.mp hkeeps).2
    exact ⟨last, .served hserves hrest, hlast⟩

/-- On canonical paths, a tree in memory answers every call as a file tree does, from the bare root
on, as long as its builder puts no file where a directory is. A call that fails leaves it alone. -/
theorem refines_file_tree (title : String) (calls : List TreeCall)
    (hcanonical : ∀ call ∈ calls, ∀ path ∈ call.path?, IsCanonical path)
    (hkeeps : (empty title).keepsDirectories calls = true) :
    (∃ files, Dialogue .bare (calls.zip ((empty title).replies calls)) files ∧
      ((empty title).after calls).Represents files) ∧
    ∀ earlier call later error, calls = earlier ++ call :: later →
      (((empty title).after earlier).answer call).1 = .reply (.failed error) →
      (((empty title).after earlier).answer call).2 = (empty title).after earlier := by
  constructor
  · exact (empty_represents title).dialogue hcanonical hkeeps
  · intro earlier call later error _ hfailed
    exact answer_of_failed hfailed

theorem refines_file_tree_notes :
    let calls : List TreeCall :=
      [.build "/notes/today" false, .create "/notes/old" true, .create "/notes" true,
        .delete "/notes", .delete "/notes/old", .contains "/notes/old"]
    (∀ call ∈ calls, ∀ path ∈ call.path?, IsCanonical path) ∧
    (empty "memory").keepsDirectories calls = true ∧
    (empty "memory").replies calls =
      [.built, .reply .done, .reply (.failed (.other "/notes" "already exists")),
        .reply (.failed (.other "/notes" "directory not empty")), .reply .done, .found false] ∧
    ∃ files, Dialogue .bare (calls.zip ((empty "memory").replies calls)) files ∧
      ((empty "memory").after calls).Represents files := by
  intro calls
  have hcanonical : ∀ call ∈ calls, ∀ path ∈ call.path?, IsCanonical path := by decide +kernel
  have hkeeps : (empty "memory").keepsDirectories calls = true := by decide +kernel
  refine ⟨hcanonical, hkeeps, ?_, (refines_file_tree "memory" calls hcanonical hkeeps).1⟩
  decide +kernel

end DirectoryBrowser.MemoryTree
