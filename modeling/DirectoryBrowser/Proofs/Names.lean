import DirectoryBrowser.Proofs.Paths
import DirectoryBrowser.Proofs.Text.Cutting

/-!
# Names at the end of paths

A path sits in a directory under a name when it can be cut at its last separator
into both. Cutting undoes joining, whatever the base of the join. The other way
round it does not hold: a directory that itself ends in a separator is not what a
join starts from. Canonical paths are those that are joined from the root, one
name after the other, and each of them is joined in one way only.
-/

namespace DirectoryBrowser.Path

open Text

/-- What can be the name of an entry. -/
def IsName (name : String) : Prop := name ≠ "" ∧ '/' ∉ name.toList

instance (name : String) : Decidable (IsName name) :=
  inferInstanceAs (Decidable (name ≠ "" ∧ '/' ∉ name.toList))

theorem IsName.toList_ne_nil {name : String} (h : IsName name) : name.toList ≠ [] :=
  mt String.toList_eq_nil_iff.mp h.1

theorem dropWhile_eq_self {cs : List Char} (h : cs.head? ≠ some '/') :
    cs.dropWhile isSlash = cs :=
  dropWhile_of_head? fun _ hc ↦ beq_eq_false_iff_ne.mpr fun heq ↦ h (heq ▸ hc)

theorem dropTrailing_eq_self {cs : List Char} (h : cs.getLast? ≠ some '/') :
    dropTrailing isSlash cs = cs :=
  dropTrailing_of_getLast? fun _ hc ↦ beq_eq_false_iff_ne.mpr fun heq ↦ h (heq ▸ hc)

/-- Where a path ends in a name there is nothing to trim. -/
theorem dropTrailing_append_name (above : List Char) {name : String} (hname : IsName name) :
    dropTrailing isSlash (above ++ '/' :: name.toList) = above ++ '/' :: name.toList :=
  dropTrailing_eq_self (getLast?_append_cons_ne above hname.toList_ne_nil hname.2)

theorem normalizeChars_append_name (above : List Char) {name : String} (hname : IsName name) :
    normalizeChars (above ++ '/' :: name.toList) = above ++ '/' :: name.toList := by
  unfold normalizeChars
  rw [dropTrailing_append_name above hname]
  split
  case h_1 hnil => simp at hnil
  case h_2 => rfl

/-- The path is cut at its last separator into the directory above it and its own name. -/
structure Sits (path directory name : String) : Prop where
  parent : parent? path = some directory
  lastName : lastName? path = some name

variable {path directory name : String}

theorem sits_of_toList {above : List Char} (hname : IsName name)
    (hpath : path.toList = above ++ '/' :: name.toList) :
    Sits path (if above = [] then "/" else String.ofList above) name where
  parent := by
    have hcut : cutLast? '/' path.toList = some (above, name.toList) := by
      rw [hpath, cutLast?_append above hname.2]
    have hroot : path.toList ≠ ['/'] := by
      intro hroot
      have hlength := congrArg List.length (hpath.symm.trans hroot)
      have hpos := List.length_pos_iff.mpr hname.toList_ne_nil
      simp at hlength
      omega
    unfold parent? parentChars?
    rw [hpath, normalizeChars_append_name above hname, ← hpath]
    simp only [hcut, beq_iff_eq, hroot, if_false]
    cases above <;> rfl
  lastName := by
    have hcut : cutLast? '/' path.toList = some (above, name.toList) := by
      rw [hpath, cutLast?_append above hname.2]
    unfold lastName?
    rw [hcut]
    simp [hname.toList_ne_nil]

/-- A bare name has nothing above it. -/
theorem parent?_eq_none (hbare : '/' ∉ path.toList) : parent? path = none := by
  have hbegins := dropTrailing_prefix isSlash path.toList
  have htrimmed : '/' ∉ dropTrailing isSlash path.toList := fun hmem ↦ hbare (hbegins.subset hmem)
  unfold parent? parentChars? normalizeChars
  cases hcs : dropTrailing isSlash path.toList with
  | nil => rfl
  | cons c cs =>
    rw [hcs] at htrimmed
    simp [cutLast?_eq_none_iff.mpr htrimmed]

namespace Sits

theorem unique {other others : String} (h : Sits path directory name) (hother : Sits path other others) :
    directory = other ∧ name = others :=
  ⟨Option.some.inj (h.parent.symm.trans hother.parent),
    Option.some.inj (h.lastName.symm.trans hother.lastName)⟩

/-- What it takes for a path to sit somewhere. -/
theorem exists_above (h : Sits path directory name) :
    IsName name ∧ ∃ above, path.toList = above ++ '/' :: name.toList ∧
      directory = if above = [] then "/" else String.ofList above := by
  cases hcut : cutLast? '/' path.toList with
  | none =>
    have hnone := parent?_eq_none (cutLast?_eq_none_iff.mp hcut)
    rw [h.parent] at hnone
    cases hnone
  | some cut =>
    obtain ⟨above, last⟩ := cut
    obtain ⟨hpath, hlast⟩ := eq_of_cutLast? hcut
    have hlastName := h.lastName
    unfold lastName? at hlastName
    rw [hcut] at hlastName
    have hsome : last ≠ [] ∧ name = String.ofList last := by
      cases last <;> simp_all
    obtain ⟨hne, rfl⟩ := hsome
    have hname : IsName (String.ofList last) := ⟨by simpa using hne, by simpa using hlast⟩
    rw [← String.toList_ofList (l := last)] at hpath
    exact ⟨hname, above, hpath, (h.unique (sits_of_toList hname hpath)).1⟩

protected theorem isName (h : Sits path directory name) : IsName name := h.exists_above.1

protected theorem normalize (h : Sits path directory name) : normalize path = path := by
  obtain ⟨hname, above, hpath, -⟩ := h.exists_above
  rw [Path.normalize, hpath, normalizeChars_append_name above hname, ← hpath, String.ofList_toList]

theorem length_lt (h : Sits path directory name) : directory.length < path.length := by
  obtain ⟨hname, above, hpath, rfl⟩ := h.exists_above
  have hpos := List.length_pos_iff.mpr hname.toList_ne_nil
  rw [← String.length_toList, ← String.length_toList, hpath]
  split
  case isTrue habove =>
    subst habove
    simpa using hpos
  case isFalse => simp

end Sits

/-- Joining a name to a directory gives a path that sits in it, however the directory is written. -/
theorem toList_join (base : String) (hname : IsName name) :
    (join base name).toList = dropTrailing isSlash base.toList ++ '/' :: name.toList := by
  have hdrop : name.toList.dropWhile isSlash = name.toList :=
    dropWhile_eq_self fun hhead ↦ hname.2 (List.mem_of_head? hhead)
  rw [join, String.toList_ofList, joinChars, hdrop]
  split
  case h_1 hnil => exact absurd hnil hname.toList_ne_nil
  case h_2 =>
    split
    case isTrue hroot =>
      have hbase : base.toList = [] ∨ base.toList = ['/'] := by simpa using hroot
      rcases hbase with hbase | hbase <;> rw [hbase] <;> rfl
    case isFalse => rfl

theorem sits_join (base : String) (hname : IsName name) :
    Sits (join base name) (normalize base) name := by
  have hsits := sits_of_toList hname (toList_join base hname)
  have hbase : (if dropTrailing isSlash base.toList = [] then "/"
      else String.ofList (dropTrailing isSlash base.toList)) = normalize base := by
    unfold normalize normalizeChars
    cases dropTrailing isSlash base.toList <;> rfl
  rwa [hbase] at hsits

/-! ### Canonical paths -/

/-- A path with a separator before each of its names, and none at its end. -/
def IsCanonical (path : String) : Prop :=
  path = "/" ∨ IsAbsolute path ∧ [] ∉ (splitOn '/' path.toList).tail

instance (path : String) : Decidable (IsCanonical path) :=
  inferInstanceAs (Decidable (path = "/" ∨ IsAbsolute path ∧ [] ∉ (splitOn '/' path.toList).tail))

/-- The names on the way from a path up to the root. -/
def namesOf (path : String) : List String :=
  (componentsOf path.toList).reverse.map String.ofList

/-- The path that is reached from the root by names, the last of which comes first. -/
def ofNames : List String → String
  | [] => "/"
  | name :: names => join (ofNames names) name

variable {names others : List String}

theorem of_mem_componentsOf {cs chars : List Char} (h : chars ∈ componentsOf cs) :
    chars ≠ [] ∧ '/' ∉ chars := by
  obtain ⟨hpiece, hempty⟩ := List.mem_filter.mp h
  exact ⟨by simpa using hempty, notMem_of_mem_splitOn hpiece⟩

theorem isName_namesOf (path : String) : ∀ name ∈ namesOf path, IsName name := by
  intro name hname
  obtain ⟨chars, hchars, rfl⟩ := List.mem_map.mp hname
  obtain ⟨hne, hslash⟩ := of_mem_componentsOf (List.mem_reverse.mp hchars)
  exact ⟨by simpa using hne, by simpa using hslash⟩

theorem dropTrailing_ofNames (hnames : ∀ name ∈ names, IsName name) :
    dropTrailing isSlash (ofNames names).toList =
      names.reverse.flatMap fun name ↦ '/' :: name.toList := by
  induction names with
  | nil => rfl
  | cons name names ih =>
    obtain ⟨hname, hrest⟩ := List.forall_mem_cons.mp hnames
    rw [ofNames, toList_join _ hname, dropTrailing_append_name _ hname, ih hrest,
      List.reverse_cons, List.flatMap_append, List.flatMap_singleton]

theorem toList_ofNames (hnames : ∀ name ∈ names, IsName name) (hne : names ≠ []) :
    (ofNames names).toList = names.reverse.flatMap fun name ↦ '/' :: name.toList := by
  rw [← dropTrailing_ofNames hnames]
  cases names with
  | nil => exact absurd rfl hne
  | cons name names =>
    have hname := hnames name List.mem_cons_self
    rw [ofNames, toList_join _ hname, dropTrailing_append_name _ hname]

theorem normalize_ofNames (hnames : ∀ name ∈ names, IsName name) :
    normalize (ofNames names) = ofNames names := by
  cases names with
  | nil => rfl
  | cons name names =>
    rw [ofNames]
    exact (sits_join _ (hnames name List.mem_cons_self)).normalize

theorem sits_ofNames (hnames : ∀ other ∈ name :: names, IsName other) :
    Sits (ofNames (name :: names)) (ofNames names) name := by
  obtain ⟨hname, hrest⟩ := List.forall_mem_cons.mp hnames
  have hsits := sits_join (ofNames names) hname
  rwa [normalize_ofNames hrest] at hsits

theorem ofNames_inj (hnames : ∀ name ∈ names, IsName name) (hothers : ∀ name ∈ others, IsName name) :
    ofNames names = ofNames others ↔ names = others := by
  refine ⟨fun h ↦ ?_, congrArg ofNames⟩
  induction names generalizing others with
  | nil =>
    cases others with
    | nil => rfl
    | cons other others =>
      have hparent := (sits_ofNames hothers).parent
      rw [← h] at hparent
      cases hparent
  | cons name names ih =>
    cases others with
    | nil =>
      have hparent := (sits_ofNames hnames).parent
      rw [h] at hparent
      cases hparent
    | cons other others =>
      have hsits := sits_ofNames hnames
      rw [h] at hsits
      obtain ⟨habove, rfl⟩ := hsits.unique (sits_ofNames hothers)
      rw [ih (List.forall_mem_cons.mp hnames).2 (List.forall_mem_cons.mp hothers).2 habove]

/-- Every piece is a component where no two separators stand in a row and none at the end. -/
theorem componentsOf_of_notMem {rest : List Char} (h : [] ∉ splitOn '/' rest) :
    componentsOf ('/' :: rest) = splitOn '/' rest := by
  rw [componentsOf, splitOn, if_pos rfl, List.filter_cons_of_neg (by simp), List.filter_eq_self]
  intro piece hpiece
  cases piece with
  | nil => exact absurd hpiece h
  | cons c cs => rfl

/-- A canonical path is reached by its names. -/
theorem ofNames_namesOf (hpath : IsCanonical path) : ofNames (namesOf path) = path := by
  rcases hpath with rfl | ⟨habsolute, hpieces⟩
  · rfl
  · obtain ⟨rest, hrest⟩ := List.head?_eq_some_iff.mp habsolute
    rw [hrest, splitOn, if_pos rfl, List.tail_cons] at hpieces
    have hall : componentsOf path.toList = splitOn '/' rest := by
      rw [hrest, componentsOf_of_notMem hpieces]
    have hchars : (namesOf path).reverse.flatMap (fun name ↦ '/' :: name.toList) = path.toList :=
      calc (namesOf path).reverse.flatMap (fun name ↦ '/' :: name.toList)
          = (splitOn '/' rest).flatMap ('/' :: ·) := by
            simp [namesOf, hall, ← List.map_reverse, List.flatMap_map]
        _ = path.toList := by rw [flatMap_splitOn, hrest]
    have hne : namesOf path ≠ [] := by
      intro hnil
      rw [hnil, hrest] at hchars
      cases hchars
    rw [← String.toList_inj, toList_ofNames (isName_namesOf path) hne, hchars]

protected theorem IsCanonical.normalize (hpath : IsCanonical path) : normalize path = path := by
  have hnormal : Path.normalize (ofNames (namesOf path)) = ofNames (namesOf path) :=
    normalize_ofNames (isName_namesOf path)
  rwa [ofNames_namesOf hpath] at hnormal

/-- Wherever a canonical path sits, joining leads back to it. -/
theorem IsCanonical.eq_join (hpath : IsCanonical path) (hsits : Sits path directory name) :
    path = join directory name ∧ name ∈ namesOf path := by
  have hplace := isName_namesOf path
  have hnames := ofNames_namesOf hpath
  cases hcases : namesOf path with
  | nil =>
    rw [← hnames, hcases] at hsits
    cases hsits.parent
  | cons first above =>
    rw [hcases] at hplace hnames
    rw [← hnames] at hsits
    obtain ⟨rfl, rfl⟩ := hsits.unique (sits_ofNames hplace)
    exact ⟨hnames.symm, List.mem_cons_self⟩

end DirectoryBrowser.Path
