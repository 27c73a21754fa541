import DirectoryBrowser.Entry
import DirectoryBrowser.Proofs.Components

/-!
# Joining and leading back

What is joined to a directory leads back from the path to the directory, whatever
the directory is written like. Between canonical paths there is only one relative
path that leads from one down to the other, if there is any: its parts are those that
the longer path has after those of the shorter one, and joining it leads there.
-/

namespace DirectoryBrowser.Path

open Text

variable {base name root path relative : String} {names below : List (List Char)}

/-! ### Names joined to a directory -/

theorem trimBoth_eq_self {cs : List Char} (hhead : cs.head? ≠ some '/')
    (hlast : cs.getLast? ≠ some '/') : trimBoth isSlash cs = cs := by
  rw [trimBoth, dropWhile_eq_self hhead, dropTrailing_eq_self hlast]

/-- What follows the root in a path leads to it, without the separators around. -/
theorem relativeChars?_append (root rest : List Char) :
    relativeChars? root (dropTrailing isSlash root ++ '/' :: rest) =
      some (trimBoth isSlash rest) := by
  have hcut : dropStart? (dropTrailing isSlash root) (dropTrailing isSlash root ++ '/' :: rest) =
      some ('/' :: rest) := dropStart?_eq_some_iff.mpr rfl
  unfold relativeChars?
  dsimp only
  rw [hcut]
  simp [trimBoth, isSlash]

theorem relativeChars?_self (root : List Char) :
    relativeChars? root (dropTrailing isSlash root) = some [] := by
  have hcut : dropStart? (dropTrailing isSlash root) (dropTrailing isSlash root) = some [] :=
    dropStart?_eq_some_iff.mpr (List.append_nil _).symm
  unfold relativeChars?
  dsimp only
  rw [hcut]

/-- A name leads from a directory to what it is joined to. -/
theorem relativeTo?_join (base : String) (hname : IsName name) :
    relativeTo? base (join base name) = some name := by
  have htrim : trimBoth isSlash name.toList = name.toList :=
    trimBoth_eq_self (fun hhead ↦ hname.2 (List.mem_of_head? hhead))
      fun hlast ↦ hname.2 (List.mem_of_getLast? hlast)
  rw [relativeTo?, toList_join base hname, relativeChars?_append, htrim, Option.map_some,
    String.ofList_toList]

theorem toList_of_normalize (h : normalize path = path) : path.toList =
    if dropTrailing isSlash path.toList = [] then ['/'] else dropTrailing isSlash path.toList := by
  have hchars := congrArg String.toList h
  unfold normalize at hchars
  rw [String.toList_ofList, normalizeChars_eq] at hchars
  exact hchars.symm

/-- An entry of a directory in normal form is called what its name joined to it is. -/
theorem fullName_eq_join {entry : Entry} (hbase : normalize base = base)
    (hname : IsName entry.name) :
    (QualifiedEntry.mk base entry).fullName = join base entry.name := by
  have hchars := toList_of_normalize hbase
  rw [← String.toList_inj, toList_join base hname, QualifiedEntry.fullName]
  split at hchars
  case isTrue hroot =>
    rw [hroot]
    simp [hchars]
  case isFalse hne =>
    have hlast : base.toList.getLast? ≠ some '/' := by
      rw [hchars]
      exact fun hslash ↦ absurd (of_getLast?_dropTrailing hslash) (by decide)
    have hempty : base ≠ "" := by
      rintro rfl
      exact hne rfl
    rw [← hchars]
    simp [hlast, hempty]

/-! ### Names that lead down a canonical path -/

/-- The parts between the separators of a path, empty ones too. A separator in front is none
between parts. -/
def partsOf (path : String) : List (List Char) :=
  let below := (dropStart? ['/'] path.toList).getD path.toList
  if below = [] then [] else splitOn '/' below

theorem partsOf_of_relative (h : path.toList.head? ≠ some '/') :
    partsOf path = if path.toList = [] then [] else splitOn '/' path.toList := by
  have hcut : dropStart? ['/'] path.toList = none := by
    cases hpath : path.toList with
    | nil => rfl
    | cons c cs =>
      rw [hpath] at h
      rw [dropStart?, if_neg fun heq ↦ h (congrArg some heq.symm)]
  rw [partsOf, hcut, Option.getD_none]

theorem joinWith_partsOf (h : path.toList.head? ≠ some '/') :
    joinWith ['/'] (partsOf path) = path.toList := by
  rw [partsOf_of_relative h]
  split
  case isTrue hnil => exact hnil.symm
  case isFalse => exact joinWith_splitOn '/' _

theorem IsCanonical.partsOf_eq (hpath : IsCanonical path) :
    partsOf path = componentsOf path.toList := by
  rcases hpath with rfl | ⟨habsolute, hpieces⟩
  · rfl
  · obtain ⟨rest, hrest⟩ := List.head?_eq_some_iff.mp habsolute
    rw [hrest, splitOn, if_pos rfl, List.tail_cons] at hpieces
    have hne : rest ≠ [] := by
      rintro rfl
      exact hpieces List.mem_cons_self
    rw [hrest, componentsOf_of_notMem hpieces, partsOf, hrest]
    exact if_neg hne

theorem relativeTo?_self (h : normalize path = path) : relativeTo? path path = some "" := by
  have hchars := toList_of_normalize h
  have hnone : relativeChars? path.toList path.toList = some [] := by
    split at hchars
    case isTrue hroot =>
      rw [hchars]
      rfl
    case isFalse =>
      have hself := relativeChars?_self path.toList
      rwa [← hchars] at hself
  rw [relativeTo?, hnone]
  rfl

/-- What leads down to a canonical path is what it has after the root. -/
theorem IsCanonical.relativeTo?_of_componentsOf (hroot : IsCanonical root)
    (hpath : IsCanonical path)
    (hbelow : componentsOf path.toList = componentsOf root.toList ++ below) :
    relativeTo? root path = some (String.ofList (joinWith ['/'] below)) ∧
      join root (String.ofList (joinWith ['/'] below)) = path := by
  have htrimmed : dropTrailing isSlash path.toList =
      dropTrailing isSlash root.toList ++ below.flatMap ('/' :: ·) := by
    rw [hpath.dropTrailing_eq, hroot.dropTrailing_eq, hbelow, List.flatMap_append]
  by_cases hnil : below = []
  · subst hnil
    rw [List.flatMap_nil, List.append_nil] at htrimmed
    have hsame : root = path := by
      rw [← hroot.normalize, ← hpath.normalize, normalize_eq_iff, htrimmed]
    subst hsame
    exact ⟨relativeTo?_self hroot.normalize, hroot.normalize⟩
  · rw [flatMap_eq_joinWith '/' hnil] at htrimmed
    have hchars := toList_of_normalize hpath.normalize
    rw [htrimmed, if_neg (by simp)] at hchars
    have hends : ∀ name ∈ below, name ≠ [] ∧ '/' ∉ name := fun name hmem ↦
      of_mem_componentsOf (hbelow ▸ List.mem_append_right _ hmem)
    obtain ⟨hhead, hlast⟩ := joinWith_ends hends
    constructor
    · rw [relativeTo?, hchars, relativeChars?_append, trimBoth_eq_self hhead hlast,
        Option.map_some]
    · rw [← String.toList_inj, join, String.toList_ofList, String.toList_ofList, joinChars_eq,
        dropWhile_eq_self hhead, if_neg (joinWith_ne_nil hnil fun name hmem ↦ (hends name hmem).1),
        hchars]

theorem partsOf_joinWith (h : ∀ name ∈ names, name ≠ [] ∧ '/' ∉ name) :
    partsOf (String.ofList (joinWith ['/'] names)) = names := by
  have hhead : (String.ofList (joinWith ['/'] names)).toList.head? ≠ some '/' := by
    rw [String.toList_ofList]
    exact (joinWith_ends h).1
  rw [partsOf_of_relative hhead, String.toList_ofList]
  by_cases hnil : names = []
  · subst hnil
    rfl
  · rw [if_neg (joinWith_ne_nil hnil fun name hname ↦ (h name hname).1),
      splitOn_joinWith hnil fun name hname ↦ (h name hname).2]

/-- The parts of what leads down are those that the path has after the root. It has no separators
at its ends, so there is one text only that has these parts. -/
theorem IsCanonical.relativeTo?_eq_some_iff (hroot : IsCanonical root) (hpath : IsCanonical path) :
    relativeTo? root path = some relative ↔
      partsOf path = partsOf root ++ partsOf relative ∧
        relative.toList.head? ≠ some '/' ∧ relative.toList.getLast? ≠ some '/' := by
  rw [hroot.partsOf_eq, hpath.partsOf_eq]
  constructor
  · intro hrelative
    have hbelow := componentsOf_relativeTo? hrelative
    have hwritten : relative = String.ofList (joinWith ['/'] (componentsOf relative.toList)) :=
      Option.some.inj (hrelative.symm.trans (hroot.relativeTo?_of_componentsOf hpath hbelow).1)
    have hnames : ∀ name ∈ componentsOf relative.toList, name ≠ [] ∧ '/' ∉ name := fun _ hname ↦
      of_mem_componentsOf hname
    have hends := joinWith_ends hnames
    have hparts := partsOf_joinWith hnames
    rw [← String.toList_ofList (l := joinWith _ _), ← hwritten] at hends
    rw [← hwritten] at hparts
    exact ⟨by rw [hparts, hbelow], hends⟩
  · rintro ⟨hbelow, hhead, -⟩
    obtain ⟨hleads, -⟩ := hroot.relativeTo?_of_componentsOf hpath hbelow
    rwa [joinWith_partsOf hhead, String.ofList_toList] at hleads

theorem IsCanonical.join_of_relativeTo? (hroot : IsCanonical root) (hpath : IsCanonical path)
    (hrelative : relativeTo? root path = some relative) : join root relative = path := by
  obtain ⟨hleads, hjoin⟩ :=
    hroot.relativeTo?_of_componentsOf hpath (componentsOf_relativeTo? hrelative)
  rwa [← Option.some.inj (hrelative.symm.trans hleads)] at hjoin

theorem IsCanonical.relativeTo?_eq_none_iff (hroot : IsCanonical root) (hpath : IsCanonical path) :
    relativeTo? root path = none ↔ ¬ partsOf root <+: partsOf path := by
  rw [hroot.partsOf_eq, hpath.partsOf_eq, ← hroot.isUnder_iff hpath, isUnder,
    Option.not_isSome_iff_eq_none]

/-- Joining, normalizing, going up and leading down agree with each other. This is so of a name
that is joined to any base, and of all canonical paths, whether one of them lies in the other or
not. -/
theorem join_leads_back :
    (∀ base name : String, IsName name →
      normalize (join base name) = join base name ∧
        parent? (join base name) = some (normalize base) ∧
        relativeTo? base (join base name) = some name ∧
        ∀ entry : Entry, entry.name = name → normalize base = base →
          (QualifiedEntry.mk base entry).fullName = join base name) ∧
      ∀ root path : String, IsCanonical root → IsCanonical path →
        (∀ relative : String, relativeTo? root path = some relative ↔
          partsOf path = partsOf root ++ partsOf relative ∧
            relative.toList.head? ≠ some '/' ∧ relative.toList.getLast? ≠ some '/') ∧
        (∀ relative : String, relativeTo? root path = some relative → join root relative = path) ∧
        (relativeTo? root path = none ↔ ¬ partsOf root <+: partsOf path) := by
  constructor
  · intro base name hname
    have hsits := sits_join base hname
    refine ⟨hsits.normalize, hsits.parent, relativeTo?_join base hname, ?_⟩
    rintro entry rfl hbase
    exact fullName_eq_join hbase hname
  · intro root path hroot hpath
    exact ⟨fun relative ↦ hroot.relativeTo?_eq_some_iff hpath,
      fun relative ↦ hroot.join_of_relativeTo? hpath, hroot.relativeTo?_eq_none_iff hpath⟩

/-- A name joined to a directory with separators at its end, a file in a directory without them, a
path two names down, and one that only begins with the same letters. -/
theorem join_leads_back_data :
    IsName "a" ∧ parent? (join "/data//" "a") = some "/data" ∧
      normalize "/data" = "/data" ∧
      (QualifiedEntry.mk "/data" ⟨"a", false, none⟩).fullName = join "/data" "a" ∧
      IsCanonical "/data" ∧ IsCanonical "/data/a/b" ∧ IsCanonical "/data2" ∧
      relativeTo? "/data" "/data/a/b" = some "a/b" ∧ join "/data" "a/b" = "/data/a/b" ∧
      relativeTo? "/data" "/data2" = none := by
  have hname : IsName "a" := by decide
  have hroot : IsCanonical "/data" := by decide
  have hpath : IsCanonical "/data/a/b" := by decide
  have hother : IsCanonical "/data2" := by decide
  obtain ⟨hjoined, hpaths⟩ := join_leads_back
  obtain ⟨-, -, -, hfull⟩ := hjoined "/data" "a" hname
  obtain ⟨hbelow, hback, -⟩ := hpaths _ _ hroot hpath
  have hleads : relativeTo? "/data" "/data/a/b" = some "a/b" := (hbelow "a/b").mpr (by decide)
  exact ⟨hname, (hjoined "/data//" "a" hname).2.1, hroot.normalize,
    hfull ⟨"a", false, none⟩ rfl hroot.normalize, hroot, hpath, hother, hleads,
    hback _ hleads, (hpaths _ _ hroot hother).2.2.mpr (by decide)⟩

end DirectoryBrowser.Path
