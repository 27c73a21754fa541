import DirectoryBrowser.Proofs.Containment
import DirectoryBrowser.Proofs.Names

/-!
# Paths by their components

How many separators stand in a row, and how many at the ends, makes no difference
to the components of a path. What leads from a root to a path has the components
that the path has after those of the root; for canonical paths it is there
whenever the components of the path begin with those of the root.
-/

namespace DirectoryBrowser.Path

open Text

variable {root path relative : String}

theorem componentsOf_append_cons (before after : List Char) :
    componentsOf (before ++ '/' :: after) = componentsOf before ++ componentsOf after := by
  unfold componentsOf
  rw [splitOn_append_cons, List.filter_append]

theorem componentsOf_append {after : List Char} (hafter : IsRest after) (before : List Char) :
    componentsOf (before ++ after) = componentsOf before ++ componentsOf after := by
  rcases hafter with rfl | hslash
  · have hnone : componentsOf [] = [] := rfl
    rw [hnone, List.append_nil, List.append_nil]
  · obtain ⟨rest, rfl⟩ := List.head?_eq_some_iff.mp hslash
    have hrest : componentsOf ('/' :: rest) = componentsOf rest :=
      componentsOf_append_cons [] rest
    rw [componentsOf_append_cons, hrest]

theorem componentsOf_dropWhile (cs : List Char) :
    componentsOf (cs.dropWhile isSlash) = componentsOf cs := by
  induction cs with
  | nil => rfl
  | cons c cs ih =>
    by_cases hc : c = '/'
    · have hcons : componentsOf ('/' :: cs) = componentsOf cs := componentsOf_append_cons [] cs
      rw [hc, List.dropWhile_cons_of_pos (by decide), ih, hcons]
    · rw [List.dropWhile_cons_of_neg (by simpa [isSlash] using hc)]

theorem componentsOf_dropTrailing (cs : List Char) :
    componentsOf (dropTrailing isSlash cs) = componentsOf cs := by
  induction cs using List.reverseRecOn with
  | nil => rfl
  | append_singleton cs c ih =>
    by_cases hc : c = '/'
    · have hnone : dropTrailing isSlash [c] = [] := by simp [dropTrailing, isSlash, hc]
      have hempty : componentsOf [] = [] := rfl
      rw [dropTrailing_append, if_pos hnone, ih, hc, componentsOf_append_cons, hempty,
        List.append_nil]
    · have hkept : dropTrailing isSlash [c] = [c] := by simp [dropTrailing, isSlash, hc]
      rw [dropTrailing_append, hkept, if_neg (List.cons_ne_nil _ _)]

theorem componentsOf_trimBoth (cs : List Char) :
    componentsOf (trimBoth isSlash cs) = componentsOf cs := by
  unfold trimBoth
  rw [componentsOf_dropTrailing, componentsOf_dropWhile]

/-- What leads to a path has those of its components that come after the root. -/
theorem componentsOf_relativeTo? (h : relativeTo? root path = some relative) :
    componentsOf path.toList = componentsOf root.toList ++ componentsOf relative.toList := by
  obtain ⟨chars, hchars, rfl⟩ := Option.map_eq_some_iff.mp h
  rw [String.toList_ofList, ← componentsOf_dropTrailing root.toList]
  unfold relativeChars? at hchars
  generalize dropTrailing isSlash root.toList = base at hchars ⊢
  cases hcut : dropStart? base path.toList with
  | none => simp [hcut] at hchars
  | some rest =>
    rw [dropStart?_eq_some_iff.mp hcut]
    cases rest with
    | nil =>
      obtain rfl : [] = chars := by simpa [hcut] using hchars
      exact componentsOf_append (Or.inl rfl) base
    | cons c rest =>
      simp only [hcut, List.head?_cons, Bool.or_eq_true, List.isEmpty_iff, beq_iff_eq,
        Option.some.injEq, Option.ite_none_right_eq_some] at hchars
      obtain ⟨hbegins, rfl⟩ := hchars
      rw [componentsOf_trimBoth]
      rcases hbegins with rfl | rfl
      · rfl
      · exact componentsOf_append (Or.inr rfl) base

/-! ### Canonical paths -/

theorem namesOf_of_append {below : List (List Char)}
    (h : componentsOf path.toList = componentsOf root.toList ++ below) :
    namesOf path = (below.map String.ofList).reverse ++ namesOf root := by
  unfold namesOf
  rw [h, List.reverse_append, List.map_append, List.map_reverse]

/-- A name joined to a directory comes before those on the way up from there. -/
theorem namesOf_join (base : String) {name : String} (hname : IsName name) :
    namesOf (join base name) = name :: namesOf base := by
  have hsingle : componentsOf name.toList = [name.toList] := by
    rw [componentsOf, splitOn_of_notMem hname.2]
    simp [hname.1]
  have hbelow : componentsOf (join base name).toList =
      componentsOf base.toList ++ [name.toList] := by
    rw [toList_join base hname, componentsOf_append_cons, componentsOf_dropTrailing, hsingle]
  rw [namesOf_of_append hbelow]
  simp

theorem isAbsolute_ofNames (names : List String) : IsAbsolute (ofNames names) := by
  induction names with
  | nil => rfl
  | cons name names ih => exact ih.join name

theorem IsCanonical.isAbsolute (hpath : IsCanonical path) : IsAbsolute path := by
  rw [← ofNames_namesOf hpath]
  exact isAbsolute_ofNames _

theorem IsCanonical.dropTrailing_eq (hpath : IsCanonical path) :
    dropTrailing isSlash path.toList = (componentsOf path.toList).flatMap ('/' :: ·) := by
  have hnames := dropTrailing_ofNames (isName_namesOf path)
  rw [ofNames_namesOf hpath] at hnames
  rw [hnames]
  simp [namesOf, ← List.map_reverse, List.flatMap_map]

/-- A canonical path lies in another one if its components begin with those of the other. -/
theorem IsCanonical.isUnder_iff (hroot : IsCanonical root) (hpath : IsCanonical path) :
    isUnder root path = true ↔ componentsOf root.toList <+: componentsOf path.toList := by
  constructor
  · intro hunder
    obtain ⟨relative, hrelative⟩ := Option.isSome_iff_exists.mp hunder
    exact ⟨_, (componentsOf_relativeTo? hrelative).symm⟩
  · rintro ⟨below, hbelow⟩
    have hrest : IsRest (below.flatMap ('/' :: ·)) := by
      cases below with
      | nil => exact Or.inl rfl
      | cons name below => exact Or.inr rfl
    have htrimmed : dropTrailing isSlash path.toList =
        dropTrailing isSlash root.toList ++ below.flatMap ('/' :: ·) := by
      rw [hpath.dropTrailing_eq, hroot.dropTrailing_eq, ← hbelow, List.flatMap_append]
    have hlies : LiesIn root (normalize
        (String.ofList (dropTrailing isSlash root.toList ++ below.flatMap ('/' :: ·)))) :=
      (liesIn_of_append hrest).normalize
    rw [← htrimmed] at hlies
    have hsame : normalize (String.ofList (dropTrailing isSlash path.toList)) = path := by
      rw [← hpath.normalize, normalize_eq_iff, String.toList_ofList, dropTrailing_dropTrailing,
        hpath.normalize]
    rw [hsame] at hlies
    exact (isUnder_iff_liesIn hpath.isAbsolute).mpr hlies

/-- What leads to a canonical path that lies in a root, by its components. -/
theorem IsCanonical.exists_relativeTo? (hroot : IsCanonical root) (hpath : IsCanonical path)
    {below : List (List Char)}
    (hbelow : componentsOf path.toList = componentsOf root.toList ++ below) :
    ∃ relative, relativeTo? root path = some relative ∧ componentsOf relative.toList = below := by
  obtain ⟨relative, hrelative⟩ :=
    Option.isSome_iff_exists.mp ((hroot.isUnder_iff hpath).mpr ⟨below, hbelow.symm⟩)
  exact ⟨relative, hrelative,
    List.append_cancel_left ((componentsOf_relativeTo? hrelative).symm.trans hbelow)⟩

end DirectoryBrowser.Path
