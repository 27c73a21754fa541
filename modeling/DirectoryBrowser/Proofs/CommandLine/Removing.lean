import DirectoryBrowser.Proofs.CommandLine.Directories
import DirectoryBrowser.Proofs.Names

/-!
# What a removal reaches

A removal joins its names to the directory that the location opens, and takes them
as they are given. Read as texts, all its paths lie in the directory. But only what
could be the name of an entry, apart from separators around it, names something
directly in it: a name with a separator inside leads further down, and one of
separators alone, or of nothing, is the directory itself.
-/

namespace DirectoryBrowser

open Text

namespace Path

variable {base name : String}

/-- A name without the separators around it. -/
def bare (name : String) : String := String.ofList (trimBoth isSlash name.toList)

/-- There is nothing but separators in a name, or it begins, after some, with another character. -/
theorem bare_cases (name : String) :
    (name.toList.dropWhile isSlash = [] ∧ bare name = "") ∨
      ∃ c rest, c ≠ '/' ∧ name.toList.dropWhile isSlash = c :: rest ∧
        (bare name).toList = c :: dropTrailing isSlash rest := by
  have hbegins := List.head?_dropWhile_not isSlash name.toList
  unfold bare trimBoth
  cases hname : name.toList.dropWhile isSlash with
  | nil => exact Or.inl ⟨rfl, rfl⟩
  | cons c rest =>
    rw [hname] at hbegins
    refine Or.inr ⟨c, rest, by simpa [isSlash] using hbegins, rfl, ?_⟩
    rw [String.toList_ofList, dropTrailing_cons_of_neg hbegins]

theorem join_of_bare_eq_empty (hname : bare name = "") : join base name = normalize base := by
  rcases bare_cases name with ⟨hnone, -⟩ | ⟨c, rest, -, -, hbare⟩
  · unfold join normalize
    rw [joinChars_eq, if_pos hnone]
  · rw [hname] at hbare
    cases hbare

/-- Up to separators at its end, a path that is joined ends in the bare name. -/
theorem dropTrailing_join (base : String) (hname : bare name ≠ "") :
    dropTrailing isSlash (join base name).toList =
      dropTrailing isSlash base.toList ++ '/' :: (bare name).toList := by
  rcases bare_cases name with ⟨-, hnone⟩ | ⟨c, rest, hc, hrest, hbare⟩
  · exact absurd hnone hname
  · have hslash : isSlash c = false := beq_eq_false_iff_ne.mpr hc
    have hends : dropTrailing isSlash ('/' :: c :: rest) = '/' :: (bare name).toList := by
      have happend := dropTrailing_append isSlash ['/'] (c :: rest)
      rw [dropTrailing_cons_of_neg hslash, if_neg (List.cons_ne_nil _ _), ← hbare] at happend
      exact happend
    unfold join
    rw [joinChars_eq, hrest, if_neg (List.cons_ne_nil _ _), String.toList_ofList,
      dropTrailing_append_rest, hends]

/-- In normal form only a lone separator ends a path. -/
theorem ne_append_of_normalize_eq (hbase : normalize base = base) {above : List Char}
    (habove : above ≠ []) : base.toList ≠ dropTrailing isSlash base.toList ++ '/' :: above := by
  intro hbelow
  have hwritten : normalizeChars base.toList = base.toList := by
    rw [← String.toList_ofList (l := normalizeChars base.toList)]
    exact congrArg String.toList hbase
  rw [normalizeChars_eq] at hwritten
  split at hwritten
  case isTrue hroot =>
    rw [hroot, ← hwritten] at hbelow
    exact habove (List.cons.inj hbelow).2.symm
  case isFalse =>
    have hlength := congrArg List.length (hwritten.trans hbelow)
    simp at hlength

theorem join_eq_self_iff (hbase : normalize base = base) :
    join base name = base ↔ bare name = "" := by
  refine ⟨fun hsame ↦ ?_, fun hname ↦ (join_of_bare_eq_empty hname).trans hbase⟩
  by_contra hname
  have hlonger := dropTrailing_join base hname
  rw [hsame] at hlonger
  simp at hlonger

/-- What is joined to a directory is directly in it if it could be the name of an entry. -/
theorem parent?_join_iff (hbase : normalize base = base) :
    parent? (join base name) = some base ↔ IsName (bare name) := by
  constructor
  · intro hparent
    have hne : bare name ≠ "" := by
      intro hempty
      refine normalize_ne_of_parent? hparent ?_
      rw [join_of_bare_eq_empty hempty, normalize_normalize]
    refine ⟨hne, fun hslash ↦ ?_⟩
    -- The path would be cut inside the name, and so end up below the directory.
    obtain ⟨⟨above, last⟩, hcut⟩ :=
      Option.ne_none_iff_exists'.mp (mt cutLast?_eq_none_iff.mp (not_not.mpr hslash))
    obtain ⟨hbare, hlast⟩ := eq_of_cutLast? hcut
    have habove : above ≠ [] := by
      rintro rfl
      rcases bare_cases name with ⟨-, hempty⟩ | ⟨c, rest, hc, -, hbegins⟩
      · exact hne hempty
      · exact hc (List.cons.inj (hbegins.symm.trans hbare)).1
    obtain ⟨front, ending, hpath, hending, hfront⟩ := exists_of_parent? hparent
    have hcuts : cutLast? '/' (dropTrailing isSlash base.toList ++ '/' :: (above ++ '/' :: last)) =
        cutLast? '/' (front ++ '/' :: ending) := by
      rw [← hpath, dropTrailing_join base hne, hbare]
    rw [← List.cons_append, ← List.append_assoc, cutLast?_append _ hlast,
      cutLast?_append _ hending] at hcuts
    obtain ⟨rfl, -⟩ := Prod.mk.inj (Option.some.inj hcuts)
    rw [if_neg (by simp)] at hfront
    refine ne_append_of_normalize_eq hbase habove ?_
    conv_lhs => rw [hfront, String.toList_ofList]
  · intro hname
    have hsame : dropTrailing isSlash (join base name).toList =
        dropTrailing isSlash (join base (bare name)).toList := by
      rw [dropTrailing_join base hname.1, toList_join base hname, dropTrailing_append_name _ hname]
    rw [parent?_congr hsame, (sits_join base hname).parent, hbase]

theorem liesIn_join (hbase : normalize base = base) (name : String) : LiesIn base (join base name) := by
  have hbelow := (liesIn_normalize_self base).join name
  rwa [hbase] at hbelow

end Path

theorem Location.normalize_of_resolve {passive : Bool} {workingDir text : String} {place : Location}
    (h : Location.resolve passive workingDir text = .ok place) :
    Path.normalize place.path = place.path := by
  rcases resolve_ok h with ⟨path, rfl⟩ | ⟨url, config, -, -, rfl⟩ | ⟨index, rfl⟩
  · exact normalize_ofDiskPath workingDir path
  · exact Path.normalize_normalize _
  · exact Path.normalize_normalize _

namespace CommandLine

variable {machine : Machine} {settings : Settings} {location : String} {place : Location}

/-- Every path that a removal is handed lies in the directory that the location opens. All of them
are directly in it if and only if each name, without the separators around it, could be the name of
an entry, and the directory itself is among them if there is a name with nothing but separators. -/
theorem removal_direct_iff (hplace : locate settings machine.workingDir location = .ok place)
    (names : List String) :
    run machine settings (.remove location names) = remove machine place names ∧
    (removalCalls machine place names).map WorkCall.path <+: removalPaths place names ∧
    (∀ path ∈ removalPaths place names, Path.LiesIn place.path path) ∧
    ((∀ path ∈ removalPaths place names,
        path ≠ place.path ∧ Path.parent? path = some place.path) ↔
      ∀ name ∈ names, Path.IsName (Path.bare name)) ∧
    (place.path ∈ removalPaths place names ↔ ∃ name ∈ names, Path.bare name = "") := by
  have hnormal : Path.normalize place.path = place.path := Location.normalize_of_resolve hplace
  have hne {path : String} (hparent : Path.parent? path = some place.path) : path ≠ place.path := by
    rintro rfl
    exact Path.normalize_ne_of_parent? hparent rfl
  refine ⟨by simp only [run, hplace], (removalCalls_below machine place names).1, ?_, ?_, ?_⟩
  · exact List.forall_mem_map.mpr fun name _ ↦ Path.liesIn_join hnormal name
  · unfold removalPaths
    rw [List.forall_mem_map]
    refine forall₂_congr fun name _ ↦ ?_
    rw [← Path.parent?_join_iff hnormal, and_iff_right_of_imp hne]
  · unfold removalPaths
    rw [List.mem_map]
    exact exists_congr fun name ↦ and_congr_right fun _ ↦ Path.join_eq_self_iff hnormal

/-- Separators around a name make no difference. -/
theorem removal_direct_plain :
    locate Settings.default furnished.workingDir "/srv/" = .ok ⟨.disk, "/srv"⟩ ∧
    removalPaths ⟨.disk, "/srv"⟩ ["a", "//b/"] = ["/srv/a", "/srv/b/"] ∧
    ∀ path ∈ removalPaths ⟨.disk, "/srv"⟩ ["a", "//b/"],
      path ≠ "/srv" ∧ Path.parent? path = some "/srv" := by
  have hplace : locate Settings.default furnished.workingDir "/srv/" = .ok ⟨.disk, "/srv"⟩ := by
    with_unfolding_all rfl
  obtain ⟨-, -, -, hdirect, -⟩ := removal_direct_iff hplace ["a", "//b/"]
  exact ⟨hplace, by decide +kernel, hdirect.mpr (by decide +kernel)⟩

/-- A machine with an empty directory on its disk. -/
def serving : Machine :=
  { furnished with disk := Disk.empty.put ["srv".toUTF8.toList] (.directory Disk.directoryMode) }

/-- An empty name is taken for the name of an entry, and the directory itself is gone. -/
theorem removal_of_directory_itself :
    locate Settings.default serving.workingDir "/srv/" = .ok ⟨.disk, "/srv"⟩ ∧
    removalPaths ⟨.disk, "/srv"⟩ [""] = ["/srv"] ∧
    ¬ (∀ path ∈ removalPaths ⟨.disk, "/srv"⟩ [""],
      path ≠ "/srv" ∧ Path.parent? path = some "/srv") ∧
    (removalCalls serving ⟨.disk, "/srv"⟩ [""]).map WorkCall.path = ["/srv"] ∧
    serving.disk.contains "/srv" = true ∧
    (run serving .default (.remove "/srv/" [""])).2.disk.contains "/srv" = false := by
  refine ⟨by with_unfolding_all rfl, ?_, ?_, ?_, ?_, ?_⟩
  all_goals decide +kernel

end CommandLine

end DirectoryBrowser
