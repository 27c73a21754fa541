import DirectoryBrowser.Proofs.Paths
import DirectoryBrowser.Proofs.Text.Cutting

/-!
# Staying in a directory

A path that lies in a directory still does once it is put in normal form, once a
name is joined to it, and once its last name is taken off, unless it is the
directory itself. Only the separators make this more than a matter of prefixes:
a directory may be written with several at its end, a path may have several in a
row, and the root of all consists of nothing else.
-/

namespace DirectoryBrowser.Path

open Text

variable {root path above : String}

theorem dropTrailing_append (p : Char → Bool) (before after : List Char) :
    dropTrailing p (before ++ after) =
      if dropTrailing p after = [] then dropTrailing p before else before ++ dropTrailing p after := by
  unfold dropTrailing
  rw [List.reverse_append, List.dropWhile_append]
  cases after.reverse.dropWhile p <;> simp

theorem dropTrailing_cons_of_neg {p : Char → Bool} {c : Char} (hc : p c = false) (cs : List Char) :
    dropTrailing p (c :: cs) = c :: dropTrailing p cs := by
  have hkept : dropTrailing p [c] = [c] := by simp [dropTrailing, hc]
  have happend := dropTrailing_append p [c] cs
  rw [hkept] at happend
  split at happend
  case isTrue hnone =>
    rw [hnone]
    exact happend
  case isFalse => exact happend

/-- What is trimmed off a path in a directory comes after the directory. -/
theorem dropTrailing_append_rest {p : Char → Bool} (root rest : List Char) :
    dropTrailing p (dropTrailing p root ++ rest) = dropTrailing p root ++ dropTrailing p rest := by
  rw [dropTrailing_append, dropTrailing_dropTrailing]
  split
  case isTrue hnil => rw [hnil, List.append_nil]
  case isFalse => rfl

theorem normalizeChars_eq (cs : List Char) : normalizeChars cs =
    if dropTrailing isSlash cs = [] then ['/'] else dropTrailing isSlash cs := by
  unfold normalizeChars
  cases dropTrailing isSlash cs <;> rfl

theorem joinChars_eq (base name : List Char) : joinChars base name =
    if name.dropWhile isSlash = [] then normalizeChars base
    else dropTrailing isSlash base ++ '/' :: name.dropWhile isSlash := by
  unfold joinChars
  cases hname : name.dropWhile isSlash with
  | nil => rfl
  | cons c rest =>
    simp only [reduceCtorEq, if_false]
    split
    case isTrue hbase =>
      have hnone : dropTrailing isSlash base = [] := by
        rcases (Bool.or_eq_true _ _).mp hbase with hempty | hroot
        · rw [List.isEmpty_iff.mp hempty]
          rfl
        · rw [beq_iff_eq.mp hroot]
          rfl
      rw [hnone, List.nil_append]
    case isFalse => rfl

theorem parent?_congr {other : String}
    (h : dropTrailing isSlash path.toList = dropTrailing isSlash other.toList) :
    parent? path = parent? other := by
  unfold parent? parentChars?
  rw [normalizeChars_congr h]

/-- What it takes for a path to have another one above it. -/
theorem exists_of_parent? (h : parent? path = some above) :
    ∃ front name, dropTrailing isSlash path.toList = front ++ '/' :: name ∧ '/' ∉ name ∧
      above = if front = [] then "/" else String.ofList front := by
  unfold parent? parentChars? at h
  dsimp only at h
  split at h
  case isTrue => cases h
  case isFalse hroot =>
    cases hcut : cutLast? '/' (normalizeChars path.toList) with
    | none =>
      rw [hcut] at h
      cases h
    | some cut =>
      obtain ⟨front, name⟩ := cut
      obtain ⟨hpath, hname⟩ := eq_of_cutLast? hcut
      rw [normalizeChars_eq] at hroot hpath
      split at hpath
      case isTrue hnone =>
        rw [if_pos hnone] at hroot
        exact absurd rfl hroot
      case isFalse =>
        refine ⟨front, name, hpath, hname, ?_⟩
        rw [hcut] at h
        cases front with
        | nil => exact (Option.some.inj h).symm
        | cons c front => exact (Option.some.inj h).symm

/-- Going up never leads back to where it started. -/
theorem normalize_ne_of_parent? (h : parent? path = some above) :
    normalize above ≠ normalize path := by
  obtain ⟨front, name, hpath, -, rfl⟩ := exists_of_parent? h
  rw [ne_eq, normalize_eq_iff, hpath]
  intro heq
  have hlength := congrArg List.length heq
  rw [List.length_append, List.length_cons] at hlength
  split at hlength
  case isTrue => simp [dropTrailing, isSlash] at hlength
  case isFalse =>
    rw [String.toList_ofList] at hlength
    have hle := List.IsPrefix.length_le <| dropTrailing_prefix isSlash front
    omega

theorem IsAbsolute.join {base : String} (h : IsAbsolute base) (name : String) :
    IsAbsolute (join base name) := by
  have hnormal := h.normalize
  unfold IsAbsolute Path.normalize at hnormal
  rw [String.toList_ofList, normalizeChars_eq] at hnormal
  unfold IsAbsolute Path.join
  rw [String.toList_ofList, joinChars_eq]
  split
  case isTrue => rwa [normalizeChars_eq]
  case isFalse =>
    cases hbase : dropTrailing isSlash base.toList with
    | nil => rfl
    | cons c rest =>
      rw [hbase, if_neg (List.cons_ne_nil _ _)] at hnormal
      exact hnormal

/-! ### No path comes out empty -/

theorem normalize_ne_empty (path : String) : normalize path ≠ "" := by
  unfold normalize
  rw [normalizeChars_eq]
  split
  case isTrue => decide
  case isFalse hne => simpa using hne

theorem join_ne_empty (base name : String) : join base name ≠ "" := by
  unfold join
  rw [joinChars_eq]
  split
  case isTrue => exact normalize_ne_empty base
  case isFalse => simp

theorem ne_empty_of_parent? (h : parent? path = some above) : above ≠ "" := by
  obtain ⟨front, name, -, -, rfl⟩ := exists_of_parent? h
  split
  case isTrue => decide
  case isFalse hne => simpa using hne

/-! ### What follows a directory -/

/-- Part of a path that follows a directory in it. -/
def IsRest (rest : List Char) : Prop := rest = [] ∨ rest.head? = some '/'

theorem IsRest.of_prefix {front rest : List Char} (h : IsRest rest) (hfront : front <+: rest) :
    IsRest front := by
  cases front with
  | nil => exact Or.inl rfl
  | cons c front =>
    obtain ⟨back, rfl⟩ := hfront
    exact Or.inr (h.resolve_left (List.cons_ne_nil _ _))

theorem IsRest.append {front back : List Char} (hfront : IsRest front) (hback : IsRest back) :
    IsRest (front ++ back) := by
  cases front with
  | nil => exact hback
  | cons c front => exact Or.inr (hfront.resolve_left (List.cons_ne_nil _ _))

theorem liesIn_of_append {rest : List Char} (hrest : IsRest rest) :
    LiesIn root (String.ofList (dropTrailing isSlash root.toList ++ rest)) :=
  ⟨rest, String.toList_ofList, hrest⟩

theorem liesIn_normalize_self (root : String) : LiesIn root (normalize root) := by
  unfold normalize
  rw [normalizeChars_eq]
  split
  case isTrue hnone =>
    refine ⟨['/'], ?_, Or.inr rfl⟩
    rw [hnone, String.toList_ofList, List.nil_append]
  case isFalse => exact ⟨[], by simp, Or.inl rfl⟩

namespace LiesIn

theorem dropTrailing_eq (h : LiesIn root path) : ∃ rest, IsRest rest ∧
    dropTrailing isSlash path.toList = dropTrailing isSlash root.toList ++ rest := by
  obtain ⟨rest, hpath, hrest⟩ := h
  have htrimmed : dropTrailing isSlash rest <+: rest := dropTrailing_prefix isSlash rest
  refine ⟨dropTrailing isSlash rest, IsRest.of_prefix hrest htrimmed, ?_⟩
  rw [hpath, dropTrailing_append_rest]

theorem normalize (h : LiesIn root path) : LiesIn root (normalize path) := by
  obtain ⟨rest, hrest, hpath⟩ := h.dropTrailing_eq
  unfold Path.normalize
  rw [normalizeChars_eq, hpath]
  split
  case isTrue hnone =>
    refine ⟨['/'], ?_, Or.inr rfl⟩
    rw [(List.append_eq_nil_iff.mp hnone).1, String.toList_ofList, List.nil_append]
  case isFalse => exact liesIn_of_append hrest

theorem join (h : LiesIn root path) (name : String) : LiesIn root (join path name) := by
  unfold Path.join
  rw [joinChars_eq]
  split
  case isTrue => exact h.normalize
  case isFalse =>
    obtain ⟨rest, hrest, hpath⟩ := h.dropTrailing_eq
    rw [hpath, List.append_assoc]
    exact liesIn_of_append (hrest.append (Or.inr rfl))

/-- The last separator of a path comes after the directory, unless the path is the directory. -/
theorem parent (h : LiesIn root path) (hparent : parent? path = some above)
    (hroot : Path.normalize path ≠ Path.normalize root) : LiesIn root above := by
  obtain ⟨rest, hrest, hpath⟩ := h.dropTrailing_eq
  obtain ⟨front, name, hfront, hname, rfl⟩ := exists_of_parent? hparent
  have hne : rest ≠ [] := by
    rintro rfl
    rw [List.append_nil] at hpath
    exact hroot (normalize_eq_iff.mpr hpath)
  obtain ⟨below, rfl⟩ : ∃ below, rest = '/' :: below :=
    List.head?_eq_some_iff.mp (hrest.resolve_left hne)
  obtain ⟨middle, rfl, hmiddle⟩ : ∃ middle,
      front = dropTrailing isSlash root.toList ++ middle ∧
        '/' :: below = middle ++ '/' :: name := by
    rcases List.append_eq_append_iff.mp (hpath.symm.trans hfront) with
      ⟨middle, hfront, hrest⟩ | ⟨excess, hroot, hname'⟩
    · exact ⟨middle, hfront, hrest⟩
    · cases excess with
      | nil => exact ⟨[], by simpa using hroot.symm, by simpa using hname'.symm⟩
      | cons c excess =>
        rw [List.cons_append, List.cons.injEq] at hname'
        exact absurd (hname'.2 ▸ List.mem_append_right excess List.mem_cons_self) hname
  have hmiddle : IsRest middle := hrest.of_prefix ⟨_, hmiddle.symm⟩
  split
  case isTrue hnone =>
    refine ⟨['/'], ?_, Or.inr rfl⟩
    rw [(List.append_eq_nil_iff.mp hnone).1]
    rfl
  case isFalse => exact liesIn_of_append hmiddle

/-- Below an absolute directory every path is absolute. -/
theorem isAbsolute (h : LiesIn root path) (hroot : IsAbsolute root) (hne : path ≠ "") :
    IsAbsolute path := by
  obtain ⟨rest, hpath, hrest⟩ := h
  have htrimmed := dropTrailing_prefix isSlash root.toList
  unfold IsAbsolute
  rw [hpath]
  cases hbase : dropTrailing isSlash root.toList with
  | nil =>
    rw [hbase, List.nil_append] at hpath
    have hrest := hrest.resolve_left fun hnil ↦
      hne (String.toList_eq_nil_iff.mp (hpath.trans hnil))
    exact hrest
  | cons c base =>
    rw [hbase] at htrimmed
    obtain ⟨slashes, hslashes⟩ := htrimmed
    unfold IsAbsolute at hroot
    rw [← hslashes] at hroot
    exact hroot

end LiesIn

end DirectoryBrowser.Path
