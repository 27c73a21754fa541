import DirectoryBrowser.Path

/-!
# Paths in normal form

Every navigation expands and normalizes the path that it is given. A path that
has come out of this once goes through it again unchanged, unless it begins with
a tilde. Lying in a directory is described here by cutting the path after the
directory, which may only be done at a separator.
-/

namespace DirectoryBrowser.Path

open Text

theorem dropTrailing_prefix (p : Char → Bool) (cs : List Char) : dropTrailing p cs <+: cs := by
  unfold dropTrailing
  rw [← List.reverse_suffix, List.reverse_reverse]
  exact List.dropWhile_suffix p

theorem normalizeChars_congr {cs ds : List Char}
    (h : dropTrailing isSlash cs = dropTrailing isSlash ds) :
    normalizeChars cs = normalizeChars ds := by
  unfold normalizeChars
  rw [h]

theorem normalize_eq_iff {path other : String} : normalize path = normalize other ↔
    dropTrailing isSlash path.toList = dropTrailing isSlash other.toList := by
  refine ⟨fun h ↦ ?_, fun h ↦ congrArg String.ofList (normalizeChars_congr h)⟩
  rw [← dropTrailing_normalizeChars path.toList, ← dropTrailing_normalizeChars other.toList]
  exact congrArg (dropTrailing isSlash) (String.ofList_injective h)

@[simp] theorem normalize_normalize (path : String) : normalize (normalize path) = normalize path := by
  unfold normalize
  rw [String.toList_ofList, normalizeChars_congr (dropTrailing_normalizeChars _)]

def IsAbsolute (path : String) : Prop := path.toList.head? = some '/'

instance (path : String) : Decidable (IsAbsolute path) :=
  inferInstanceAs (Decidable (path.toList.head? = some '/'))

theorem IsAbsolute.normalize {path : String} (h : IsAbsolute path) :
    IsAbsolute (normalize path) := by
  have hprefix := dropTrailing_prefix isSlash path.toList
  unfold IsAbsolute at h
  unfold IsAbsolute Path.normalize normalizeChars
  rw [String.toList_ofList]
  cases htrimmed : dropTrailing isSlash path.toList with
  | nil => rfl
  | cons c rest =>
    obtain ⟨slashes, hpath⟩ := hprefix
    rw [htrimmed] at hpath
    rw [← hpath] at h
    exact h

/-- Only a tilde is expanded. -/
theorem expandHome_of_isAbsolute {path : String} (h : IsAbsolute path) (home : Option String) :
    expandHome path home = path := by
  unfold IsAbsolute at h
  unfold expandHome
  cases home with
  | none => rfl
  | some home =>
    dsimp only
    split
    case h_1 htilde => simp [htilde] at h
    case h_2 htilde => simp [htilde] at h
    case h_3 => rfl

/-- The path is the directory itself, or goes on after it with a separator. -/
def LiesIn (root path : String) : Prop :=
  ∃ rest, path.toList = dropTrailing isSlash root.toList ++ rest ∧
    (rest = [] ∨ rest.head? = some '/')

theorem dropStart?_eq_some_iff {start cs rest : List Char} :
    dropStart? start cs = some rest ↔ cs = start ++ rest := by
  induction start generalizing cs with
  | nil => simp [dropStart?, eq_comm]
  | cons a start ih =>
    cases cs with
    | nil => simp [dropStart?]
    | cons c cs =>
      rw [dropStart?, List.cons_append, List.cons.injEq]
      by_cases hc : a = c
      · rw [if_pos hc, ih]
        simp [hc]
      · rw [if_neg hc]
        simp [Ne.symm hc]

theorem dropEnd?_eq_some_iff {ending cs front : List Char} :
    dropEnd? ending cs = some front ↔ cs = front ++ ending := by
  unfold dropEnd?
  rw [Option.map_eq_some_iff]
  constructor
  · rintro ⟨reversed, hcut, rfl⟩
    have hreverse := congrArg List.reverse (dropStart?_eq_some_iff.mp hcut)
    simpa using hreverse
  · rintro rfl
    exact ⟨front.reverse, dropStart?_eq_some_iff.mpr List.reverse_append, front.reverse_reverse⟩

/-- For an absolute path there is no difference between the root of all and any other directory:
what follows it begins with a separator. -/
theorem isUnder_iff_liesIn {root path : String} (h : IsAbsolute path) :
    isUnder root path = true ↔ LiesIn root path := by
  unfold isUnder relativeTo? relativeChars? LiesIn
  rw [Option.isSome_map]
  dsimp only
  generalize dropTrailing isSlash root.toList = base
  cases hcut : dropStart? base path.toList with
  | none =>
    have hnone : ∀ rest, path.toList ≠ base ++ rest := by
      intro rest hrest
      rw [dropStart?_eq_some_iff.mpr hrest] at hcut
      cases hcut
    simp [hnone]
  | some rest =>
    have hpath := dropStart?_eq_some_iff.mp hcut
    have hlies : (∃ other, path.toList = base ++ other ∧ (other = [] ∨ other.head? = some '/')) ↔
        (rest = [] ∨ rest.head? = some '/') := by
      constructor
      · rintro ⟨other, hother, hends⟩
        rw [hpath, List.append_cancel_left_eq] at hother
        rwa [hother]
      · exact fun hends ↦ ⟨rest, hpath, hends⟩
    rw [hlies]
    cases rest with
    | nil => simp
    | cons c rest =>
      have hempty : base = [] → c = '/' := by
        intro hbase
        unfold IsAbsolute at h
        rw [hpath, hbase] at h
        exact Option.some.inj h
      by_cases hc : c = '/'
      · simp [hc]
      · have hbase : base ≠ [] := fun hbase ↦ hc (hempty hbase)
        simp [hc, hbase]

end DirectoryBrowser.Path
