import Mathlib.Data.List.Induction
import DirectoryBrowser.Text.Chars

/-!
# Texts cut at separators

A cut at a separator gives back what was on both sides of it, if the side that was
searched is free of separators. Splitting at every separator gives pieces without
any, and joining such pieces is undone by splitting.
-/

namespace DirectoryBrowser.Text

variable {sep : Char} {cs before after piece : List Char} {pieces : List (List Char)}
  {p : Char → Prop}

/-! ### First and last separators -/

theorem cutWhere?_append (hbefore : sep ∉ before) (after : List Char) :
    cutWhere? (· == sep) (before ++ sep :: after) = some (before, after) := by
  induction before with
  | nil => simp [cutWhere?]
  | cons b before ih =>
    obtain ⟨hb, hrest⟩ := not_or.mp (mt List.mem_cons.mpr hbefore)
    simp [cutWhere?, Ne.symm hb, ih hrest]

theorem eq_of_cutWhere? (hcut : cutWhere? (· == sep) cs = some (before, after)) :
    cs = before ++ sep :: after ∧ sep ∉ before := by
  induction cs generalizing before with
  | nil => cases hcut
  | cons c cs ih =>
    by_cases hc : c = sep
    · simp only [cutWhere?, hc, beq_self_eq_true, if_true, Option.some.injEq, Prod.mk.injEq] at hcut
      obtain ⟨rfl, rfl⟩ := hcut
      exact ⟨congrArg (· :: cs) hc, List.not_mem_nil⟩
    · simp only [cutWhere?, beq_iff_eq, hc, if_false, Option.map_eq_some_iff] at hcut
      obtain ⟨⟨first, last⟩, hrest, hparts⟩ := hcut
      obtain ⟨rfl, rfl⟩ := Prod.mk.inj hparts
      obtain ⟨hcs, hfirst⟩ := ih hrest
      exact ⟨congrArg (c :: ·) hcs, List.not_mem_cons_of_ne_of_not_mem (Ne.symm hc) hfirst⟩

theorem cutWhere?_eq_none_iff : cutWhere? (· == sep) cs = none ↔ sep ∉ cs := by
  induction cs with
  | nil => simp [cutWhere?]
  | cons c cs ih =>
    by_cases hc : c = sep
    · simp [cutWhere?, hc]
    · simp [cutWhere?, hc, ih, Ne.symm hc]

theorem cutLast?_append (before : List Char) (hafter : sep ∉ after) :
    cutLast? sep (before ++ sep :: after) = some (before, after) := by
  have hreverse : (before ++ sep :: after).reverse = after.reverse ++ sep :: before.reverse := by
    simp
  rw [cutLast?, hreverse, cutWhere?_append (by simpa using hafter)]
  simp

theorem eq_of_cutLast? (hcut : cutLast? sep cs = some (before, after)) :
    cs = before ++ sep :: after ∧ sep ∉ after := by
  rw [cutLast?, Option.map_eq_some_iff] at hcut
  obtain ⟨⟨last, first⟩, hrest, hparts⟩ := hcut
  obtain ⟨rfl, rfl⟩ := Prod.mk.inj hparts
  obtain ⟨hcs, hlast⟩ := eq_of_cutWhere? hrest
  have hreverse := congrArg List.reverse hcs
  simp only [List.reverse_reverse, List.reverse_append, List.reverse_cons, List.append_assoc,
    List.singleton_append] at hreverse
  exact ⟨hreverse, by simpa using hlast⟩

theorem cutLast?_eq_none_iff : cutLast? sep cs = none ↔ sep ∉ cs := by
  rw [cutLast?, Option.map_eq_none_iff, cutWhere?_eq_none_iff, List.mem_reverse]

/-! ### The first occurrence of a pattern -/

/-- A pattern does not occur before the character that it begins with. -/
theorem cutAt?_append {first : Char} {pattern : List Char} (h : first ∉ before) (rest : List Char) :
    cutAt? (first :: pattern) (before ++ rest) =
      (cutAt? (first :: pattern) rest).map fun cut ↦ (before ++ cut.1, cut.2) := by
  induction before with
  | nil => exact (Option.map_id' (x := cutAt? (first :: pattern) rest)).symm
  | cons c before ih =>
    obtain ⟨hc, hrest⟩ := not_or.mp (mt List.mem_cons.mpr h)
    have hnone : dropStart? (first :: pattern) (c :: (before ++ rest)) = none := by
      rw [dropStart?, if_neg hc]
    rw [List.cons_append, cutAt?, hnone, ih hrest, Option.map_map]
    rfl

/-! ### The ends of a text -/

theorem dropWhile_of_head? {p : Char → Bool} (hcs : ∀ c ∈ cs.head?, p c = false) :
    cs.dropWhile p = cs := by
  cases cs with
  | nil => rfl
  | cons c cs => exact List.dropWhile_cons_of_neg (ne_true_of_eq_false (hcs c rfl))

theorem dropTrailing_of_getLast? {p : Char → Bool} (hcs : ∀ c ∈ cs.getLast?, p c = false) :
    dropTrailing p cs = cs := by
  rw [← List.head?_reverse] at hcs
  rw [dropTrailing, dropWhile_of_head? hcs, List.reverse_reverse]

theorem of_getLast?_dropTrailing {p : Char → Bool} {c : Char}
    (h : (dropTrailing p cs).getLast? = some c) : p c = false := by
  have hstops := List.head?_dropWhile_not p cs.reverse
  rw [dropTrailing, List.getLast?_reverse] at h
  rwa [h] at hstops

/-- What stands behind the last separator is not it. -/
theorem getLast?_append_cons_ne (before : List Char) (hne : after ≠ []) (hafter : sep ∉ after) :
    (before ++ sep :: after).getLast? ≠ some sep := by
  rw [List.getLast?_append, List.getLast?_cons, List.getLast?_eq_some_getLast hne,
    Option.getD_some, Option.some_or]
  exact fun heq ↦ hafter (Option.some.inj heq ▸ List.getLast_mem hne)

/-! ### All separators -/

/-- Every piece with the separator before it. -/
theorem flatMap_splitOn (sep : Char) (cs : List Char) :
    (splitOn sep cs).flatMap (sep :: ·) = sep :: cs := by
  induction cs with
  | nil => rfl
  | cons c cs ih =>
    rw [splitOn]
    split
    case isTrue hc => simp [hc, ih]
    case isFalse hc =>
      split
      case h_1 hpieces => simp [hpieces] at ih
      case h_2 piece pieces hpieces => simpa [hpieces] using ih

theorem notMem_of_mem_splitOn (hpiece : piece ∈ splitOn sep cs) : sep ∉ piece := by
  induction cs generalizing piece with
  | nil => simp_all [splitOn]
  | cons c cs ih =>
    rw [splitOn] at hpiece
    split at hpiece
    case isTrue hc =>
      rcases List.mem_cons.mp hpiece with rfl | hrest
      · exact List.not_mem_nil
      · exact ih hrest
    case isFalse hc =>
      split at hpiece
      case h_1 hpieces => simp [List.mem_singleton.mp hpiece, Ne.symm hc]
      case h_2 first pieces hpieces =>
        rw [hpieces] at ih
        rcases List.mem_cons.mp hpiece with rfl | hrest
        · simpa [Ne.symm hc] using ih List.mem_cons_self
        · exact ih (List.mem_cons_of_mem first hrest)

theorem splitOn_of_notMem (h : sep ∉ piece) : splitOn sep piece = [piece] := by
  induction piece with
  | nil => rfl
  | cons c piece ih =>
    obtain ⟨hc, hrest⟩ := not_or.mp (mt List.mem_cons.mpr h)
    rw [splitOn, if_neg (Ne.symm hc), ih hrest]

theorem splitOn_ne_nil (sep : Char) (cs : List Char) : splitOn sep cs ≠ [] := by
  intro hnil
  have hchars := flatMap_splitOn sep cs
  rw [hnil] at hchars
  cases hchars

theorem splitOn_inj {other : List Char} : splitOn sep cs = splitOn sep other ↔ cs = other := by
  refine ⟨fun h ↦ ?_, congrArg (splitOn sep)⟩
  have hchars := congrArg (List.flatMap (sep :: ·)) h
  rw [flatMap_splitOn, flatMap_splitOn] at hchars
  exact (List.cons.inj hchars).2

/-- A separator keeps the pieces on its two sides apart. -/
theorem splitOn_append_cons (sep : Char) (before after : List Char) :
    splitOn sep (before ++ sep :: after) = splitOn sep before ++ splitOn sep after := by
  induction before with
  | nil =>
    rw [List.nil_append]
    exact if_pos rfl
  | cons c before ih =>
    by_cases hc : c = sep
    · rw [List.cons_append, splitOn, if_pos hc, ih, splitOn, if_pos hc, List.cons_append]
    · obtain ⟨piece, pieces, hpieces⟩ := List.exists_cons_of_ne_nil (splitOn_ne_nil sep before)
      rw [hpieces] at ih
      rw [List.cons_append, splitOn, if_neg hc, ih, splitOn, if_neg hc, hpieces]
      rfl

theorem splitOn_append (h : sep ∉ piece) (rest : List Char) :
    splitOn sep (piece ++ sep :: rest) = piece :: splitOn sep rest := by
  rw [splitOn_append_cons, splitOn_of_notMem h, List.singleton_append]

theorem mem_of_mem_splitOn (hpiece : piece ∈ splitOn sep cs) {c : Char}
    (hc : c ∈ piece) : c ∈ cs := by
  have hmem : c ∈ sep :: cs := by
    rw [← flatMap_splitOn]
    exact List.mem_flatMap.mpr ⟨piece, hpiece, List.mem_cons_of_mem sep hc⟩
  have hne : c ≠ sep := fun heq ↦ notMem_of_mem_splitOn hpiece (heq ▸ hc)
  exact List.mem_of_ne_of_mem hne hmem

theorem joinWith_cons (sep piece : List Char) (hne : pieces ≠ []) :
    joinWith sep (piece :: pieces) = piece ++ sep ++ joinWith sep pieces := by
  obtain ⟨next, rest, rfl⟩ := List.exists_cons_of_ne_nil hne
  rfl

theorem splitOn_joinWith (hne : pieces ≠ []) (h : ∀ piece ∈ pieces, sep ∉ piece) :
    splitOn sep (joinWith [sep] pieces) = pieces := by
  induction pieces with
  | nil => exact absurd rfl hne
  | cons piece pieces ih =>
    obtain ⟨hpiece, hrest⟩ := List.forall_mem_cons.mp h
    by_cases hnil : pieces = []
    · subst hnil
      exact splitOn_of_notMem hpiece
    · rw [joinWith_cons [sep] piece hnil, List.append_assoc, List.singleton_append,
        splitOn_append hpiece, ih hnil hrest]

theorem flatMap_eq_joinWith (sep : Char) (hne : pieces ≠ []) :
    pieces.flatMap (sep :: ·) = sep :: joinWith [sep] pieces := by
  induction pieces with
  | nil => exact absurd rfl hne
  | cons piece pieces ih =>
    by_cases hnil : pieces = []
    · subst hnil
      exact List.flatMap_singleton _ _
    · rw [List.flatMap_cons, ih hnil, joinWith_cons [sep] piece hnil, List.append_assoc]
      rfl

theorem joinWith_splitOn (sep : Char) (cs : List Char) :
    joinWith [sep] (splitOn sep cs) = cs := by
  have hchars := flatMap_splitOn sep cs
  rw [flatMap_eq_joinWith sep (splitOn_ne_nil sep cs)] at hchars
  exact (List.cons.inj hchars).2

theorem joinWith_ne_nil {sep : List Char} (hne : pieces ≠ [])
    (h : ∀ piece ∈ pieces, piece ≠ []) : joinWith sep pieces ≠ [] := by
  obtain ⟨piece, rest, rfl⟩ := List.exists_cons_of_ne_nil hne
  have hpiece := h piece List.mem_cons_self
  by_cases hnil : rest = []
  · subst hnil
    exact hpiece
  · rw [joinWith_cons sep piece hnil, List.append_assoc]
    exact List.append_ne_nil_of_left_ne_nil hpiece _

/-- No separator stands at the ends if none of the pieces is empty. -/
theorem joinWith_ends (h : ∀ piece ∈ pieces, piece ≠ [] ∧ sep ∉ piece) :
    (joinWith [sep] pieces).head? ≠ some sep ∧ (joinWith [sep] pieces).getLast? ≠ some sep := by
  induction pieces with
  | nil => exact ⟨nofun, nofun⟩
  | cons piece pieces ih =>
    obtain ⟨⟨hpiece, hsep⟩, hrest⟩ := List.forall_mem_cons.mp h
    have hhead : piece.head? ≠ some sep := fun hfirst ↦ hsep (List.mem_of_head? hfirst)
    by_cases hnil : pieces = []
    · subst hnil
      exact ⟨hhead, fun hlast ↦ hsep (List.mem_of_getLast? hlast)⟩
    · have hne : joinWith [sep] pieces ≠ [] :=
        joinWith_ne_nil hnil fun other hother ↦ (hrest other hother).1
      rw [joinWith_cons [sep] piece hnil, List.getLast?_append, List.append_assoc,
        List.head?_append, List.head?_eq_some_head hpiece, List.getLast?_eq_some_getLast hne,
        Option.some_or, Option.some_or, ← List.head?_eq_some_head hpiece,
        ← List.getLast?_eq_some_getLast hne]
      exact ⟨hhead, (ih hrest).2⟩

theorem forall_mem_joinWith {sep : List Char} (hsep : ∀ c ∈ sep, p c)
    (h : ∀ piece ∈ pieces, ∀ c ∈ piece, p c) : ∀ c ∈ joinWith sep pieces, p c := by
  induction pieces with
  | nil => exact fun c hc ↦ absurd hc List.not_mem_nil
  | cons piece pieces ih =>
    obtain ⟨hpiece, hrest⟩ := List.forall_mem_cons.mp h
    by_cases hnil : pieces = []
    · subst hnil
      exact hpiece
    · rw [joinWith_cons sep piece hnil, List.forall_mem_append, List.forall_mem_append]
      exact ⟨⟨hpiece, hsep⟩, ih hrest⟩

/-! ### Pieces read one by one -/

theorem mapM_eq_self {α : Type} {f : α → Option α} {items : List α}
    (h : ∀ item ∈ items, f item = some item) : items.mapM f = some items := by
  induction items with
  | nil => rfl
  | cons item items ih =>
    obtain ⟨hitem, hrest⟩ := List.forall_mem_cons.mp h
    simp [hitem, ih hrest]

theorem exists_of_mapM {α β : Type} {f : α → Option β} {items : List α} {results : List β}
    (h : items.mapM f = some results) :
    results.length = items.length ∧ ∀ result ∈ results, ∃ item ∈ items, f item = some result := by
  induction items generalizing results with
  | nil =>
    obtain rfl := Option.some.inj h
    exact ⟨rfl, fun _ hmem ↦ absurd hmem List.not_mem_nil⟩
  | cons item items ih =>
    rw [List.mapM_cons, Option.bind_eq_bind, Option.bind_eq_some_iff] at h
    obtain ⟨first, hfirst, h⟩ := h
    rw [Option.bind_eq_bind, Option.bind_eq_some_iff] at h
    obtain ⟨rest, hrest, h⟩ := h
    obtain rfl := Option.some.inj h
    obtain ⟨hlength, hall⟩ := ih hrest
    refine ⟨by simp [hlength], fun result hresult ↦ ?_⟩
    rcases List.mem_cons.mp hresult with rfl | hmem
    · exact ⟨item, List.mem_cons_self, hfirst⟩
    · obtain ⟨other, hother, hresult⟩ := hall result hmem
      exact ⟨other, List.mem_cons_of_mem item hother, hresult⟩

end DirectoryBrowser.Text
