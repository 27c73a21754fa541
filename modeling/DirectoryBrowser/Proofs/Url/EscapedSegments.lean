import Mathlib.Data.List.DropRight
import DirectoryBrowser.Proofs.Names
import DirectoryBrowser.Proofs.Url.Segments

/-!
# Segments of decoded paths

A path that has been decoded is written into a URL with its percent signs escaped.
No separator moves when that is done, and what a piece of the path is written as
spells the piece, so it is dots only if the piece is. Separators at the end of a
path are the empty segments at its end.
-/

namespace DirectoryBrowser.Url

open Text

variable {segment piece cs : List Char} {names : List (List Char)}

/-! ### Escaped pieces -/

/-- Dots spell dots, however they are written. -/
theorem spells_of_dotCount? {n : Nat} (h : dotCount? segment = some n) :
    Spells (fun _ ↦ false) segment (utf8 (List.replicate n '.')) := by
  fun_induction dotCount? segment generalizing n with
  | case1 =>
    obtain rfl := Option.some.inj h
    exact .nil
  | case2 segment ih =>
    obtain ⟨m, hm, rfl⟩ := Option.map_eq_some_iff.mp h
    exact .plain rfl (by decide) (ih hm)
  | case3 e segment he ih =>
    obtain ⟨m, hm, rfl⟩ := Option.map_eq_some_iff.mp h
    have hbyte : pairOf? '2' e = some 0x2E := by
      rcases Bool.or_eq_true_iff.mp he with heq | heq <;> rw [beq_iff_eq.mp heq] <;> decide
    exact .escape hbyte (ih hm)
  | case4 => cases h
  | case5 => cases h

/-- What a piece of a decoded path is written as. -/
def escapedPiece (piece : List Char) : List Char :=
  percentEncode escapesInPath (escapePercent piece)

theorem spells_escapedPiece (piece : List Char) :
    Spells escapesInPath (escapedPiece piece) (utf8 piece) :=
  spells_percentEncode_escapePercent (by decide) (by decide) (by decide) piece

/-- A percent sign is no part of dots once it is escaped. -/
theorem eq_replicate_of_dotCount? {n : Nat} (h : dotCount? (escapedPiece piece) = some n) :
    piece = List.replicate n '.' := by
  have hdots := (spells_of_dotCount? h).percentDecodeBytes
  rwa [(spells_escapedPiece piece).percentDecodeBytes, utf8_inj] at hdots

theorem isSingleDot_escapedPiece (hpiece : piece ≠ ['.']) :
    isSingleDot (escapedPiece piece) = false :=
  beq_eq_false_iff_ne.mpr fun h ↦ hpiece (eq_replicate_of_dotCount? h)

theorem isDoubleDot_escapedPiece (hpiece : piece ≠ ['.', '.']) :
    isDoubleDot (escapedPiece piece) = false :=
  beq_eq_false_iff_ne.mpr fun h ↦ hpiece (eq_replicate_of_dotCount? h)

theorem IsSettled.escapePercent (h : IsSettled segment) : IsSettled (escapePercent segment) := by
  have hchars : ∀ c ∈ Text.escapePercent segment, c ∈ segment ∨ c ∈ "%25".toList := by
    intro c hc
    rw [escapePercent_eq] at hc
    obtain ⟨d, hd, hmem⟩ := List.mem_flatMap.mp hc
    split_ifs at hmem
    · exact Or.inr hmem
    · exact Or.inl (List.mem_singleton.mp hmem ▸ hd)
  have hplain : ∀ c ∈ Text.escapePercent segment, escapesInPath c = false := by
    have hsign : ∀ c ∈ "%25".toList, escapesInPath c = false :=
      List.forall_iff_forall_mem.mp (by decide)
    exact fun c hc ↦ (hchars c hc).elim (h.plain c) (hsign c)
  have hencoded : escapedPiece segment = Text.escapePercent segment := percentEncode_of_plain hplain
  have hdot : segment ≠ ['.'] := by
    rintro rfl
    exact Bool.noConfusion h.not_single
  have hdots : segment ≠ ['.', '.'] := by
    rintro rfl
    exact Bool.noConfusion h.not_double
  refine ⟨hplain, fun c hc ↦ ?_, ?_, ?_⟩
  · have hsign : ∀ c ∈ "%25".toList, isSeparator .special c = false :=
      List.forall_iff_forall_mem.mp (by decide)
    exact (hchars c hc).elim (h.whole c) (hsign c)
  · rw [← hencoded]
    exact isSingleDot_escapedPiece hdot
  · rw [← hencoded]
    exact isDoubleDot_escapedPiece hdots

/-- Escaping percent signs moves no separator. -/
theorem pieces_escapePercent (text : List Char) :
    pieces .special (escapePercent text) = (pieces .special text).map escapePercent := by
  induction text with
  | nil => rfl
  | cons c text ih =>
    obtain ⟨first, others, hpieces⟩ := List.exists_cons_of_ne_nil (pieces_ne_nil .special text)
    rw [hpieces, List.map_cons] at ih
    rw [escapePercent_cons]
    by_cases hsep : isSeparator .special c = true
    · have hc : c ≠ '%' := by
        rintro rfl
        cases hsep
      rw [if_neg hc, List.singleton_append, pieces_cons_sep hsep, pieces_cons_sep hsep, ih, hpieces]
      rfl
    · rw [pieces_cons (by simpa using hsep) hpieces, List.map_cons, escapePercent_cons]
      split_ifs with hc
      · exact pieces_cons rfl (pieces_cons rfl (pieces_cons rfl ih))
      · exact pieces_cons (by simpa using hsep) ih

theorem directoryPieces_escapePercent (directory : List Char) :
    directoryPieces .special (escapePercent directory) =
      (directoryPieces .special directory).map escapePercent := by
  cases directory with
  | nil => rfl
  | cons c directory =>
    have hrooted : rooted .special (escapePercent (c :: directory)) =
        escapePercent (rooted .special (c :: directory)) := by
      rw [escapePercent_cons]
      by_cases hc : c = '%'
      · subst hc
        rfl
      · simp only [if_neg hc, List.singleton_append, rooted]
        split_ifs <;> simp [hc]
    have hne : escapePercent (c :: directory) ≠ [] := by
      rw [escapePercent_cons]
      split_ifs <;> exact List.cons_ne_nil _ _
    rw [directoryPieces, directoryPieces, if_neg hne, if_neg (List.cons_ne_nil c directory),
      hrooted, pieces_escapePercent]

theorem filter_escapePercent (text : List Char) :
    (escapePercent text).filter (fun c ↦ !isLineNoise c) =
      escapePercent (text.filter fun c ↦ !isLineNoise c) := by
  induction text with
  | nil => rfl
  | cons c text ih =>
    rw [escapePercent_cons, List.filter_append, ih]
    by_cases hc : c = '%'
    · subst hc
      rfl
    · by_cases hnoise : isLineNoise c = true <;> simp [hc, hnoise]

theorem noiseless_flatMap (h : ∀ name ∈ names, IsSettled name) :
    (names.flatMap ('/' :: ·)).filter (fun c ↦ !isLineNoise c) = names.flatMap ('/' :: ·) := by
  rw [List.filter_eq_self]
  intro c hc
  obtain ⟨name, hname, hmem⟩ := List.mem_flatMap.mp hc
  rcases List.mem_cons.mp hmem with rfl | hmem
  · decide
  · rw [isLineNoise_eq_false (isControl_eq_false_of_path ((h name hname).plain c hmem))]
    rfl

/-! ### Ends of paths -/

theorem dropTrailing_flatMap (h : ∀ name ∈ names, '/' ∉ name) :
    dropTrailing Path.isSlash (names.flatMap ('/' :: ·)) =
      (names.rdropWhile List.isEmpty).flatMap ('/' :: ·) := by
  induction names using List.reverseRecOn with
  | nil => rfl
  | append_singleton names name ih =>
    rw [List.flatMap_append, List.flatMap_singleton]
    by_cases hempty : name = []
    · subst hempty
      have hrest := ih fun other hother ↦ h other (List.mem_append_left _ hother)
      rw [List.rdropWhile_concat_pos _ _ _ rfl, ← hrest]
      exact List.rdropWhile_concat_pos _ _ _ rfl
    · have hname : Path.IsName (String.ofList name) :=
        ⟨by simpa using hempty, by simpa using h name (by simp)⟩
      have htrim := Path.dropTrailing_append_name (names.flatMap ('/' :: ·)) hname
      rw [String.toList_ofList] at htrim
      rw [htrim, List.rdropWhile_concat_neg _ _ _ (by simpa using hempty), List.flatMap_append,
        List.flatMap_singleton]

/-- Only segments that say nothing are dropped. -/
theorem flatten_rdropWhile_isEmpty (names : List (List Char)) :
    (names.rdropWhile List.isEmpty).flatten = names.flatten := by
  induction names using List.reverseRecOn with
  | nil => rfl
  | append_singleton names name ih =>
    by_cases hempty : name = []
    · subst hempty
      rw [List.rdropWhile_concat_pos _ _ _ rfl, ih]
      simp
    · rw [List.rdropWhile_concat_neg _ _ _ (by simpa using hempty)]

theorem mem_rdropWhile_isEmpty {name : List Char} (hname : name ∈ names) (hne : name ≠ []) :
    name ∈ names.rdropWhile List.isEmpty := by
  induction names using List.reverseRecOn with
  | nil => cases hname
  | append_singleton names last ih =>
    by_cases hempty : last = []
    · subst hempty
      rw [List.rdropWhile_concat_pos _ _ _ rfl]
      exact ih (by simpa [hne] using hname)
    · rwa [List.rdropWhile_concat_neg _ _ _ (by simpa using hempty)]

end DirectoryBrowser.Url
