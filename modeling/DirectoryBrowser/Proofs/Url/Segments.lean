import DirectoryBrowser.Proofs.Text.Escapes
import DirectoryBrowser.Url.Parse

/-!
# Segments of a path

Placing the pieces of a text leaves segments that are settled: nothing in them is
escaped once more, no separator cuts them, and they are no dots. A path of settled
segments is read back as it was written. Pieces in front are placed without regard
to what follows, so two paths that begin with the same pieces share the segments
that these leave.
-/

namespace DirectoryBrowser.Url

open Text

variable {kind : SchemeKind} {c : Char} {text piece segment : List Char}
  {above front names rest : List (List Char)}

/-! ### Characters -/

/-- No part of a URL escapes the characters that escapes consist of. -/
theorem not_escaped_of_digit {c : Char} (h : (digitIn? 16 c).isSome) :
    escapesInPath c = false ∧ escapesInUserinfo c = false ∧ isSeparator .special c = false := by
  obtain ⟨n, hn⟩ := Option.isSome_iff_exists.mp h
  have hall : ∀ n ∈ List.range 128, (digitIn? 16 (Char.ofNat n)).isSome →
      escapesInPath (Char.ofNat n) = false ∧ escapesInUserinfo (Char.ofNat n) = false ∧
        isSeparator .special (Char.ofNat n) = false := by decide +kernel
  exact forall_ascii (p := fun c ↦ (digitIn? 16 c).isSome → escapesInPath c = false ∧
    escapesInUserinfo c = false ∧ isSeparator .special c = false) hall (lt_of_digitIn? hn) h

theorem isControl_eq_false_of_path (h : escapesInPath c = false) : Host.isControl c = false :=
  (Bool.or_eq_false_iff.mp h).1

theorem isLineNoise_eq_false (h : Host.isControl c = false) : isLineNoise c = false := by
  have hlow : 0x20 ≤ c.toNat := by
    simp only [Host.isControl, Bool.or_eq_false_iff, decide_eq_false_iff_not] at h
    omega
  simp only [isLineNoise, Bool.or_eq_false_iff, beq_eq_false_iff_ne]
  refine ⟨⟨?_, ?_⟩, ?_⟩ <;> rintro rfl <;> exact absurd hlow (by decide)

theorem lt_of_isControl (h : Host.isControl c = false) : c.toNat < 128 := by
  simp only [Host.isControl, Bool.or_eq_false_iff, decide_eq_false_iff_not] at h
  omega

/-! ### Pieces -/

theorem pieces_ne_nil (kind : SchemeKind) (text : List Char) : pieces kind text ≠ [] := by
  cases text with
  | nil => exact List.cons_ne_nil _ _
  | cons c text =>
    rw [pieces]
    split
    · exact List.cons_ne_nil _ _
    · split <;> exact List.cons_ne_nil _ _

theorem pieces_cons_sep (hc : isSeparator kind c = true) (text : List Char) :
    pieces kind (c :: text) = [] :: pieces kind text := by
  rw [pieces, if_pos hc]

theorem pieces_cons {first : List Char} (hc : isSeparator kind c = false)
    (h : pieces kind text = first :: rest) : pieces kind (c :: text) = (c :: first) :: rest := by
  rw [pieces, if_neg (by simp [hc])]
  simp only [h]

theorem whole_of_mem_pieces (hpiece : piece ∈ pieces kind text) :
    ∀ c ∈ piece, c ∈ text ∧ isSeparator kind c = false := by
  induction text generalizing piece with
  | nil =>
    rw [pieces, List.mem_singleton] at hpiece
    simp [hpiece]
  | cons c text ih =>
    obtain ⟨first, others, hpieces⟩ := List.exists_cons_of_ne_nil (pieces_ne_nil kind text)
    by_cases hc : isSeparator kind c = true
    · rw [pieces_cons_sep hc] at hpiece
      rcases List.mem_cons.mp hpiece with rfl | hrest
      · simp
      · exact fun d hd ↦ ⟨List.mem_cons_of_mem c (ih hrest d hd).1, (ih hrest d hd).2⟩
    · rw [pieces_cons (by simpa using hc) hpieces] at hpiece
      rw [hpieces] at ih
      rcases List.mem_cons.mp hpiece with rfl | hrest
      · refine List.forall_mem_cons.mpr ⟨⟨List.mem_cons_self, by simpa using hc⟩, fun d hd ↦ ?_⟩
        have hfirst := ih List.mem_cons_self d hd
        exact ⟨List.mem_cons_of_mem c hfirst.1, hfirst.2⟩
      · have hothers := ih (List.mem_cons_of_mem first hrest)
        exact fun d hd ↦ ⟨List.mem_cons_of_mem c (hothers d hd).1, (hothers d hd).2⟩

theorem pieces_append_sep (hc : isSeparator kind c = true) (before after : List Char) :
    pieces kind (before ++ c :: after) = pieces kind before ++ pieces kind after := by
  induction before with
  | nil => exact pieces_cons_sep hc after
  | cons b before ih =>
    by_cases hb : isSeparator kind b = true
    · rw [List.cons_append, pieces_cons_sep hb, pieces_cons_sep hb, ih, List.cons_append]
    · obtain ⟨first, others, hpieces⟩ := List.exists_cons_of_ne_nil (pieces_ne_nil kind before)
      rw [hpieces, List.cons_append] at ih
      rw [List.cons_append, pieces_cons (by simpa using hb) ih,
        pieces_cons (by simpa using hb) hpieces, List.cons_append]

theorem pieces_of_whole (h : ∀ c ∈ piece, isSeparator kind c = false) :
    pieces kind piece = [piece] := by
  induction piece with
  | nil => rfl
  | cons c piece ih =>
    obtain ⟨hc, hrest⟩ := List.forall_mem_cons.mp h
    exact pieces_cons hc (ih hrest)

@[simp] theorem isSeparator_slash : isSeparator kind '/' = true := rfl

/-- Names that no separator cuts are the pieces of what they are written as. -/
theorem pieces_append_flatMap (hpiece : ∀ c ∈ piece, isSeparator kind c = false)
    (hnames : ∀ name ∈ names, ∀ c ∈ name, isSeparator kind c = false) :
    pieces kind (piece ++ names.flatMap ('/' :: ·)) = piece :: names := by
  induction names generalizing piece with
  | nil => rw [List.flatMap_nil, List.append_nil, pieces_of_whole hpiece]
  | cons name names ih =>
    obtain ⟨hname, hrest⟩ := List.forall_mem_cons.mp hnames
    rw [List.flatMap_cons, List.cons_append, pieces_append_sep isSeparator_slash,
      pieces_of_whole hpiece, ih hname hrest, List.singleton_append]

theorem pieces_rooted_flatMap (hne : names ≠ [])
    (hnames : ∀ name ∈ names, ∀ c ∈ name, isSeparator kind c = false) :
    pieces kind (rooted kind (names.flatMap ('/' :: ·))) = names := by
  obtain ⟨name, others, rfl⟩ := List.exists_cons_of_ne_nil hne
  obtain ⟨hname, hrest⟩ := List.forall_mem_cons.mp hnames
  exact pieces_append_flatMap hname hrest

/-- Pieces of the text of a directory, which is followed by a separator. -/
def directoryPieces (kind : SchemeKind) (directory : List Char) : List (List Char) :=
  if directory = [] then [] else pieces kind (rooted kind directory)

theorem pieces_rooted_append (directory after : List Char) :
    pieces kind (rooted kind (directory ++ '/' :: after)) =
      directoryPieces kind directory ++ pieces kind after := by
  cases directory with
  | nil => rfl
  | cons c directory =>
    rw [directoryPieces, if_neg (List.cons_ne_nil c directory), List.cons_append, rooted, rooted]
    by_cases hc : isSeparator kind c = true
    · rw [if_pos hc, if_pos hc, pieces_append_sep isSeparator_slash]
    · rw [if_neg hc, if_neg hc, ← List.cons_append, pieces_append_sep isSeparator_slash]

theorem whole_of_mem_directoryPieces (hpiece : piece ∈ directoryPieces kind text) :
    ∀ c ∈ piece, c ∈ text ∧ isSeparator kind c = false := by
  have hrooted : rooted kind text ⊆ text := by
    cases text with
    | nil => exact List.Subset.refl _
    | cons c text =>
      rw [rooted]
      split_ifs
      · exact List.subset_cons_self c text
      · exact List.Subset.refl _
  rw [directoryPieces] at hpiece
  split_ifs at hpiece
  · cases hpiece
  · exact fun c hc ↦ (whole_of_mem_pieces hpiece c hc).imp_left (hrooted ·)

theorem directoryPieces_append (directory : List Char)
    (hpiece : ∀ c ∈ piece, isSeparator kind c = false) :
    directoryPieces kind (directory ++ '/' :: piece) =
      directoryPieces kind directory ++ [piece] := by
  rw [directoryPieces, if_neg (by simp), pieces_rooted_append, pieces_of_whole hpiece]

theorem directoryPieces_flatMap
    (hnames : ∀ name ∈ names, ∀ c ∈ name, isSeparator kind c = false) :
    directoryPieces kind (names.flatMap ('/' :: ·)) = names := by
  by_cases hnil : names = []
  · subst hnil
    rfl
  · have hne : names.flatMap ('/' :: ·) ≠ [] := by
      obtain ⟨name, others, rfl⟩ := List.exists_cons_of_ne_nil hnil
      exact List.cons_ne_nil _ _
    rw [directoryPieces, if_neg hne, pieces_rooted_flatMap hnil hnames]

/-! ### Placing -/

/-- The segments after one more piece that is not the last, held last one first. -/
def enter (above : List (List Char)) (piece : List Char) : List (List Char) :=
  if isDoubleDot (percentEncode escapesInPath piece) then climb above
  else if isSingleDot (percentEncode escapesInPath piece) then above
  else percentEncode escapesInPath piece :: above

/-- What stands in front is placed in the same way whatever follows. -/
theorem place_append (above front : List (List Char)) (hne : rest ≠ []) :
    place above (front ++ rest) = place (front.foldl enter above) rest := by
  induction front generalizing above with
  | nil => rfl
  | cons piece front ih =>
    have hmore : (front ++ rest).isEmpty = false := by
      simpa [List.isEmpty_eq_false_iff] using fun _ ↦ hne
    rw [List.cons_append, place, List.foldl_cons, enter]
    simp only [hmore, Bool.false_eq_true, if_false]
    split_ifs <;> exact ih _

theorem place_concat_nil (above front : List (List Char)) :
    place above (front ++ [[]]) = (front.foldl enter above).reverse ++ [[]] := by
  rw [place_append above front (List.cons_ne_nil _ _)]
  exact List.reverse_cons

theorem climb_subset (above : List (List Char)) : climb above ⊆ above := by
  cases above with
  | nil => exact List.Subset.refl _
  | cons segment above =>
    rw [climb]
    split_ifs
    · exact List.Subset.refl _
    · exact List.subset_cons_self segment above

/-- A segment was there before, or is empty, or is a piece that has been escaped and is no dots. -/
theorem of_mem_place (h : segment ∈ place above rest) :
    segment ∈ above ∨ segment = [] ∨ ∃ piece ∈ rest, segment = percentEncode escapesInPath piece ∧
      isSingleDot segment = false ∧ isDoubleDot segment = false := by
  have hend {b : Bool} {others : List (List Char)}
      (hmem : segment ∈ if b then [] :: others else others) : segment = [] ∨ segment ∈ others := by
    cases b
    · exact Or.inr hmem
    · exact List.mem_cons.mp hmem
  induction rest generalizing above with
  | nil => exact Or.inl (List.mem_reverse.mp h)
  | cons piece rest ih =>
    have hlater (hold : segment ∈ above ∨ segment = [] ∨ ∃ piece ∈ rest, segment =
        percentEncode escapesInPath piece ∧ isSingleDot segment = false ∧
          isDoubleDot segment = false) :
        segment ∈ above ∨ segment = [] ∨ ∃ other ∈ piece :: rest, segment =
          percentEncode escapesInPath other ∧ isSingleDot segment = false ∧
            isDoubleDot segment = false :=
      hold.imp id (Or.imp id fun ⟨other, hmem, hother⟩ ↦
        ⟨other, List.mem_cons_of_mem piece hmem, hother⟩)
    rw [place] at h
    split_ifs at h with hdouble hdone hsingle hdone
    · rcases ih h with hmem | hplaced
      · rcases List.mem_cons.mp hmem with hempty | hmem
        · exact Or.inr (Or.inl hempty)
        · exact Or.inl (climb_subset above hmem)
      · exact hlater (Or.inr hplaced)
    · exact hlater ((ih h).imp_left (climb_subset above ·))
    · rcases ih h with hmem | hplaced
      · rcases List.mem_cons.mp hmem with hempty | hmem
        · exact Or.inr (Or.inl hempty)
        · exact Or.inl hmem
      · exact hlater (Or.inr hplaced)
    · exact hlater (ih h)
    · rcases ih h with hmem | hplaced
      · rcases List.mem_cons.mp hmem with rfl | hmem
        · exact Or.inr (Or.inr ⟨piece, List.mem_cons_self, rfl, by simpa using hsingle,
            by simpa using hdouble⟩)
        · exact Or.inl hmem
      · exact hlater (Or.inr hplaced)

theorem place_ne_nil (above : List (List Char)) (hne : rest ≠ []) : place above rest ≠ [] := by
  induction rest generalizing above with
  | nil => exact absurd rfl hne
  | cons piece rest ih =>
    cases rest with
    | nil =>
      simp only [place, List.isEmpty_nil, if_true]
      split_ifs <;> simp
    | cons next rest =>
      rw [place]
      split_ifs <;> exact ih _ (List.cons_ne_nil _ _)

/-! ### Settled segments -/

/-- A segment as it stands in the path of a URL of one of the schemes with servers. -/
structure IsSettled (segment : List Char) : Prop where
  plain : ∀ c ∈ segment, escapesInPath c = false
  whole : ∀ c ∈ segment, isSeparator .special c = false
  not_single : isSingleDot segment = false
  not_double : isDoubleDot segment = false

theorem isSettled_nil : IsSettled [] :=
  ⟨fun _ hc ↦ absurd hc List.not_mem_nil, fun _ hc ↦ absurd hc List.not_mem_nil, rfl, rfl⟩

theorem IsSettled.slash_notMem (h : IsSettled segment) : '/' ∉ segment :=
  fun hmem ↦ Bool.noConfusion (h.whole '/' hmem)

theorem plain_percentEncode (piece : List Char) :
    ∀ c ∈ percentEncode escapesInPath piece, escapesInPath c = false :=
  forall_mem_percentEncode (by decide) (fun _ hc ↦ (not_escaped_of_digit hc).1) fun _ _ hc ↦ hc

theorem whole_percentEncode (h : ∀ c ∈ piece, isSeparator .special c = false) :
    ∀ c ∈ percentEncode escapesInPath piece, isSeparator .special c = false :=
  forall_mem_percentEncode (by decide) (fun _ hc ↦ (not_escaped_of_digit hc).2.2)
    fun c hc _ ↦ h c hc

theorem isSettled_place (habove : ∀ segment ∈ above, IsSettled segment)
    (hrest : ∀ piece ∈ rest, ∀ c ∈ piece, isSeparator .special c = false) :
    ∀ segment ∈ place above rest, IsSettled segment := by
  intro segment hsegment
  rcases of_mem_place hsegment with hmem | rfl | ⟨piece, hpiece, rfl, hsingle, hdouble⟩
  · exact habove segment hmem
  · exact isSettled_nil
  · exact ⟨plain_percentEncode piece, whole_percentEncode (hrest piece hpiece), hsingle, hdouble⟩

theorem place_of_isSettled (above : List (List Char)) (h : ∀ name ∈ names, IsSettled name) :
    place above names = above.reverse ++ names := by
  induction names generalizing above with
  | nil => exact (List.append_nil _).symm
  | cons name names ih =>
    obtain ⟨hname, hrest⟩ := List.forall_mem_cons.mp h
    rw [place]
    simp only [percentEncode_of_plain hname.plain, hname.not_single, hname.not_double,
      Bool.false_eq_true, if_false]
    rw [ih _ hrest, List.reverse_cons, List.append_assoc, List.singleton_append]

theorem foldl_enter_of_isSettled (above : List (List Char)) (h : ∀ name ∈ names, IsSettled name) :
    names.foldl enter above = names.reverse ++ above := by
  induction names generalizing above with
  | nil => rfl
  | cons name names ih =>
    obtain ⟨hname, hrest⟩ := List.forall_mem_cons.mp h
    have henter : enter above name = name :: above := by
      simp [enter, percentEncode_of_plain hname.plain, hname.not_single, hname.not_double]
    rw [List.foldl_cons, henter, ih _ hrest, List.reverse_cons, List.append_assoc,
      List.singleton_append]

theorem isSettled_pathSegments (text : List Char) :
    ∀ segment ∈ pathSegments .special text, IsSettled segment := by
  rw [pathSegments, if_neg (by simp)]
  exact isSettled_place (fun _ h ↦ absurd h List.not_mem_nil)
    fun piece hpiece c hc ↦ (whole_of_mem_pieces hpiece c hc).2

theorem pathSegments_ne_nil (text : List Char) : pathSegments .special text ≠ [] := by
  rw [pathSegments, if_neg (by simp)]
  exact place_ne_nil [] (pieces_ne_nil _ _)

/-- A path of settled segments is read back as it was written. -/
theorem pathSegments_flatMap (hne : names ≠ []) (h : ∀ name ∈ names, IsSettled name) :
    pathSegments .special (names.flatMap ('/' :: ·)) = names := by
  rw [pathSegments, if_neg (by simp),
    pieces_rooted_flatMap hne fun name hname ↦ (h name hname).whole,
    place_of_isSettled [] h, List.reverse_nil, List.nil_append]

/-- Segments without separators can be told from what they are written as. -/
theorem flatMap_slash_inj {others : List (List Char)} (hnames : ∀ name ∈ names, '/' ∉ name)
    (hothers : ∀ name ∈ others, '/' ∉ name)
    (h : names.flatMap ('/' :: ·) = others.flatMap ('/' :: ·)) : names = others := by
  have hwhole {names : List (List Char)} (hnames : ∀ name ∈ names, '/' ∉ name) :
      ∀ name ∈ names, ∀ c ∈ name, isSeparator .ordinary c = false := by
    intro name hname c hc
    have hne : c ≠ '/' := fun heq ↦ hnames name hname (heq ▸ hc)
    simp [isSeparator, hne]
  by_cases hnil : names = []
  · subst hnil
    cases others with
    | nil => rfl
    | cons other others => cases h
  · by_cases hothersNil : others = []
    · subst hothersNil
      cases names with
      | nil => rfl
      | cons name names => cases h
    · rw [← pieces_rooted_flatMap hnil (hwhole hnames), h,
        pieces_rooted_flatMap hothersNil (hwhole hothers)]

end DirectoryBrowser.Url
