import DirectoryBrowser.Proofs.Text.Numerals

/-!
# Columns between white space

Where texts without white space are written one after the other, with some white
space after each, taking words gives the texts back. What comes behind the last
of them need not be a word.
-/

namespace DirectoryBrowser.Text

/-- Some text without white space. -/
structure IsColumn (text : List Char) : Prop where
  ne_nil : text ≠ []
  solid : ∀ c ∈ text, isSpace c = false

instance (text : List Char) : Decidable (IsColumn text) :=
  decidable_of_iff (text ≠ [] ∧ text.all fun c ↦ !isSpace c)
    ⟨fun h ↦ ⟨h.1, by simpa using h.2⟩, fun h ↦ ⟨h.ne_nil, by simpa using h.solid⟩⟩

/-- Some white space. -/
structure IsGap (text : List Char) : Prop where
  ne_nil : text ≠ []
  blank : ∀ c ∈ text, isSpace c = true

instance (text : List Char) : Decidable (IsGap text) :=
  decidable_of_iff (text ≠ [] ∧ text.all isSpace)
    ⟨fun h ↦ ⟨h.1, List.all_eq_true.mp h.2⟩, fun h ↦ ⟨h.ne_nil, List.all_eq_true.mpr h.blank⟩⟩

theorem IsNumeral.isColumn {n : Nat} {text : List Char} (h : IsNumeral n text) :
    IsColumn text where
  ne_nil := h.ne_nil
  solid := h.forall_mem (by decide)

variable {column gap rest : List Char}

theorem words_blank (hgap : ∀ c ∈ gap, isSpace c = true) (rest : List Char) :
    words isSpace (gap ++ rest) = words isSpace rest := by
  induction gap with
  | nil => rfl
  | cons c gap ih =>
    obtain ⟨hc, hgap⟩ := List.forall_mem_cons.mp hgap
    rw [List.cons_append, words, if_pos hc, ih hgap]

/-- A column reaches as far as the next white space. -/
theorem span_column (hcolumn : IsColumn column) (hgap : IsGap gap) (rest : List Char) :
    (column ++ gap ++ rest).takeWhile (fun c ↦ !isSpace c) = column ∧
      (column ++ gap ++ rest).dropWhile (fun c ↦ !isSpace c) = gap ++ rest := by
  obtain ⟨d, gap, rfl⟩ := List.exists_cons_of_ne_nil hgap.ne_nil
  have hsolid : ∀ c ∈ column, (!isSpace c) = true := fun c hc ↦ by
    rw [hcolumn.solid c hc]
    rfl
  have hstop : ¬ (!isSpace d) = true := by
    rw [hgap.blank d List.mem_cons_self]
    decide
  rw [List.append_assoc, List.takeWhile_append_of_pos hsolid, List.dropWhile_append_of_pos hsolid,
    List.cons_append, List.takeWhile_cons_of_neg (p := fun c ↦ !isSpace c) hstop,
    List.dropWhile_cons_of_neg (p := fun c ↦ !isSpace c) hstop, List.append_nil]
  exact ⟨rfl, rfl⟩

theorem words_column (hcolumn : IsColumn column) (hgap : IsGap gap) (rest : List Char) :
    words isSpace (column ++ gap ++ rest) = column :: words isSpace rest := by
  obtain ⟨htake, hdrop⟩ := span_column hcolumn hgap rest
  obtain ⟨c, column, rfl⟩ := List.exists_cons_of_ne_nil hcolumn.ne_nil
  have hc : (!isSpace c) = true := by
    rw [hcolumn.solid c List.mem_cons_self]
    rfl
  rw [List.cons_append, List.cons_append] at htake hdrop ⊢
  rw [List.takeWhile_cons_of_pos (p := fun c ↦ !isSpace c) hc] at htake
  rw [List.dropWhile_cons_of_pos (p := fun c ↦ !isSpace c) hc] at hdrop
  rw [words, if_neg (by simpa using hc), htake, hdrop, words_blank hgap.blank]

/-- Where the text begins at once, there is a first word. -/
theorem exists_first_word (hne : rest ≠ []) (hrest : ∀ c ∈ rest.head?, isSpace c = false) :
    ∃ first others, words isSpace rest = first :: others := by
  obtain ⟨c, rest, rfl⟩ := List.exists_cons_of_ne_nil hne
  rw [words, if_neg (ne_true_of_eq_false (hrest c rfl))]
  exact ⟨_, _, rfl⟩

theorem isSpace_head? (hcolumn : IsColumn column) (rest : List Char) :
    ∀ c ∈ (column ++ rest).head?, isSpace c = false := by
  obtain ⟨c, column, rfl⟩ := List.exists_cons_of_ne_nil hcolumn.ne_nil
  intro d hd
  obtain rfl := Option.some.inj hd
  exact hcolumn.solid c List.mem_cons_self

/-- Columns with the white space after each of them, and what comes behind. -/
def spaced (columns : List (List Char × List Char)) (rest : List Char) : List Char :=
  columns.foldr (fun column rest ↦ column.1 ++ column.2 ++ rest) rest

theorem words_spaced {columns : List (List Char × List Char)}
    (h : ∀ column ∈ columns, IsColumn column.1 ∧ IsGap column.2) (rest : List Char) :
    words isSpace (spaced columns rest) = columns.map Prod.fst ++ words isSpace rest := by
  induction columns with
  | nil => rfl
  | cons column columns ih =>
    obtain ⟨⟨hcolumn, hgap⟩, hrest⟩ := List.forall_mem_cons.mp h
    exact (words_column hcolumn hgap _).trans (congrArg _ (ih hrest))

theorem isSpace_head?_spaced {columns : List (List Char × List Char)}
    (h : ∀ column ∈ columns, IsColumn column.1 ∧ IsGap column.2)
    (hrest : ∀ c ∈ rest.head?, isSpace c = false) :
    ∀ c ∈ (spaced columns rest).head?, isSpace c = false := by
  cases columns with
  | nil => exact hrest
  | cons column columns =>
    rw [spaced, List.foldr_cons, List.append_assoc]
    exact isSpace_head? (h column List.mem_cons_self).1 _

/-! ### Letters of either case -/

/-- What holds of all letters in a range holds of one that is found there. -/
theorem within_induction {motive : Char → Prop} {low high : Nat}
    (h : ∀ n < high + 1, low ≤ n → motive (Char.ofNat n)) {c : Char}
    (hc : within c [(low, high)] = true) : motive c := by
  have hrange : low ≤ c.toNat ∧ c.toNat ≤ high := by simpa [within] using hc
  rw [← Char.ofNat_toNat c]
  exact h c.toNat (Nat.lt_succ_of_le hrange.2) hrange.1

theorem lowerAscii_eq (c : Char) : lowerAscii c = c.toLower := by
  by_cases hc : within c [(0x41, 0x5A)] = true
  · exact within_induction (motive := fun c ↦ lowerAscii c = c.toLower) (by decide) hc
  · have hval : ¬ (c.val ≥ 'A'.val ∧ c.val ≤ 'Z'.val) := by
      rintro ⟨hlow, hhigh⟩
      refine hc ?_
      have hrange : 0x41 ≤ c.toNat ∧ c.toNat ≤ 0x5A :=
        ⟨UInt32.le_iff_toNat_le.mp hlow, UInt32.le_iff_toNat_le.mp hhigh⟩
      simpa [within] using hrange
    delta Char.toLower
    rw [lowerAscii, if_neg hc, dif_neg hval]

theorem isSpace_toLower (c : Char) : isSpace c.toLower = isSpace c := by
  rw [← lowerAscii_eq]
  by_cases hc : within c [(0x41, 0x5A)] = true
  · exact within_induction (motive := fun c ↦ isSpace (lowerAscii c) = isSpace c) (by decide) hc
  · rw [lowerAscii, if_neg hc]

end DirectoryBrowser.Text
