import DirectoryBrowser.Proofs.Paths

/-!
# Replacing a pattern

A text is read from the left: either it begins with the pattern, which is replaced
as a whole, or its first character stays. So what has been put in the place of a
pattern can be read off the result, whatever stands around it and however often the
pattern occurs. If the character that a pattern begins with stands nowhere else in
it, no occurrence reaches over that character, and another pattern that begins with
it is left whole.
-/

namespace DirectoryBrowser.Text

variable {pattern replacement other cs : List Char} {c first : Char}

/-! ### Occurrences -/

theorem isSome_dropStart?_iff : (dropStart? pattern cs).isSome = true ↔ pattern <+: cs := by
  rw [Option.isSome_iff_exists]
  constructor
  · rintro ⟨rest, hrest⟩
    exact ⟨rest, (Path.dropStart?_eq_some_iff.mp hrest).symm⟩
  · rintro ⟨rest, hrest⟩
    exact ⟨rest, Path.dropStart?_eq_some_iff.mpr hrest.symm⟩

theorem isSome_cutAt?_iff : (cutAt? pattern cs).isSome = true ↔ pattern <:+: cs := by
  induction cs with
  | nil => cases pattern <;> simp [cutAt?]
  | cons c cs ih =>
    rw [cutAt?, List.infix_cons_iff, ← isSome_dropStart?_iff, ← ih]
    cases dropStart? pattern (c :: cs) <;> simp

/-- A text is read from the left, and an occurrence of the pattern as a whole. -/
theorem occurrence_induction {motive : List Char → Prop} (hne : pattern ≠ []) (nil : motive [])
    (occurs : ∀ rest, motive rest → motive (pattern ++ rest))
    (stays : ∀ c cs, ¬ pattern <+: c :: cs → motive cs → motive (c :: cs)) (cs : List Char) :
    motive cs := by
  by_cases hstart : pattern <+: cs
  · obtain ⟨rest, hrest⟩ := hstart
    have hshorter : rest.length < cs.length := by
      have hpos := List.length_pos_iff.mpr hne
      rw [← hrest, List.length_append]
      omega
    rw [← hrest]
    exact occurs rest (occurrence_induction hne nil occurs stays rest)
  · cases cs with
    | nil => exact nil
    | cons c cs => exact stays c cs hstart (occurrence_induction hne nil occurs stays cs)
termination_by cs.length

/-! ### One step of the reading -/

theorem replaceFrom_eq_drop (pattern replacement : List Char) (skip : Nat) (cs : List Char) :
    replaceFrom pattern replacement skip cs = replaceFrom pattern replacement 0 (cs.drop skip) := by
  induction cs generalizing skip with
  | nil => rw [List.drop_nil, replaceFrom, replaceFrom]
  | cons c cs ih =>
    cases skip with
    | zero => rfl
    | succ skip => exact ih skip

@[simp] theorem replaceAll_nil (pattern replacement : List Char) :
    replaceAll pattern replacement [] = [] := by
  unfold replaceAll
  rw [replaceFrom, ite_self]

theorem replaceAll_of_occurs (hne : pattern ≠ []) (replacement rest : List Char) :
    replaceAll pattern replacement (pattern ++ rest) =
      replacement ++ replaceAll pattern replacement rest := by
  have hempty : ¬ pattern.isEmpty = true := mt List.isEmpty_iff.mp hne
  unfold replaceAll
  rw [if_neg hempty, if_neg hempty]
  obtain ⟨c, tail, rfl⟩ := List.exists_cons_of_ne_nil hne
  have hstart : (dropStart? (c :: tail) (c :: (tail ++ rest))).isSome = true :=
    isSome_dropStart?_iff.mpr (List.prefix_append _ _)
  rw [List.cons_append, replaceFrom, if_pos hstart, replaceFrom_eq_drop, List.length_cons,
    Nat.add_sub_cancel, List.drop_left]

theorem replaceAll_of_stays (h : ¬ pattern <+: c :: cs) (replacement : List Char) :
    replaceAll pattern replacement (c :: cs) = c :: replaceAll pattern replacement cs := by
  have hempty : ¬ pattern.isEmpty = true := by
    intro hnil
    rw [List.isEmpty_iff.mp hnil] at h
    exact h List.nil_prefix
  unfold replaceAll
  rw [if_neg hempty, if_neg hempty, replaceFrom, if_neg (mt isSome_dropStart?_iff.mp h)]

/-! ### The result -/

theorem mem_of_mem_replaceAll (hne : pattern ≠ []) (h : c ∈ replaceAll pattern replacement cs) :
    c ∈ replacement ∨ c ∈ cs := by
  induction cs using occurrence_induction hne with
  | nil =>
    rw [replaceAll_nil] at h
    exact Or.inr h
  | occurs rest ih =>
    rw [replaceAll_of_occurs hne] at h
    rcases List.mem_append.mp h with hreplacement | hrest
    · exact Or.inl hreplacement
    · exact (ih hrest).imp_right (List.mem_append_right pattern)
  | stays d cs hstays ih =>
    rw [replaceAll_of_stays hstays] at h
    rcases List.mem_cons.mp h with rfl | hrest
    · exact Or.inr List.mem_cons_self
    · exact (ih hrest).imp_right (List.mem_cons_of_mem d)

theorem replaceAll_ne_nil (hne : pattern ≠ []) (hreplacement : replacement ≠ [])
    (hcs : cs ≠ []) : replaceAll pattern replacement cs ≠ [] := by
  induction cs using occurrence_induction hne with
  | nil => exact absurd rfl hcs
  | occurs rest _ =>
    rw [replaceAll_of_occurs hne]
    exact List.append_ne_nil_of_left_ne_nil hreplacement _
  | stays c cs hstays _ =>
    rw [replaceAll_of_stays hstays]
    exact List.cons_ne_nil _ _

theorem length_replaceAll_le (hne : pattern ≠ []) (h : replacement.length ≤ other.length)
    (cs : List Char) :
    (replaceAll pattern replacement cs).length ≤ (replaceAll pattern other cs).length := by
  induction cs using occurrence_induction hne with
  | nil => simp
  | occurs rest ih =>
    rw [replaceAll_of_occurs hne, replaceAll_of_occurs hne, List.length_append, List.length_append]
    exact Nat.add_le_add h ih
  | stays c cs hstays ih =>
    rw [replaceAll_of_stays hstays, replaceAll_of_stays hstays]
    exact Nat.succ_le_succ ih

/-- The longer replacement gives the longer text. -/
theorem length_le_of_replaced (hne : pattern ≠ []) {rest : List Char}
    (h : replacement ++ replaceAll pattern replacement rest =
      other ++ replaceAll pattern other rest) : replacement.length ≤ other.length := by
  apply Nat.le_of_not_lt
  intro hlonger
  have hrest := length_replaceAll_le hne (Nat.le_of_lt hlonger) rest
  have hlength := congrArg List.length h
  rw [List.length_append, List.length_append] at hlength
  omega

/-- Where a pattern occurs, the result tells what it has been replaced with. -/
theorem replaceAll_inj (hne : pattern ≠ []) (h : pattern <:+: cs) :
    replaceAll pattern replacement cs = replaceAll pattern other cs ↔ replacement = other := by
  refine ⟨fun heq ↦ ?_, fun heq ↦ heq ▸ rfl⟩
  induction cs using occurrence_induction hne with
  | nil => exact absurd (List.infix_nil.mp h) hne
  | occurs rest _ =>
    -- At the first occurrence the two agree on what is before it, so only the lengths could differ.
    rw [replaceAll_of_occurs hne, replaceAll_of_occurs hne] at heq
    apply List.append_inj_left heq
    apply Nat.le_antisymm
    · exact length_le_of_replaced hne heq
    · exact length_le_of_replaced hne heq.symm
  | stays c cs hstays ih =>
    rw [replaceAll_of_stays hstays, replaceAll_of_stays hstays] at heq
    exact ih ((List.infix_cons_iff.mp h).resolve_left hstays) (List.cons.inj heq).2

/-! ### Patterns with a beginning of their own -/

theorem prefix_of_prefix_append_cons {tail rest : List Char} (hfirst : first ∉ tail)
    (h : tail <+: cs ++ first :: rest) : tail <+: cs := by
  rcases List.prefix_or_prefix_of_prefix h (List.prefix_append cs (first :: rest)) with
    hbegins | ⟨excess, rfl⟩
  · exact hbegins
  · cases excess with
    | nil => simp
    | cons d excess =>
      obtain ⟨rfl, -⟩ := List.cons_prefix_cons.mp ((List.prefix_append_right_inj cs).mp h)
      exact absurd (List.mem_append_right cs List.mem_cons_self) hfirst

variable {tail kept : List Char}

/-- Nothing is replaced before the character that the pattern begins with. -/
theorem replaceAll_append_of_notMem {before : List Char} (h : first ∉ before)
    (replacement rest : List Char) :
    replaceAll (first :: tail) replacement (before ++ rest) =
      before ++ replaceAll (first :: tail) replacement rest := by
  induction before with
  | nil => rfl
  | cons c before ih =>
    obtain ⟨hc, hbefore⟩ := not_or.mp (mt List.mem_cons.mpr h)
    have hstays : ¬ first :: tail <+: c :: (before ++ rest) :=
      fun hstart ↦ hc (List.cons_prefix_cons.mp hstart).1
    rw [List.cons_append, replaceAll_of_stays hstays, ih hbefore, List.cons_append]

/-- An occurrence does not reach over the character that it begins with. -/
theorem replaceAll_append_cons (hfirst : first ∉ tail) (replacement before after : List Char) :
    replaceAll (first :: tail) replacement (before ++ first :: after) =
      replaceAll (first :: tail) replacement before ++
        replaceAll (first :: tail) replacement (first :: after) := by
  have hne : first :: tail ≠ [] := List.cons_ne_nil _ _
  induction before using occurrence_induction hne with
  | nil => rw [replaceAll_nil, List.nil_append, List.nil_append]
  | occurs rest ih =>
    rw [List.append_assoc, replaceAll_of_occurs hne, replaceAll_of_occurs hne, ih,
      List.append_assoc]
  | stays c cs hstays ih =>
    have hlater : ¬ first :: tail <+: c :: (cs ++ first :: after) := by
      intro hstart
      obtain ⟨hc, htail⟩ := List.cons_prefix_cons.mp hstart
      apply hstays
      exact List.cons_prefix_cons.mpr ⟨hc, prefix_of_prefix_append_cons hfirst htail⟩
    rw [List.cons_append, replaceAll_of_stays hlater, replaceAll_of_stays hstays, ih,
      List.cons_append]

/-- Replacing one pattern leaves another one that begins alike, but goes on differently. -/
theorem infix_replaceAll (hfirst : first ∉ tail) (hkept : first ∉ kept)
    (hapart : ¬ (tail <+: kept ∨ kept <+: tail)) (h : first :: kept <:+: cs) :
    first :: kept <:+: replaceAll (first :: tail) replacement cs := by
  obtain ⟨before, after, rfl⟩ := h
  have hstays : ¬ first :: tail <+: first :: (kept ++ after) := by
    intro hstart
    apply hapart
    exact List.prefix_or_prefix_of_prefix (List.cons_prefix_cons.mp hstart).2
      (List.prefix_append kept after)
  rw [List.append_assoc, List.cons_append, replaceAll_append_cons hfirst,
    replaceAll_of_stays hstays, replaceAll_append_of_notMem hkept]
  exact ⟨_, _, List.append_assoc _ _ _⟩

end DirectoryBrowser.Text
