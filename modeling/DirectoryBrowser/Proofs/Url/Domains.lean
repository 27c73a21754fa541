import DirectoryBrowser.Proofs.Paths
import DirectoryBrowser.Proofs.Text.Utf8
import DirectoryBrowser.Proofs.Url.Punycode

/-!
# Domain names read back

What comes out of the conversion of a name goes through it again unchanged: its
characters are lower-case ASCII characters that no URL is cut at, so folding leaves
them alone, and each label is either one that was accepted as it stood or one that
decodes to what it was made from.
-/

namespace DirectoryBrowser.Domain

open Text

variable {c d : Char} {label name ascii : List Char} {labels : List (List Char)}

/-! ### Characters -/

/-- A character as it stands in a name that has been converted. -/
structure IsPlain (c : Char) : Prop where
  ascii : isAscii c = true
  folded : fold c = [c]
  allowed : isForbidden c = false

instance (c : Char) : Decidable (IsPlain c) :=
  decidable_of_iff (isAscii c = true ∧ fold c = [c] ∧ isForbidden c = false)
    ⟨fun h ↦ ⟨h.1, h.2.1, h.2.2⟩, fun h ↦ ⟨h.ascii, h.folded, h.allowed⟩⟩

theorem isPlain_puny : ∀ d < 36, IsPlain (puny d) ∧ puny d ≠ '.' := by decide

theorem fold_of_ascii (hascii : d.toNat < 128) (hupper : d.toNat < 0x41 ∨ 0x5A < d.toNat) :
    fold d = [d] := by
  have hall : ∀ n ∈ List.range 128, (Char.ofNat n).toNat < 0x41 ∨ 0x5A < (Char.ofNat n).toNat →
      fold (Char.ofNat n) = [Char.ofNat n] := by decide +kernel
  exact forall_ascii (p := fun d ↦ d.toNat < 0x41 ∨ 0x5A < d.toNat → fold d = [d]) hall hascii
    hupper

theorem of_mem_ite {p : Prop} [Decidable p] {front back : List Char}
    (h : c ∈ if p then front else back) : p ∧ c ∈ front ∨ c ∈ back := by
  split at h
  case isTrue hp => exact Or.inl ⟨hp, h⟩
  case isFalse => exact Or.inr h

/-- Folding leaves no capital letters behind. -/
theorem fold_of_mem_fold (hd : d ∈ fold c) (hascii : d.toNat < 128) : fold d = [d] := by
  apply fold_of_ascii hascii
  by_cases hc : c.toNat < 128
  · have hall : ∀ n ∈ List.range 128, (fold (Char.ofNat n)).all
        (fun d ↦ d.toNat < 0x41 ∨ 0x5A < d.toNat) = true := by decide +kernel
    have hfold := forall_ascii
      (p := fun c ↦ (fold c).all (fun d ↦ d.toNat < 0x41 ∨ 0x5A < d.toNat) = true) hall hc
    exact of_decide_eq_true (List.all_eq_true.mp hfold d hd)
  -- Whatever else is folded is far from ASCII or goes to a letter that is no capital.
  · have hshifted {k : Nat} (hlow : c.toNat < 0x2000) (hk : k < 128)
        (heq : d ∈ [Char.ofNat (c.toNat + k)]) : d.toNat < 0x41 ∨ 0x5A < d.toNat := by
      rw [List.mem_singleton.mp heq, toNat_charOfNat (by omega)]
      omega
    have hkept (heq : d ∈ [c]) : d.toNat < 0x41 ∨ 0x5A < d.toNat := by
      rw [List.mem_singleton.mp heq]
      omega
    have hpaired {p : Prop} [Decidable p] (hlow : c.toNat < 0x2000)
        (hmem : d ∈ if p then [Char.ofNat (c.toNat + 1)] else [c]) :
        d.toNat < 0x41 ∨ 0x5A < d.toNat :=
      (of_mem_ite hmem).elim (fun h ↦ hshifted hlow (by decide) h.2) hkept
    have hwide : ∀ n ∈ List.range 128, (lowerAscii (Char.ofNat n)).toNat < 0x41 ∨
        0x5A < (lowerAscii (Char.ofNat n)).toNat := by decide +kernel
    rcases of_mem_ite hd with ⟨h, hd⟩ | hd
    · exact hshifted (lt_of_within h (by decide)) (by decide) hd
    rcases of_mem_ite hd with ⟨h, hd⟩ | hd
    · exact hshifted (lt_of_within h (by decide)) (by decide) hd
    rcases of_mem_ite hd with ⟨h, hd⟩ | hd
    · exact hpaired (lt_of_within h (by decide)) hd
    rcases of_mem_ite hd with ⟨h, hd⟩ | hd
    · exact hpaired (lt_of_within h (by decide)) hd
    rcases of_mem_ite hd with ⟨-, hd⟩ | hd
    · rw [List.mem_singleton.mp hd]
      decide
    rcases of_mem_ite hd with ⟨-, hd⟩ | hd
    · have hs : d = 's' := by simpa using hd
      rw [hs]
      decide
    rcases of_mem_ite hd with ⟨-, hd⟩ | hd
    · rw [List.mem_singleton.mp hd]
      decide
    rcases of_mem_ite hd with ⟨h, hd⟩ | hd
    · have hbound : c.toNat < 0xFF5F := lt_of_within h (by decide)
      rw [List.mem_singleton.mp hd]
      exact hwide _ (List.mem_range.mpr (by omega))
    rcases of_mem_ite hd with ⟨-, hd⟩ | hd
    · rw [List.mem_singleton.mp hd]
      decide
    rcases of_mem_ite hd with ⟨-, hd⟩ | hd
    · cases hd
    · exact hkept hd

/-! ### Labels -/

theorem isPlain_of_mem_fold (hd : d ∈ fold c) (hascii : isAscii d = true)
    (hallowed : isForbidden d = false) : IsPlain d :=
  ⟨hascii, fold_of_mem_fold hd (of_decide_eq_true hascii), hallowed⟩

/-- A label that has been encoded is a label that is accepted as it stands. -/
theorem encodeLabel?_encodeLabel? {encoded : List Char}
    (hallowed : ∀ c ∈ label, isForbidden c = false)
    (hplain : ∀ c ∈ label, isAscii c = true → IsPlain c ∧ c ≠ '.')
    (h : encodeLabel? label = some encoded) :
    encodeLabel? encoded = some encoded ∧ ∀ c ∈ encoded, IsPlain c ∧ c ≠ '.' := by
  have hmark : ∀ c ∈ "xn--".toList, IsPlain c ∧ c ≠ '.' :=
    List.forall_iff_forall_mem.mp (by decide)
  have hsame := h
  unfold encodeLabel? at hsame
  split at hsame
  · rename_i digits hdigits
    split at hsame
    · rename_i decoded hdecoded
      split at hsame
      · cases hsame
      · rename_i hcheck
        obtain rfl := Option.some.inj hsame
        have hencoded : punycode decoded = digits := by
          simp only [Bool.or_eq_true, not_or, bne_iff_ne, not_not] at hcheck
          exact hcheck.2
        have hascii : ∀ c ∈ digits, isAscii c = true := by
          rw [← hencoded]
          exact forall_mem_punycode (by decide) rfl fun c _ hc ↦ hc
        refine ⟨h, fun c hc ↦ hplain c hc ?_⟩
        rw [Path.dropStart?_eq_some_iff.mp hdigits] at hc
        exact (List.mem_append.mp hc).elim (fun hmem ↦ (hmark c hmem).1.ascii) (hascii c)
    · cases hsame
  · split at hsame
    · rename_i hascii
      obtain rfl := Option.some.inj hsame
      exact ⟨h, fun c hc ↦ hplain c hc (List.all_eq_true.mp hascii c hc)⟩
    · rename_i hascii
      obtain rfl := Option.some.inj hsame
      have hdigits : dropStart? "xn--".toList ("xn--".toList ++ punycode label) =
          some (punycode label) := Path.dropStart?_eq_some_iff.mpr rfl
      have hany : label.any isForbidden = false := List.any_eq_false.mpr fun c hc ↦ by
        simp [hallowed c hc]
      refine ⟨?_, List.forall_mem_append.mpr
        ⟨hmark, forall_mem_punycode isPlain_puny (by decide) hplain⟩⟩
      rw [encodeLabel?, hdigits]
      simp only [unpunycode?_punycode, hany, Bool.eq_false_iff.mpr hascii, bne_self_eq_false,
        Bool.or_self, Bool.false_eq_true, if_false]

/-! ### Names -/

theorem flatMap_fold (h : ∀ c ∈ name, IsPlain c) : name.flatMap fold = name := by
  induction name with
  | nil => rfl
  | cons c name ih =>
    obtain ⟨hc, hrest⟩ := List.forall_mem_cons.mp h
    rw [List.flatMap_cons, hc.folded, ih hrest, List.singleton_append]

/-- Labels that are accepted as they stand make up a name that is. -/
theorem toAscii?_joinWith (hne : labels ≠ []) (hlabels : ∀ label ∈ labels,
    encodeLabel? label = some label ∧ ∀ c ∈ label, IsPlain c ∧ c ≠ '.') :
    toAscii? (joinWith ['.'] labels) = some (joinWith ['.'] labels) := by
  have hplain : ∀ c ∈ joinWith ['.'] labels, IsPlain c := by
    refine forall_mem_joinWith (List.forall_mem_singleton.mpr (by decide)) ?_
    exact fun label hlabel c hc ↦ ((hlabels label hlabel).2 c hc).1
  have hany : (joinWith ['.'] labels).any isForbidden = false :=
    List.any_eq_false.mpr fun c hc ↦ by simp [(hplain c hc).allowed]
  have hsplit : splitOn '.' (joinWith ['.'] labels) = labels :=
    splitOn_joinWith hne fun label hlabel hdot ↦ ((hlabels label hlabel).2 _ hdot).2 rfl
  rw [toAscii?, flatMap_fold hplain]
  simp only [hany, Bool.false_eq_true, if_false, hsplit,
    mapM_eq_self fun label hlabel ↦ (hlabels label hlabel).1, Option.map_some]

/-- A name that has been converted is converted to itself. -/
theorem toAscii?_toAscii? (h : toAscii? name = some ascii) :
    toAscii? ascii = some ascii ∧ ∀ c ∈ ascii, IsPlain c := by
  unfold toAscii? at h
  dsimp only at h
  split_ifs at h with hforbidden
  obtain ⟨labels, hlabels, rfl⟩ := Option.map_eq_some_iff.mp h
  obtain ⟨hlength, hall⟩ := exists_of_mapM hlabels
  have hallowed : ∀ c ∈ name.flatMap fold, isForbidden c = false := fun c hc ↦ by
    simpa using List.any_eq_false.mp (Bool.eq_false_iff.mpr hforbidden) c hc
  have hencoded : ∀ label ∈ labels,
      encodeLabel? label = some label ∧ ∀ c ∈ label, IsPlain c ∧ c ≠ '.' := by
    intro label hlabel
    obtain ⟨piece, hpiece, hresult⟩ := hall label hlabel
    apply encodeLabel?_encodeLabel? (fun c hc ↦ hallowed c (mem_of_mem_splitOn hpiece hc)) _ hresult
    intro c hc hascii
    obtain ⟨original, -, hfold⟩ := List.mem_flatMap.mp (mem_of_mem_splitOn hpiece hc)
    refine ⟨isPlain_of_mem_fold hfold hascii (hallowed c (mem_of_mem_splitOn hpiece hc)), ?_⟩
    rintro rfl
    exact notMem_of_mem_splitOn hpiece hc
  have hne : labels ≠ [] := by
    rintro rfl
    exact splitOn_ne_nil _ _ (List.length_eq_zero_iff.mp hlength.symm)
  refine ⟨toAscii?_joinWith hne hencoded,
    forall_mem_joinWith (List.forall_mem_singleton.mpr (by decide)) ?_⟩
  exact fun label hlabel c hc ↦ ((hencoded label hlabel).2 c hc).1

end DirectoryBrowser.Domain
