import Mathlib.Data.List.Forall2
import DirectoryBrowser.Text.Utf8

/-!
# Decoding what was encoded

Decoding finds every character of an encoded text again, since the leading byte of
a character fixes the ranges of the bytes after it. A byte below 0x80 stands for
itself and occurs in no longer sequence, so a text has an ASCII character where its
encoding has that byte.
-/

namespace DirectoryBrowser.Text

variable {c d : Char} {cs ds : List Char} {bytes : List UInt8}

@[simp] theorem utf8_nil : utf8 [] = [] := rfl

@[simp] theorem utf8_cons : utf8 (c :: cs) = String.utf8EncodeChar c ++ utf8 cs := rfl

@[simp] theorem utf8_append : utf8 (cs ++ ds) = utf8 cs ++ utf8 ds :=
  List.flatMap_append

theorem toNat_ofNat_of_lt {n : Nat} (h : n < 0x100) : (UInt8.ofNat n).toNat = n :=
  UInt8.toNat_ofNat_of_lt' h

/-- The four lengths of a sequence. -/
theorem utf8EncodeChar_cases (c : Char) :
    (c.toNat < 0x80 ∧ String.utf8EncodeChar c = [UInt8.ofNat c.toNat]) ∨
    (0x80 ≤ c.toNat ∧ c.toNat < 0x800 ∧ String.utf8EncodeChar c =
      [UInt8.ofNat (c.toNat / 64 % 32 + 192), UInt8.ofNat (c.toNat % 64 + 128)]) ∨
    (0x800 ≤ c.toNat ∧ c.toNat < 0x10000 ∧ String.utf8EncodeChar c =
      [UInt8.ofNat (c.toNat / 4096 % 16 + 224), UInt8.ofNat (c.toNat / 64 % 64 + 128),
        UInt8.ofNat (c.toNat % 64 + 128)]) ∨
    (0x10000 ≤ c.toNat ∧ String.utf8EncodeChar c =
      [UInt8.ofNat (c.toNat / 262144 % 8 + 240), UInt8.ofNat (c.toNat / 4096 % 64 + 128),
        UInt8.ofNat (c.toNat / 64 % 64 + 128), UInt8.ofNat (c.toNat % 64 + 128)]) := by
  have hdef : String.utf8EncodeChar c = if c.toNat ≤ 0x7F then _ else if c.toNat ≤ 0x7FF then _
    else if c.toNat ≤ 0xFFFF then _ else _ := rfl
  by_cases h1 : c.toNat < 0x80
  · exact Or.inl ⟨h1, hdef.trans (if_pos (by omega))⟩
  rw [if_neg (by omega)] at hdef
  by_cases h2 : c.toNat < 0x800
  · exact Or.inr (Or.inl ⟨by omega, h2, hdef.trans (if_pos (by omega))⟩)
  rw [if_neg (by omega)] at hdef
  by_cases h3 : c.toNat < 0x10000
  · exact Or.inr (Or.inr (Or.inl ⟨by omega, h3, hdef.trans (if_pos (by omega))⟩))
  rw [if_neg (by omega)] at hdef
  exact Or.inr (Or.inr (Or.inr ⟨by omega, hdef⟩))

theorem utf8EncodeChar_of_lt (hc : c.toNat < 0x80) :
    String.utf8EncodeChar c = [UInt8.ofNat c.toNat] :=
  if_pos (Nat.le_of_lt_succ hc)

theorem length_utf8EncodeChar_pos (c : Char) : 0 < (String.utf8EncodeChar c).length := by
  rcases utf8EncodeChar_cases c with ⟨-, h⟩ | ⟨-, -, h⟩ | ⟨-, -, h⟩ | ⟨-, h⟩ <;> simp [h]

/-! ### Decoding -/

/-- The bytes lie in the ranges one by one. -/
def Fit (ranges : List (Nat × Nat)) (following : List UInt8) : Prop :=
  List.Forall₂ (fun range b ↦ range.1 ≤ b.toNat ∧ b.toNat ≤ range.2) ranges following

theorem matching_append {ranges : List (Nat × Nat)} {following : List UInt8}
    (h : Fit ranges following) (bytes : List UInt8) :
    matching ranges (following ++ bytes) = following := by
  induction h with
  | nil => rfl
  | @cons range b ranges following hb _ ih =>
    rw [List.cons_append, matching, if_pos hb, ih]

theorem decodeLossy_append {lead : UInt8} {ranges : List (Nat × Nat)} {following : List UInt8}
    (hranges : continuations lead = ranges) (hne : ranges ≠ []) (hfit : Fit ranges following)
    (hlead : 0x80 ≤ lead.toNat) (hcode : codePoint lead following = c.toNat) :
    decodeLossy (lead :: following ++ bytes) = c :: decodeLossy bytes := by
  have hlength : following.length = ranges.length := hfit.length_eq.symm
  rw [List.cons_append, decodeLossy, if_neg (by omega)]
  simp only [hranges, matching_append hfit, hlength, Nat.lt_irrefl, decide_false, Bool.or_false,
    List.isEmpty_iff, hne, if_false, hcode, Char.ofNat_toNat]
  rw [← hlength, List.drop_left]

theorem decodeLossy_cons (c : Char) (bytes : List UInt8) :
    decodeLossy (String.utf8EncodeChar c ++ bytes) = c :: decodeLossy bytes := by
  have hvalid : c.toNat < 0xD800 ∨ 0xDFFF < c.toNat ∧ c.toNat < 0x110000 := c.valid
  have htail : (UInt8.ofNat (c.toNat % 64 + 128)).toNat = c.toNat % 64 + 128 :=
    toNat_ofNat_of_lt (by omega)
  have hmiddle : (UInt8.ofNat (c.toNat / 64 % 64 + 128)).toNat = c.toNat / 64 % 64 + 128 :=
    toNat_ofNat_of_lt (by omega)
  have hsecond : (UInt8.ofNat (c.toNat / 4096 % 64 + 128)).toNat = c.toNat / 4096 % 64 + 128 :=
    toNat_ofNat_of_lt (by omega)
  rcases utf8EncodeChar_cases c with ⟨h, hbytes⟩ | ⟨hlow, hhigh, hbytes⟩ | ⟨hlow, hhigh, hbytes⟩ |
    ⟨hlow, hbytes⟩
  · have hlead := toNat_ofNat_of_lt (show c.toNat < 0x100 by omega)
    rw [hbytes, List.singleton_append, decodeLossy, hlead, if_pos h, Char.ofNat_toNat]
  · have hlead := toNat_ofNat_of_lt (show c.toNat / 64 % 32 + 192 < 0x100 by omega)
    have hranges : continuations (UInt8.ofNat (c.toNat / 64 % 32 + 192)) = [(0x80, 0xBF)] := by
      rw [continuations, hlead]
      exact if_pos (by omega)
    rw [hbytes]
    apply decodeLossy_append hranges
    · exact List.cons_ne_nil _ _
    · exact .cons (by rw [htail]; omega) .nil
    · omega
    · simp only [codePoint, List.length_cons, List.length_nil, List.foldl_cons, List.foldl_nil,
        hlead, htail]
      omega
  · have hlead := toNat_ofNat_of_lt (show c.toNat / 4096 % 16 + 224 < 0x100 by omega)
    have hranges : ∃ low high, continuations (UInt8.ofNat (c.toNat / 4096 % 16 + 224)) =
        [(low, high), (0x80, 0xBF)] ∧
        low ≤ c.toNat / 64 % 64 + 128 ∧ c.toNat / 64 % 64 + 128 ≤ high := by
      rw [continuations, hlead, if_neg (by omega)]
      split_ifs
      · exact ⟨_, _, rfl, by omega, by omega⟩
      · exact ⟨_, _, rfl, by omega, by omega⟩
      · exact ⟨_, _, rfl, by omega, by omega⟩
      all_goals omega
    obtain ⟨low, high, hranges, hfirst⟩ := hranges
    rw [hbytes]
    apply decodeLossy_append hranges
    · exact List.cons_ne_nil _ _
    · exact .cons (by rwa [hmiddle]) (.cons (by rw [htail]; omega) .nil)
    · omega
    · simp only [codePoint, List.length_cons, List.length_nil, List.foldl_cons, List.foldl_nil,
        hlead, hmiddle, htail]
      omega
  · have hlead := toNat_ofNat_of_lt (show c.toNat / 262144 % 8 + 240 < 0x100 by omega)
    have hranges : ∃ low high, continuations (UInt8.ofNat (c.toNat / 262144 % 8 + 240)) =
        [(low, high), (0x80, 0xBF), (0x80, 0xBF)] ∧
        low ≤ c.toNat / 4096 % 64 + 128 ∧ c.toNat / 4096 % 64 + 128 ≤ high := by
      rw [continuations, hlead, if_neg (by omega), if_neg (by omega), if_neg (by omega),
        if_neg (by omega)]
      split_ifs
      · exact ⟨_, _, rfl, by omega, by omega⟩
      · exact ⟨_, _, rfl, by omega, by omega⟩
      · exact ⟨_, _, rfl, by omega, by omega⟩
      all_goals omega
    obtain ⟨low, high, hranges, hfirst⟩ := hranges
    rw [hbytes]
    apply decodeLossy_append hranges
    · exact List.cons_ne_nil _ _
    · exact .cons (by rwa [hsecond])
        (.cons (by rw [hmiddle]; omega) (.cons (by rw [htail]; omega) .nil))
    · omega
    · simp only [codePoint, List.length_cons, List.length_nil, List.foldl_cons, List.foldl_nil,
        hlead, hsecond, hmiddle, htail]
      omega

@[simp] theorem decodeLossy_utf8 (cs : List Char) : decodeLossy (utf8 cs) = cs := by
  induction cs with
  | nil => rw [utf8_nil, decodeLossy]
  | cons c cs ih => rw [utf8_cons, decodeLossy_cons, ih]

theorem utf8_inj : utf8 cs = utf8 ds ↔ cs = ds := by
  refine ⟨fun h ↦ ?_, congrArg utf8⟩
  rw [← decodeLossy_utf8 cs, h, decodeLossy_utf8]

theorem text?_eq_some_iff {s : String} : text? bytes = some s ↔ bytesOf s = bytes := by
  unfold text? bytesOf
  constructor
  · intro h
    by_cases hbytes : utf8 (decodeLossy bytes) = bytes
    · simp only [hbytes, if_true, Option.some.injEq] at h
      rw [← h, String.toList_ofList, hbytes]
    · simp [hbytes] at h
  · rintro rfl
    simp

theorem textLossy_of_text? {s : String} (h : text? bytes = some s) : textLossy bytes = s := by
  rw [text?_eq_some_iff] at h
  rw [textLossy, ← h, bytesOf, decodeLossy_utf8, String.ofList_toList]

/-! ### ASCII characters -/

theorem lt_of_within {ranges : List (Nat × Nat)} {bound : Nat} (h : within c ranges = true)
    (hbound : ∀ range ∈ ranges, range.2 < bound) : c.toNat < bound := by
  obtain ⟨range, hrange, hinside⟩ := List.any_eq_true.mp h
  exact Nat.lt_of_le_of_lt (of_decide_eq_true (Bool.and_eq_true_iff.mp hinside).2)
    (hbound range hrange)

theorem forall_ascii {p : Char → Prop} (h : ∀ n ∈ List.range 128, p (Char.ofNat n)) {c : Char}
    (hc : c.toNat < 128) : p c := by
  have hchar := h c.toNat (List.mem_range.mpr hc)
  rwa [Char.ofNat_toNat] at hchar

theorem toNat_charOfNat {n : Nat} (h : n < 0xD800) : (Char.ofNat n).toNat = n := by
  unfold Char.ofNat
  rw [dif_pos (show n.isValidChar from Or.inl h)]
  rfl

/-- Sequences of more than one byte keep clear of ASCII. -/
theorem le_of_mem_utf8EncodeChar (hc : 0x80 ≤ c.toNat) {b : UInt8}
    (hb : b ∈ String.utf8EncodeChar c) : 0x80 ≤ b.toNat := by
  have hvalid : c.toNat < 0xD800 ∨ 0xDFFF < c.toNat ∧ c.toNat < 0x110000 := c.valid
  have hhigh (n : Nat) (hn : 0x80 ≤ n ∧ n < 0x100) : 0x80 ≤ (UInt8.ofNat n).toNat := by
    rw [toNat_ofNat_of_lt hn.2]
    exact hn.1
  rcases utf8EncodeChar_cases c with ⟨h, -⟩ | ⟨-, -, hbytes⟩ | ⟨-, -, hbytes⟩ | ⟨-, hbytes⟩
  · omega
  all_goals
    rw [hbytes] at hb
    simp only [List.mem_cons, List.not_mem_nil, or_false] at hb
  · rcases hb with rfl | rfl <;> exact hhigh _ (by omega)
  · rcases hb with rfl | rfl | rfl <;> exact hhigh _ (by omega)
  · rcases hb with rfl | rfl | rfl | rfl <;> exact hhigh _ (by omega)

/-- A byte below 0x80 at the front is a character of its own. -/
theorem exists_of_utf8_eq_cons {b : UInt8} (hb : b.toNat < 0x80) (h : utf8 cs = b :: bytes) :
    ∃ c rest, cs = c :: rest ∧ b = UInt8.ofNat c.toNat ∧ c.toNat < 0x80 ∧ utf8 rest = bytes := by
  cases cs with
  | nil => cases h
  | cons c rest =>
    rw [utf8_cons] at h
    by_cases hc : c.toNat < 0x80
    · rw [utf8EncodeChar_of_lt hc, List.singleton_append] at h
      obtain ⟨hbyte, hrest⟩ := List.cons.inj h
      exact ⟨c, rest, rfl, hbyte.symm, hc, hrest⟩
    · obtain ⟨lead, tail, hlead⟩ :=
        List.exists_cons_of_ne_nil (List.length_pos_iff.mp (length_utf8EncodeChar_pos c))
      have hhigh := le_of_mem_utf8EncodeChar (Nat.le_of_not_lt hc) (hlead ▸ List.mem_cons_self)
      rw [hlead, List.cons_append] at h
      rw [(List.cons.inj h).1] at hhigh
      omega

theorem mem_utf8_iff (hd : d.toNat < 0x80) : UInt8.ofNat d.toNat ∈ utf8 cs ↔ d ∈ cs := by
  have hbyte := toNat_ofNat_of_lt (show d.toNat < 0x100 by omega)
  rw [utf8, List.mem_flatMap]
  constructor
  · rintro ⟨c, hc, hmem⟩
    by_cases hascii : c.toNat < 0x80
    · rw [utf8EncodeChar_of_lt hascii, List.mem_singleton] at hmem
      have heq := congrArg UInt8.toNat hmem
      rw [hbyte, toNat_ofNat_of_lt (by omega)] at heq
      rwa [← Char.ofNat_toNat d, heq, Char.ofNat_toNat]
    · have hle := le_of_mem_utf8EncodeChar (by omega) hmem
      omega
  · intro hmem
    exact ⟨d, hmem, by rw [utf8EncodeChar_of_lt hd]; exact List.mem_singleton_self _⟩

end DirectoryBrowser.Text
