import Mathlib.Data.List.Infix
import DirectoryBrowser.Proofs.Text.Utf8
import DirectoryBrowser.Text.Percent

/-!
# Percent escapes undone

The bytes of a text can be written in many ways: each of them as it is or as an
escape, with digits of either case, except that a percent sign must not stand for
itself. Decoding leads back from all of them, and it leaves a text alone that has no
escapes. Escapes are read off bytes, but their digits are found in the text too,
since a byte below 0x80 is always a character.
-/

namespace DirectoryBrowser.Text

variable {c high low : Char} {b : UInt8} {cs : List Char} {bytes written : List UInt8} {n : Nat}

/-! ### Hexadecimal digits -/

/-- The digit of a number below sixteen, in either case. -/
def IsDigitOf (n : Nat) (c : Char) : Prop := n < 16 ∧ (c = n.digitChar ∨ c = n.digitChar.toUpper)

instance (n : Nat) (c : Char) : Decidable (IsDigitOf n c) :=
  inferInstanceAs (Decidable (n < 16 ∧ (c = n.digitChar ∨ c = n.digitChar.toUpper)))

theorem lt_of_digitValue? {n : Nat} (h : digitValue? c = some n) : c.toNat < 0x80 := by
  unfold digitValue? at h
  split_ifs at h with hdecimal hlower hupper
  · exact lt_of_within hdecimal (by decide)
  · exact lt_of_within hlower (by decide)
  · exact lt_of_within hupper (by decide)

theorem lt_of_digitIn? {base n : Nat} (h : digitIn? base c = some n) : c.toNat < 0x80 := by
  obtain ⟨hvalue, -⟩ := Option.filter_eq_some_iff.mp h
  exact lt_of_digitValue? hvalue

theorem hexValue?_ofNat (hc : c.toNat < 0x80) :
    hexValue? (UInt8.ofNat c.toNat) = digitIn? 16 c := by
  rw [hexValue?, toNat_ofNat_of_lt (by omega), Char.ofNat_toNat]

theorem digitIn?_eq_some_iff : digitIn? 16 c = some n ↔ IsDigitOf n c := by
  constructor
  · intro h
    have hascii : ∀ n ∈ digitIn? 16 c, IsDigitOf n c :=
      forall_ascii (p := fun c ↦ ∀ n ∈ digitIn? 16 c, IsDigitOf n c) (by decide +kernel)
        (lt_of_digitIn? h)
    exact hascii n h
  · rintro ⟨hn, hc⟩
    have hdigits : ∀ n < 16, digitIn? 16 n.digitChar = some n ∧
        digitIn? 16 n.digitChar.toUpper = some n := by decide
    rcases hc with rfl | rfl
    · exact (hdigits n hn).1
    · exact (hdigits n hn).2

theorem IsDigitOf.toNat_lt (h : IsDigitOf n c) : c.toNat < 0x80 :=
  lt_of_digitIn? (digitIn?_eq_some_iff.mpr h)

theorem IsDigitOf.hexValue?_eq (h : IsDigitOf n c) : hexValue? (UInt8.ofNat c.toNat) = some n := by
  rw [hexValue?_ofNat h.toNat_lt, digitIn?_eq_some_iff.mpr h]

/-! ### Ways to write bytes -/

/-- Bytes, and what they are written as with some of them escaped. -/
inductive Writes : List UInt8 → List UInt8 → Prop
  | nil : Writes [] []
  | plain {b : UInt8} {bytes written : List UInt8} (hb : b ≠ percentSign)
      (hrest : Writes bytes written) : Writes (b :: bytes) (b :: written)
  | escape {b : UInt8} {high low : Char} {bytes written : List UInt8}
      (hhigh : IsDigitOf (b.toNat / 16) high) (hlow : IsDigitOf (b.toNat % 16) low)
      (hrest : Writes bytes written) :
      Writes (b :: bytes)
        (percentSign :: UInt8.ofNat high.toNat :: UInt8.ofNat low.toNat :: written)

theorem writes_self (h : percentSign ∉ bytes) : Writes bytes bytes := by
  induction bytes with
  | nil => exact .nil
  | cons b bytes ih =>
    obtain ⟨hb, hrest⟩ := not_or.mp (mt List.mem_cons.mpr h)
    exact .plain (Ne.symm hb) (ih hrest)

theorem Writes.append {more rest : List UInt8} (h : Writes bytes written)
    (hrest : Writes more rest) : Writes (bytes ++ more) (written ++ rest) := by
  induction h with
  | nil => exact hrest
  | plain hb _ ih => exact .plain hb ih
  | escape hhigh hlow _ ih => exact .escape hhigh hlow ih

theorem percentDecodeBytes_cons {b : UInt8} (hb : b ≠ percentSign) (bytes : List UInt8) :
    percentDecodeBytes (b :: bytes) = b :: percentDecodeBytes bytes := by
  match bytes with
  | [] => simp [percentDecodeBytes]
  | [_] => simp [percentDecodeBytes]
  | _ :: _ :: _ => rw [percentDecodeBytes, if_neg hb]

theorem percentDecodeBytes_append {front : List UInt8} (hfront : percentSign ∉ front)
    (bytes : List UInt8) :
    percentDecodeBytes (front ++ bytes) = front ++ percentDecodeBytes bytes := by
  induction front with
  | nil => rfl
  | cons b front ih =>
    obtain ⟨hb, hrest⟩ := not_or.mp (mt List.mem_cons.mpr hfront)
    rw [List.cons_append, percentDecodeBytes_cons (Ne.symm hb), ih hrest, List.cons_append]

theorem percentSign_notMem (hc : c ≠ '%') : percentSign ∉ String.utf8EncodeChar c := by
  have hmem : percentSign ∈ utf8 [c] ↔ '%' ∈ [c] :=
    mem_utf8_iff (show '%'.toNat < 0x80 by decide)
  rw [utf8_cons, utf8_nil, List.append_nil, List.mem_singleton] at hmem
  exact fun h ↦ hc (hmem.mp h).symm

theorem escapedByte?_of_isDigitOf (hhigh : IsDigitOf (b.toNat / 16) high)
    (hlow : IsDigitOf (b.toNat % 16) low) :
    escapedByte? (UInt8.ofNat high.toNat) (UInt8.ofNat low.toNat) = some b := by
  rw [escapedByte?, hhigh.hexValue?_eq, hlow.hexValue?_eq]
  simp only [Nat.div_add_mod', UInt8.ofNat_toNat]

/-- Whichever bytes are escaped, decoding finds them all. -/
theorem Writes.percentDecodeBytes (h : Writes bytes written) :
    percentDecodeBytes written = bytes := by
  induction h with
  | nil => rfl
  | plain hb _ ih => rw [percentDecodeBytes_cons hb, ih]
  | escape hhigh hlow _ ih =>
    rw [Text.percentDecodeBytes, if_pos rfl, escapedByte?_of_isDigitOf hhigh hlow]
    simp only [ih]

/-! ### Texts without escapes -/

def hexDigits : List Char := "0123456789abcdefABCDEF".toList

theorem mem_hexDigits (h : digitIn? 16 c = some n) : c ∈ hexDigits :=
  forall_ascii (p := fun c ↦ (digitIn? 16 c).isSome → c ∈ hexDigits) (by decide +kernel)
    (lt_of_digitIn? h) (Option.isSome_of_eq_some h)

/-- Somewhere in the text there is a percent sign with two digits behind it. -/
def HasEscape (cs : List Char) : Prop :=
  ∃ high ∈ hexDigits, ∃ low ∈ hexDigits, ['%', high, low] <:+: cs

instance (cs : List Char) : Decidable (HasEscape cs) :=
  decidable_of_iff (hexDigits.any fun high ↦ hexDigits.any fun low ↦
    decide (['%', high, low] <:+: cs)) (by simp [HasEscape])

theorem HasEscape.cons (h : HasEscape cs) (c : Char) : HasEscape (c :: cs) := by
  obtain ⟨high, hhigh, low, hlow, hinfix⟩ := h
  exact ⟨high, hhigh, low, hlow, hinfix.trans (List.suffix_cons c cs).isInfix⟩

theorem lt_of_hexValue? (h : hexValue? b = some n) : b.toNat < 0x80 := by
  have hb := b.toNat_lt
  have hlt := lt_of_digitIn? h
  rwa [toNat_charOfNat (by omega)] at hlt

/-- What is read as an escape begins with two digits of the text. -/
theorem hasEscape_of_escapedByte? {first second byte : UInt8}
    (hcs : utf8 cs = first :: second :: bytes) (hbyte : escapedByte? first second = some byte) :
    HasEscape ('%' :: cs) := by
  unfold escapedByte? at hbyte
  split at hbyte
  case h_1 m n hfirst hsecond =>
    obtain ⟨high, rest, rfl, rfl, hhigh, hrest⟩ := exists_of_utf8_eq_cons (lt_of_hexValue? hfirst) hcs
    obtain ⟨low, rest, rfl, rfl, hlow, -⟩ := exists_of_utf8_eq_cons (lt_of_hexValue? hsecond) hrest
    rw [hexValue?_ofNat hhigh] at hfirst
    rw [hexValue?_ofNat hlow] at hsecond
    exact ⟨high, mem_hexDigits hfirst, low, mem_hexDigits hsecond,
      (List.prefix_append ['%', high, low] rest).isInfix⟩
  case h_2 => cases hbyte

theorem percentDecodeBytes_percentSign
    (h : ∀ first second rest, bytes = first :: second :: rest → escapedByte? first second = none) :
    percentDecodeBytes (percentSign :: bytes) = percentSign :: percentDecodeBytes bytes := by
  match bytes with
  | [] => rfl
  | [_] => rfl
  | first :: second :: rest =>
    rw [percentDecodeBytes, if_pos rfl, h first second rest rfl]

theorem percentDecodeBytes_of_not_hasEscape (h : ¬ HasEscape cs) :
    percentDecodeBytes (utf8 cs) = utf8 cs := by
  induction cs with
  | nil => rfl
  | cons c cs ih =>
    have hrest : percentDecodeBytes (utf8 cs) = utf8 cs := ih fun hcs ↦ h (hcs.cons c)
    by_cases hc : c = '%'
    · subst hc
      have hnone : ∀ first second rest, utf8 cs = first :: second :: rest →
          escapedByte? first second = none := by
        intro first second rest hcs
        exact Option.eq_none_iff_forall_ne_some.mpr fun byte hbyte ↦
          h (hasEscape_of_escapedByte? hcs hbyte)
      calc percentDecodeBytes (utf8 ('%' :: cs))
        _ = percentDecodeBytes (percentSign :: utf8 cs) := rfl
        _ = percentSign :: utf8 cs := by rw [percentDecodeBytes_percentSign hnone, hrest]
        _ = utf8 ('%' :: cs) := rfl
    · rw [utf8_cons, percentDecodeBytes_append (percentSign_notMem hc), hrest]

/-- However the bytes of a text are written, with whichever of them escaped, decoding gives the
text back, and a text without escapes is left as it is. -/
theorem percentDecode_undoes (s : String) :
    (∀ t, Writes (bytesOf s) (bytesOf t) → percentDecode t = s) ∧
      (¬ HasEscape s.toList → percentDecode s = s) := by
  have hdecoded {t : String} (h : percentDecodeBytes (bytesOf t) = bytesOf s) :
      percentDecode t = s := by
    rw [percentDecode, h]
    exact textLossy_of_text? (text?_eq_some_iff.mpr rfl)
  exact ⟨fun t h ↦ hdecoded h.percentDecodeBytes,
    fun h ↦ hdecoded (percentDecodeBytes_of_not_hasEscape h)⟩

/-- Of two equal characters one is escaped and the other is not, and a percent sign with a single
digit behind it stays. -/
theorem percentDecode_undoes_mixed :
    Writes (bytesOf "1éé%") (bytesOf "1%c3%A9é%25") ∧ percentDecode "1%c3%A9é%25" = "1éé%" ∧
      ¬ HasEscape "100%4é%zz%".toList ∧ percentDecode "100%4é%zz%" = "100%4é%zz%" := by
  have hwrites : Writes (bytesOf "1éé%") (bytesOf "1%c3%A9é%25") :=
    .plain (by decide) <|
    @Writes.escape 0xC3 'c' '3' _ _ (by decide) (by decide) <|
    @Writes.escape 0xA9 'A' '9' _ _ (by decide) (by decide) <|
    .plain (by decide) <| .plain (by decide) <|
    @Writes.escape 0x25 '2' '5' _ _ (by decide) (by decide) .nil
  have hplain : ¬ HasEscape "100%4é%zz%".toList := by decide +kernel
  exact ⟨hwrites, (percentDecode_undoes "1éé%").1 _ hwrites, hplain,
    (percentDecode_undoes "100%4é%zz%").2 hplain⟩

end DirectoryBrowser.Text
