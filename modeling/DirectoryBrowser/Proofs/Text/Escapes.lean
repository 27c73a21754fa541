import DirectoryBrowser.Proofs.Text.Percent
import DirectoryBrowser.Proofs.Text.Replacing

/-!
# Texts with escapes

A text with escapes spells bytes: a percent sign begins an escape, and every other
character spells its own bytes. Decoding reads off the bytes that are spelled,
wherever the escapes stand. Escaping what must be escaped leaves what a text spells
as it was, and a percent sign that is itself escaped spells a percent sign.
-/

namespace DirectoryBrowser.Text

variable {mustEscape : Char → Bool} {c : Char} {cs text rest : List Char} {bytes : List UInt8}

/-- The byte that two hexadecimal digits stand for. -/
def pairOf? (high low : Char) : Option UInt8 :=
  match digitIn? 16 high, digitIn? 16 low with
  | some h, some l => some (UInt8.ofNat (h * 16 + l))
  | _, _ => none

/-- Characters that must be escaped stand in the text only as escapes of their bytes, and so does
the percent sign. -/
inductive Spells (mustEscape : Char → Bool) : List Char → List UInt8 → Prop
  | nil : Spells mustEscape [] []
  | plain {c : Char} {text : List Char} {bytes : List UInt8} (hc : mustEscape c = false)
      (hpercent : c ≠ '%') (htext : Spells mustEscape text bytes) :
      Spells mustEscape (c :: text) (String.utf8EncodeChar c ++ bytes)
  | escape {high low : Char} {byte : UInt8} {text : List Char} {bytes : List UInt8}
      (hbyte : pairOf? high low = some byte) (htext : Spells mustEscape text bytes) :
      Spells mustEscape ('%' :: high :: low :: text) (byte :: bytes)

/-! ### Digits of escapes -/

theorem digitIn?_digitChar {n : Nat} (h : n < 16) : digitIn? 16 (digitChar true n) = some n := by
  have hall : ∀ m ∈ List.range 16, digitIn? 16 (digitChar true m) = some m := by decide
  exact hall n (List.mem_range.mpr h)

theorem pairOf?_hexByte (b : UInt8) :
    pairOf? (digitChar true (b.toNat / 16)) (digitChar true (b.toNat % 16)) = some b := by
  have hb := b.toNat_lt
  rw [pairOf?, digitIn?_digitChar (by omega), digitIn?_digitChar (by omega)]
  simp only [Nat.div_add_mod' b.toNat 16, UInt8.ofNat_toNat]

/-! ### Decoding -/

theorem exists_digits_of_pairOf? {high low : Char} {byte : UInt8}
    (h : pairOf? high low = some byte) :
    IsDigitOf (byte.toNat / 16) high ∧ IsDigitOf (byte.toNat % 16) low := by
  unfold pairOf? at h
  split at h
  case h_1 m n hhigh hlow =>
    obtain rfl := Option.some.inj h
    rw [digitIn?_eq_some_iff] at hhigh hlow
    have hbyte : (UInt8.ofNat (m * 16 + n)).toNat = m * 16 + n :=
      toNat_ofNat_of_lt (by have := hhigh.1; have := hlow.1; omega)
    have hn := hlow.1
    rw [hbyte, show (m * 16 + n) / 16 = m by omega, show (m * 16 + n) % 16 = n by omega]
    exact ⟨hhigh, hlow⟩
  case h_2 => cases h

/-- A text is one of the ways to write the bytes that it spells. -/
theorem Spells.writes (h : Spells mustEscape text bytes) : Writes bytes (utf8 text) := by
  induction h with
  | nil => exact .nil
  | plain _ hpercent _ ih => exact (writes_self (percentSign_notMem hpercent)).append ih
  | @escape high low byte text bytes hbyte _ ih =>
    obtain ⟨hhigh, hlow⟩ := exists_digits_of_pairOf? hbyte
    rw [utf8_cons, utf8_cons, utf8_cons, utf8EncodeChar_of_lt hhigh.toNat_lt,
      utf8EncodeChar_of_lt hlow.toNat_lt]
    exact .escape hhigh hlow ih

/-- Decoding reads off what is spelled. -/
theorem Spells.percentDecodeBytes (h : Spells mustEscape text bytes) :
    percentDecodeBytes (utf8 text) = bytes := h.writes.percentDecodeBytes

theorem Spells.percentDecode (h : Spells mustEscape text (utf8 cs)) :
    percentDecode (String.ofList text) = String.ofList cs := by
  rw [Text.percentDecode, bytesOf, String.toList_ofList, h.percentDecodeBytes, textLossy,
    decodeLossy_utf8]

theorem Spells.mustEscape_eq_false (h : Spells mustEscape text bytes)
    (hdigits : ∀ c, (digitIn? 16 c).isSome → mustEscape c = false)
    (hpercent : mustEscape '%' = false) :
    ∀ c ∈ text, mustEscape c = false := by
  induction h with
  | nil => exact fun c hc ↦ absurd hc List.not_mem_nil
  | plain hc _ _ ih => exact List.forall_mem_cons.mpr ⟨hc, ih⟩
  | @escape high low byte text bytes hbyte _ ih =>
    unfold pairOf? at hbyte
    split at hbyte
    case h_1 m n hhigh hlow =>
      refine List.forall_mem_cons.mpr ⟨hpercent, List.forall_mem_cons.mpr ⟨?_,
        List.forall_mem_cons.mpr ⟨?_, ih⟩⟩⟩
      · exact hdigits high (by simp [hhigh])
      · exact hdigits low (by simp [hlow])
    case h_2 => cases hbyte

theorem Spells.append {more : List UInt8} (h : Spells mustEscape text bytes)
    (hrest : Spells mustEscape rest more) : Spells mustEscape (text ++ rest) (bytes ++ more) := by
  induction h with
  | nil => exact hrest
  | plain hc hpercent _ ih =>
    rw [List.append_assoc]
    exact .plain hc hpercent ih
  | escape hbyte _ ih => exact .escape hbyte ih

theorem spells_escapes (mustEscape : Char → Bool) (bytes : List UInt8) :
    Spells mustEscape (bytes.flatMap fun b ↦ '%' :: hexByte b) bytes := by
  induction bytes with
  | nil => exact .nil
  | cons b bytes ih => exact .escape (pairOf?_hexByte b) ih

/-! ### Texts that are not empty -/

theorem percentDecodeBytes_ne_nil (h : bytes ≠ []) : percentDecodeBytes bytes ≠ [] := by
  match bytes with
  | [_] => simp [percentDecodeBytes]
  | [_, _] => simp [percentDecodeBytes]
  | _ :: _ :: _ :: _ =>
    rw [percentDecodeBytes]
    split_ifs
    · split <;> exact List.cons_ne_nil _ _
    · exact List.cons_ne_nil _ _

theorem utf8_ne_nil (h : cs ≠ []) : utf8 cs ≠ [] :=
  fun hnil ↦ h (utf8_inj.mp hnil)

theorem percentDecode_ne_empty (h : cs ≠ []) : percentDecode (String.ofList cs) ≠ "" := by
  obtain ⟨b, bytes, hbytes⟩ :=
    List.exists_cons_of_ne_nil (percentDecodeBytes_ne_nil (utf8_ne_nil h))
  rw [percentDecode, bytesOf, String.toList_ofList, hbytes, textLossy, decodeLossy]
  split_ifs <;> simp

/-! ### Encoding -/

/-- A text whose percent signs are escaped. -/
def escapePercent (cs : List Char) : List Char := replaceAll ['%'] "%25".toList cs

theorem escapePercent_eq (cs : List Char) :
    escapePercent cs = cs.flatMap fun c ↦ if c = '%' then "%25".toList else [c] := by
  unfold escapePercent
  induction cs with
  | nil => exact replaceAll_nil _ _
  | cons c cs ih =>
    rw [List.flatMap_cons, ← ih]
    by_cases hc : c = '%'
    · rw [if_pos hc, hc]
      exact replaceAll_of_occurs (List.cons_ne_nil _ _) _ cs
    · have hstays : ¬ ['%'] <+: c :: cs :=
        fun hstart ↦ hc (List.cons_prefix_cons.mp hstart).1.symm
      rw [if_neg hc, replaceAll_of_stays hstays, List.singleton_append]

@[simp] theorem escapePercent_nil : escapePercent [] = [] := rfl

@[simp] theorem escapePercent_cons :
    escapePercent (c :: cs) = (if c = '%' then "%25".toList else [c]) ++ escapePercent cs := by
  rw [escapePercent_eq, escapePercent_eq, List.flatMap_cons]

@[simp] theorem escapePercent_append (cs ds : List Char) :
    escapePercent (cs ++ ds) = escapePercent cs ++ escapePercent ds := by
  rw [escapePercent_eq, escapePercent_eq, escapePercent_eq, List.flatMap_append]

theorem escapePercent_of_notMem (h : '%' ∉ cs) : escapePercent cs = cs := by
  induction cs with
  | nil => rfl
  | cons c cs ih =>
    obtain ⟨hc, hrest⟩ := not_or.mp (mt List.mem_cons.mpr h)
    rw [escapePercent_cons, if_neg (Ne.symm hc), ih hrest, List.singleton_append]

theorem length_escapePercent (cs : List Char) :
    (escapePercent cs).length = cs.length + 2 * cs.count '%' := by
  induction cs with
  | nil => rfl
  | cons c cs ih =>
    by_cases hc : c = '%'
    · subst hc
      simp [ih]
      omega
    · simp [hc, ih]
      omega

/-- Only a text without percent signs is left as it is. -/
theorem escapePercent_eq_self_iff : escapePercent cs = cs ↔ '%' ∉ cs := by
  refine ⟨fun h ↦ ?_, escapePercent_of_notMem⟩
  have hlength := length_escapePercent cs
  rw [h] at hlength
  exact List.count_eq_zero.mp (by omega)

@[simp] theorem percentEncode_nil : percentEncode mustEscape [] = [] := rfl

@[simp] theorem percentEncode_cons :
    percentEncode mustEscape (c :: cs) =
      (if mustEscape c then (String.utf8EncodeChar c).flatMap fun b ↦ '%' :: hexByte b else [c]) ++
        percentEncode mustEscape cs :=
  List.flatMap_cons

@[simp] theorem percentEncode_append (cs ds : List Char) :
    percentEncode mustEscape (cs ++ ds) =
      percentEncode mustEscape cs ++ percentEncode mustEscape ds :=
  List.flatMap_append

theorem percentEncode_of_plain (h : ∀ c ∈ cs, mustEscape c = false) :
    percentEncode mustEscape cs = cs := by
  induction cs with
  | nil => rfl
  | cons c cs ih =>
    obtain ⟨hc, hrest⟩ := List.forall_mem_cons.mp h
    rw [percentEncode_cons, hc, ih hrest]
    rfl

theorem percentEncode_ne_nil (h : cs ≠ []) : percentEncode mustEscape cs ≠ [] := by
  obtain ⟨c, rest, rfl⟩ := List.exists_cons_of_ne_nil h
  rw [percentEncode_cons]
  split_ifs
  · obtain ⟨b, bytes, hbytes⟩ :=
      List.exists_cons_of_ne_nil (List.length_pos_iff.mp (length_utf8EncodeChar_pos c))
    rw [hbytes]
    exact List.cons_ne_nil _ _
  · exact List.cons_ne_nil _ _

/-- Escapes consist of percent signs and digits, and the other characters are not to be escaped. -/
theorem forall_mem_percentEncode {p : Char → Prop} (hpercent : p '%')
    (hdigits : ∀ c, (digitIn? 16 c).isSome → p c)
    (hplain : ∀ c ∈ cs, mustEscape c = false → p c) : ∀ c ∈ percentEncode mustEscape cs, p c := by
  intro c hc
  obtain ⟨d, hd, hmem⟩ := List.mem_flatMap.mp hc
  by_cases hmust : mustEscape d = true
  · rw [if_pos hmust] at hmem
    obtain ⟨b, -, hb⟩ := List.mem_flatMap.mp hmem
    have hlt := b.toNat_lt
    simp only [hexByte, List.mem_cons, List.not_mem_nil, or_false] at hb
    rcases hb with rfl | rfl | rfl
    · exact hpercent
    · exact hdigits _ (by rw [digitIn?_digitChar (by omega)]; rfl)
    · exact hdigits _ (by rw [digitIn?_digitChar (by omega)]; rfl)
  · rw [if_neg hmust] at hmem
    rw [List.mem_singleton.mp hmem]
    exact hplain d hd (by simpa using hmust)

/-- A text whose percent signs have been escaped first comes back when it is decoded. -/
theorem spells_percentEncode_escapePercent (hpercent : mustEscape '%' = false)
    (htwo : mustEscape '2' = false) (hfive : mustEscape '5' = false) (cs : List Char) :
    Spells mustEscape (percentEncode mustEscape (escapePercent cs)) (utf8 cs) := by
  induction cs with
  | nil => exact .nil
  | cons c cs ih =>
    rw [escapePercent_cons, percentEncode_append, utf8_cons]
    refine Spells.append ?_ ih
    by_cases hc : c = '%'
    · subst hc
      have hplain : percentEncode mustEscape "%25".toList = "%25".toList :=
        percentEncode_of_plain (by simp [hpercent, htwo, hfive])
      rw [if_pos rfl, hplain]
      exact .escape (by decide) .nil
    · rw [if_neg hc, percentEncode_cons, percentEncode_nil, List.append_nil]
      by_cases hmust : mustEscape c = true
      · rw [if_pos hmust]
        exact spells_escapes mustEscape _
      · rw [if_neg hmust, ← List.append_nil (String.utf8EncodeChar c)]
        exact .plain (by simpa using hmust) hc .nil

end DirectoryBrowser.Text
