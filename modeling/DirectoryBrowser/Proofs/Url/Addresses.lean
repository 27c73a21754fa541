import DirectoryBrowser.Proofs.Text.Numerals
import DirectoryBrowser.Proofs.Url.Domains
import DirectoryBrowser.Url.Host

/-!
# Addresses read back

An address is written in one way, and that is read as the address again. The pair of
colons in one of eight pieces stands where the longest run of zeros was, so there is
no other pair before it, and it is filled up to eight pieces with as many zeros as
were left out.
-/

namespace DirectoryBrowser.Host

open Text

variable {host : Host} {text : List Char} {pieces front back : List Nat} {n : Nat}

/-- Eight pieces of two bytes each. -/
structure IsAddress (pieces : List Nat) : Prop where
  length : pieces.length = 8
  bounded : ∀ piece ∈ pieces, piece < UInt16.size

/-! ### Pieces of an address -/

theorem lt_of_ipv6Piece? {digits : List Char} (h : ipv6Piece? digits = some n) :
    n < UInt16.size := by
  unfold ipv6Piece? at h
  split_ifs at h
  exact lt_of_numeral? h

theorem lt_of_embeddedIpv4? (h : embeddedIpv4? text = some pieces) :
    ∀ piece ∈ pieces, piece < UInt16.size := by
  unfold embeddedIpv4? at h
  dsimp only at h
  split at h
  · rename_i a b c d hnumbers
    obtain rfl := Option.some.inj h
    have hbyte : ∀ number ∈ [a, b, c, d], number < 256 := by
      intro number hmem
      obtain ⟨digits, -, hdigits⟩ := (exists_of_mapM hnumbers).2 number hmem
      split at hdigits
      · cases hdigits
      · exact lt_of_numeral? hdigits
    simp only [List.forall_mem_cons] at hbyte
    simp only [List.forall_mem_cons, UInt16.size]
    obtain ⟨ha, hb, hc, hd, -⟩ := hbyte
    exact ⟨by omega, by omega, fun _ hmem ↦ absurd hmem List.not_mem_nil⟩
  · cases h

theorem lt_of_ipv6Pieces? {texts : List (List Char)} (h : ipv6Pieces? texts = some pieces) :
    ∀ piece ∈ pieces, piece < UInt16.size := by
  fun_induction ipv6Pieces? texts generalizing pieces with
  | case1 =>
    obtain rfl := Option.some.inj h
    exact fun _ hmem ↦ absurd hmem List.not_mem_nil
  | case2 last hdot => exact lt_of_embeddedIpv4? h
  | case3 last hdot =>
    obtain ⟨piece, hpiece, rfl⟩ := Option.map_eq_some_iff.mp h
    exact List.forall_mem_singleton.mpr (lt_of_ipv6Piece? hpiece)
  | case4 piece texts hne n ns hn hns ih =>
    obtain rfl := Option.some.inj h
    exact List.forall_mem_cons.mpr ⟨lt_of_ipv6Piece? hns, ih hn⟩
  | case5 => cases h

theorem lt_of_ipv6Side? (h : ipv6Side? text = some pieces) :
    ∀ piece ∈ pieces, piece < UInt16.size := by
  unfold ipv6Side? at h
  split_ifs at h
  · obtain rfl := Option.some.inj h
    exact fun _ hmem ↦ absurd hmem List.not_mem_nil
  · exact lt_of_ipv6Pieces? h

theorem exists_isAddress_of_parseIpv6 (h : parseIpv6 text = .ok host) :
    ∃ pieces, host = .ipv6 pieces ∧ IsAddress pieces := by
  unfold parseIpv6 at h
  split at h
  · split at h
    · rename_i front back hfront hback
      split_ifs at h with hlength
      obtain rfl := Except.ok.inj h
      refine ⟨_, rfl, by simp; omega, ?_⟩
      simp only [List.forall_mem_append]
      refine ⟨⟨?_, fun piece hmem ↦ ?_⟩, lt_of_ipv6Side? hback⟩
      · split_ifs at hfront
        exact lt_of_ipv6Side? hfront
      · rw [List.eq_of_mem_replicate hmem]
        decide
    · cases h
  · split at h
    · rename_i pieces hpieces
      split_ifs at h with hlength
      exact ⟨pieces, (Except.ok.inj h).symm, hlength, lt_of_ipv6Pieces? hpieces⟩
    · cases h

/-! ### Pieces written out -/

/-- Pieces with single colons between them. -/
def written (pieces : List Nat) : List Char := joinWith [':'] (pieces.map hexLower)

theorem written_cons (n : Nat) (hne : pieces ≠ []) :
    written (n :: pieces) = hexLower n ++ ':' :: written pieces := by
  rw [written, List.map_cons, joinWith_cons _ _ (by simpa using hne), List.append_assoc]
  rfl

theorem hexLower_ne_nil (n : Nat) : hexLower n ≠ [] := Nat.toDigits_ne_nil

/-- Digits are neither colons nor dots nor brackets. -/
theorem forall_mem_hexLower (n : Nat) : ∀ c ∈ hexLower n, (digitIn? 16 c).isSome = true := by
  have hdigit : ∀ d < 16, (digitIn? 16 d.digitChar).isSome = true := by decide
  exact forall_mem_toDigits (by decide) hdigit n

theorem forall_mem_written (pieces : List Nat) :
    ∀ c ∈ written pieces, c = ':' ∨ (digitIn? 16 c).isSome = true := by
  apply forall_mem_joinWith
  · exact List.forall_mem_singleton.mpr (Or.inl rfl)
  · intro digits hdigits c hc
    obtain ⟨n, -, rfl⟩ := List.mem_map.mp hdigits
    exact Or.inr (forall_mem_hexLower n c hc)

theorem colon_notMem_hexLower (n : Nat) : ':' ∉ hexLower n :=
  fun hmem ↦ Bool.noConfusion (forall_mem_hexLower n _ hmem)

theorem dot_notMem_written (pieces : List Nat) : '.' ∉ written pieces := by
  intro hmem
  rcases forall_mem_written pieces _ hmem with heq | hdigit
  · cases heq
  · cases hdigit

theorem ipv6Piece?_hexLower (hn : n < UInt16.size) : ipv6Piece? (hexLower n) = some n := by
  have hlength : (hexLower n).length ≤ 4 :=
    (Nat.length_toDigits_le_iff (by decide) (by decide)).mpr hn
  rw [ipv6Piece?, if_neg (by omega)]
  exact numeral?_toDigits (by decide) (by decide) hn

theorem ipv6Pieces?_map_hexLower (h : ∀ piece ∈ pieces, piece < UInt16.size) :
    ipv6Pieces? (pieces.map hexLower) = some pieces := by
  induction pieces with
  | nil => rfl
  | cons n pieces ih =>
    obtain ⟨hn, hrest⟩ := List.forall_mem_cons.mp h
    cases pieces with
    | nil =>
      have hdot : (hexLower n).contains '.' = false := by
        simpa [written, joinWith] using dot_notMem_written [n]
      simp only [List.map_cons, List.map_nil, ipv6Pieces?, hdot, ipv6Piece?_hexLower hn]
      rfl
    | cons next pieces =>
      rw [List.map_cons, List.map_cons, ipv6Pieces?, ← List.map_cons, ih hrest,
        ipv6Piece?_hexLower hn]
      exact List.cons_ne_nil _ _

theorem splitOn_written (hne : pieces ≠ []) :
    splitOn ':' (written pieces) = pieces.map hexLower := by
  apply splitOn_joinWith (by simpa using hne)
  intro digits hdigits
  obtain ⟨n, -, rfl⟩ := List.mem_map.mp hdigits
  exact colon_notMem_hexLower n

theorem ipv6Side?_written (h : ∀ piece ∈ pieces, piece < UInt16.size) :
    ipv6Side? (written pieces) = some pieces := by
  by_cases hnil : pieces = []
  · subst hnil
    rfl
  · have hsplit := splitOn_written hnil
    have hne : written pieces ≠ [] := by
      intro hempty
      rw [hempty, splitOn] at hsplit
      obtain ⟨n, rest, rfl⟩ := List.exists_cons_of_ne_nil hnil
      exact hexLower_ne_nil n (List.cons.inj hsplit).1.symm
    rw [ipv6Side?, if_neg (by simpa using hne), hsplit, ipv6Pieces?_map_hexLower h]

/-! ### The pair of colons -/

theorem cutAt?_single {d : Char} (hd : d ≠ ':') (rest : List Char) :
    cutAt? [':', ':'] (':' :: d :: rest) =
      (cutAt? [':', ':'] (d :: rest)).map fun cut ↦ (':' :: cut.1, cut.2) := by
  have hnone : dropStart? [':', ':'] (':' :: d :: rest) = none := by
    rw [dropStart?, if_pos rfl, dropStart?, if_neg hd.symm]
  rw [cutAt?, hnone]

/-- No two colons in a row stand in what pieces are written as, nor one at its end. -/
theorem cutAt?_written (pieces : List Nat) (rest : List Char) :
    cutAt? [':', ':'] (written pieces ++ rest) =
      (cutAt? [':', ':'] rest).map fun cut ↦ (written pieces ++ cut.1, cut.2) := by
  induction pieces with
  | nil => exact (Option.map_id' (x := cutAt? [':', ':'] rest)).symm
  | cons n pieces ih =>
    cases pieces with
    | nil => exact cutAt?_append (colon_notMem_hexLower n) rest
    | cons next pieces =>
      obtain ⟨d, digits, hdigits⟩ := List.exists_cons_of_ne_nil (hexLower_ne_nil next)
      have hd : d ≠ ':' := by
        rintro rfl
        exact colon_notMem_hexLower next (hdigits ▸ List.mem_cons_self)
      obtain ⟨tail, htail⟩ : ∃ tail, written (next :: pieces) = d :: tail := by
        cases pieces with
        | nil => exact ⟨digits, hdigits⟩
        | cons =>
          exact ⟨_, by rw [written_cons next (List.cons_ne_nil _ _), hdigits, List.cons_append]⟩
      have hwritten := written_cons n (List.cons_ne_nil next pieces)
      rw [htail] at ih hwritten
      rw [hwritten, List.append_assoc, cutAt?_append (colon_notMem_hexLower n), List.cons_append,
        List.cons_append, cutAt?_single hd, ← List.cons_append, ih, Option.map_map, Option.map_map]
      simp [Function.comp_def]

/-! ### Runs of zeros -/

theorem zeroRun_spec (pieces : List Nat) :
    ∃ back, pieces = List.replicate (zeroRun pieces) 0 ++ back := by
  fun_induction zeroRun pieces with
  | case1 pieces ih =>
    obtain ⟨back, hback⟩ := ih
    refine ⟨back, ?_⟩
    rw [List.replicate_succ, List.cons_append, ← hback]
  | case2 => exact ⟨_, rfl⟩

theorem longestZeroRun_spec (start : Nat) (pieces : List Nat) :
    ∃ front back, (longestZeroRun start pieces).1 = start + front.length ∧
      pieces = front ++ List.replicate (longestZeroRun start pieces).2 0 ++ back := by
  induction pieces generalizing start with
  | nil => exact ⟨[], [], rfl, rfl⟩
  | cons n pieces ih =>
    rw [longestZeroRun]
    split_ifs
    · obtain ⟨back, hback⟩ := zeroRun_spec (n :: pieces)
      exact ⟨[], back, rfl, hback⟩
    · obtain ⟨front, back, hstart, hpieces⟩ := ih (start + 1)
      refine ⟨n :: front, back, ?_, ?_⟩
      · rw [hstart, List.length_cons]
        omega
      · rw [List.cons_append, List.cons_append, ← hpieces]

theorem forall_mem_ipv6Text (pieces : List Nat) :
    ∀ c ∈ ipv6Text pieces, c = ':' ∨ (digitIn? 16 c).isSome = true := by
  unfold ipv6Text
  dsimp only
  split_ifs
  · exact forall_mem_written pieces
  · simp only [List.forall_mem_append]
    exact ⟨⟨forall_mem_written _, List.forall_iff_forall_mem.mp (by decide)⟩, forall_mem_written _⟩

/-- An address is read back as it was written. -/
theorem parseIpv6_ipv6Text (h : IsAddress pieces) :
    parseIpv6 (ipv6Text pieces) = .ok (.ipv6 pieces) := by
  obtain ⟨front, back, hstart, hpieces⟩ := longestZeroRun_spec 0 pieces
  rw [Nat.zero_add] at hstart
  generalize hrun : (longestZeroRun 0 pieces).2 = length at hpieces
  have hall := h.bounded
  have hlength := h.length
  rw [hpieces] at hall hlength
  simp only [List.forall_mem_append] at hall
  simp only [List.length_append, List.length_replicate] at hlength
  by_cases hshort : length < 2
  · have htext : ipv6Text pieces = written pieces := by
      simp only [ipv6Text, hrun, hshort, if_true]
      rfl
    have hne : pieces ≠ [] := by
      rintro rfl
      cases h.length
    have hnone : cutAt? [':', ':'] (written pieces) = none := by
      have hcut := cutAt?_written pieces []
      rwa [List.append_nil] at hcut
    rw [htext, parseIpv6, hnone, splitOn_written hne, ipv6Pieces?_map_hexLower h.bounded]
    exact if_pos h.length
  · have htext : ipv6Text pieces = written front ++ ':' :: ':' :: written back := by
      have htake : pieces.take front.length = front := by
        rw [hpieces, List.append_assoc, List.take_left]
      have hdrop : pieces.drop (front.length + length) = back := by
        rw [hpieces]
        exact List.drop_left' (by simp)
      simp only [ipv6Text, hrun, hshort, if_false, hstart, htake, hdrop]
      simp [written]
    have hcut : cutAt? [':', ':'] (written front ++ ':' :: ':' :: written back) =
        some (written front, written back) := by
      rw [cutAt?_written]
      simp [cutAt?, dropStart?]
    have hdot : (written front).contains '.' = false := by simpa using dot_notMem_written front
    rw [htext, parseIpv6, hcut]
    simp only [hdot, Bool.false_eq_true, if_false, ipv6Side?_written hall.1.1,
      ipv6Side?_written hall.2]
    rw [if_pos (by omega), show 8 - front.length - back.length = length by omega, ← hpieces]

theorem parseBracketed_text (h : IsAddress pieces) :
    parseBracketed (ipv6Text pieces ++ [']']) = .ok (.ipv6 pieces) := by
  have hends : dropEnd? [']'] (ipv6Text pieces ++ [']']) = some (ipv6Text pieces) := by
    simp [dropEnd?, dropStart?]
  rw [parseBracketed, hends]
  exact parseIpv6_ipv6Text h

/-! ### Dotted addresses -/

theorem decimal_ne_nil (n : Nat) : decimal n ≠ [] := by
  rw [decimal_eq]
  exact Nat.toDigits_ne_nil

theorem forall_mem_decimal (n : Nat) :
    ∀ c ∈ decimal n, isDigit c = true ∧ Domain.IsPlain c ∧ c ≠ '.' := by
  have hdigit : ∀ d < 10, isDigit d.digitChar = true ∧ Domain.IsPlain d.digitChar ∧
      d.digitChar ≠ '.' := by decide +kernel
  rw [decimal_eq]
  exact forall_mem_toDigits (by decide) hdigit n

theorem ipv4Part?_decimal (hn : n < 256) : ipv4Part? (decimal n) = some (some n) := by
  have hall : ∀ n ∈ List.range 256, ipv4Part? (Nat.toDigits 10 n) = some (some n) := by
    decide +kernel
  rw [decimal_eq]
  exact hall n (List.mem_range.mpr hn)

/-- A numeral is a label of a name that nothing happens to. -/
theorem encodeLabel?_decimal (n : Nat) : Domain.encodeLabel? (decimal n) = some (decimal n) := by
  have hmark : dropStart? "xn--".toList (decimal n) = none := by
    rw [Option.eq_none_iff_forall_not_mem]
    intro rest hrest
    have hx : 'x' ∈ decimal n := by
      rw [Path.dropStart?_eq_some_iff.mp hrest]
      exact List.mem_cons_self
    exact Bool.noConfusion (forall_mem_decimal n _ hx).1
  have hascii : (decimal n).all Domain.isAscii = true :=
    List.all_eq_true.mpr fun c hc ↦ (forall_mem_decimal n c hc).2.1.ascii
  rw [Domain.encodeLabel?, hmark]
  exact if_pos hascii

section bytes

variable {a b c d : Nat}

/-- Four bytes with dots between them. -/
def dotted (bytes : List Nat) : List Char := joinWith ['.'] (bytes.map decimal)

theorem dottedParts_dotted {bytes : List Nat} (hne : bytes ≠ []) :
    dottedParts (dotted bytes) = bytes.map decimal := by
  have hsplit : splitOn '.' (dotted bytes) = bytes.map decimal := by
    apply splitOn_joinWith (by simpa using hne)
    exact List.forall_mem_map.mpr fun n _ hdot ↦ (forall_mem_decimal n _ hdot).2.2 rfl
  have hlast : (bytes.map decimal).getLast? ≠ some [] := by
    intro hempty
    obtain ⟨n, -, hnil⟩ := List.mem_map.mp (List.mem_of_getLast? hempty)
    exact decimal_ne_nil n hnil
  rw [dottedParts, hsplit]
  exact if_neg fun h ↦ hlast h.2

theorem toAscii?_dotted {bytes : List Nat} (hne : bytes ≠ []) :
    Domain.toAscii? (dotted bytes) = some (dotted bytes) := by
  apply Domain.toAscii?_joinWith (by simpa using hne)
  exact List.forall_mem_map.mpr fun n _ ↦
    ⟨encodeLabel?_decimal n, fun c hc ↦ (forall_mem_decimal n c hc).2⟩

theorem endsInNumber_dotted {bytes : List Nat} (hne : bytes ≠ []) :
    endsInNumber (dotted bytes) = true := by
  have hdigits : (decimal (bytes.getLast hne)).all isDigit = true :=
    List.all_eq_true.mpr fun c hc ↦ (forall_mem_decimal _ c hc).1
  rw [endsInNumber, dottedParts_dotted hne, List.getLast?_map, List.getLast?_eq_some_getLast hne,
    Option.map_some]
  obtain ⟨c, digits, hchars⟩ := List.exists_cons_of_ne_nil (decimal_ne_nil (bytes.getLast hne))
  rw [hchars] at hdigits ⊢
  simp only [hdigits, Bool.true_or]

theorem parseIpv4_dotted (hbytes : ∀ n ∈ [a, b, c, d], n < 256) :
    parseIpv4 (dotted [a, b, c, d]) =
      .ok (.ipv4 (a * 0x1000000 + b * 0x10000 + c * 0x100 + d)) := by
  have hparts : dottedParts (dotted [a, b, c, d]) = [a, b, c, d].map decimal :=
    dottedParts_dotted (List.cons_ne_nil _ _)
  simp only [List.forall_mem_cons] at hbytes
  obtain ⟨ha, hb, hc, hd, -⟩ := hbytes
  have hnumbers : ([a, b, c, d].map decimal).mapM (fun part ↦ (ipv4Part? part).join) =
      some [a, b, c, d] := by
    simp [ipv4Part?_decimal ha, ipv4Part?_decimal hb, ipv4Part?_decimal hc, ipv4Part?_decimal hd]
  have hleading : [a, b, c].any (255 < ·) = false := by
    simp
    omega
  have hlast : ¬UInt32.size ≤ d * Nat.pow 256 3 := by
    simp [UInt32.size]
    omega
  have hsum : [a, b, c].zipIdx.foldl (fun total x ↦ total + x.1 * Nat.pow 256 (3 - x.2)) d =
      a * 0x1000000 + b * 0x10000 + c * 0x100 + d := by
    simp
    omega
  rw [parseIpv4, hparts]
  simp only [List.length_map, List.length_cons, List.length_nil, hnumbers]
  change (if [a, b, c].any (255 < ·) = true ∨ UInt32.size ≤ d * Nat.pow 256 3 then _ else
    Except.ok (Host.ipv4 ([a, b, c].zipIdx.foldl
      (fun total x ↦ total + x.1 * Nat.pow 256 (3 - x.2)) d))) = _
  rw [if_neg (by simp [hleading, hlast]), hsum]

end bytes

/-! ### Addresses of 32 bits -/

/-- The bytes of an address, highest first. -/
def bytesOfAddress (address : Nat) : List Nat :=
  [0x1000000, 0x10000, 0x100, 1].map fun unit ↦ address / unit % 256

theorem ipv4Text_eq (address : Nat) : ipv4Text address = dotted (bytesOfAddress address) := by
  rw [ipv4Text, dotted, bytesOfAddress, List.map_map]
  rfl

theorem plain_ipv4Text (address : Nat) : ∀ c ∈ ipv4Text address, Domain.IsPlain c := by
  rw [ipv4Text_eq, dotted]
  refine forall_mem_joinWith (List.forall_mem_singleton.mpr (by decide)) ?_
  exact List.forall_mem_map.mpr fun n _ c hc ↦ (forall_mem_decimal n c hc).2.1

theorem toAscii?_ipv4Text (address : Nat) :
    Domain.toAscii? (ipv4Text address) = some (ipv4Text address) := by
  rw [ipv4Text_eq]
  exact toAscii?_dotted (List.cons_ne_nil _ _)

theorem endsInNumber_ipv4Text (address : Nat) : endsInNumber (ipv4Text address) = true := by
  rw [ipv4Text_eq]
  exact endsInNumber_dotted (List.cons_ne_nil _ _)

theorem ipv4Text_ne_nil (address : Nat) : ipv4Text address ≠ [] := by
  intro hnil
  have hnumber := endsInNumber_ipv4Text address
  rw [hnil] at hnumber
  exact Bool.noConfusion hnumber

/-- A dotted address is read back as one that is written in the same way. -/
theorem exists_parseIpv4_ipv4Text (address : Nat) :
    ∃ other, parseIpv4 (ipv4Text address) = .ok (.ipv4 other) ∧
      ipv4Text other = ipv4Text address := by
  have hbytes : ∀ n ∈ bytesOfAddress address, n < 256 :=
    List.forall_mem_map.mpr fun _ _ ↦ Nat.mod_lt _ (by decide)
  rw [ipv4Text_eq]
  refine ⟨_, parseIpv4_dotted hbytes, ?_⟩
  rw [ipv4Text_eq]
  congr 1
  apply List.map_congr_left
  simp only [List.forall_mem_cons]
  refine ⟨?_, ?_, ?_, ?_, fun _ hmem ↦ absurd hmem List.not_mem_nil⟩ <;> omega

end DirectoryBrowser.Host
