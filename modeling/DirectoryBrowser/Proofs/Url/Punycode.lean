import Mathlib.Data.List.Induction
import Mathlib.Tactic.Ring
import DirectoryBrowser.Proofs.Text.Cutting
import DirectoryBrowser.Url.Domain

/-!
# Encoded labels read back

The encoder goes through the points of a label in ascending order, and for each of
them through the label. Wherever it stands, the decoder that has read what is
written so far holds the characters that are inserted by then, and its next
insertion is behind by exactly the number that the encoder counts. Each number is
read back as it was written, so the insertions are the same ones.
-/

namespace DirectoryBrowser.Domain

open Text

variable {label : List Char} {point next : Nat} {points : List Nat} {state : Insertions}

/-! ### Numbers -/

theorem threshold_bounds (position bias : Nat) :
    1 ≤ threshold position bias ∧ threshold position bias ≤ 26 := by
  unfold threshold
  split_ifs <;> omega

theorem punyValue?_puny {d : Nat} (hd : d < 36) : punyValue? (puny d) = some d := by
  have hall : ∀ e ∈ List.range 36, punyValue? (puny e) = some e := by decide
  exact hall d (List.mem_range.mpr hd)

/-- A number is read back together with what follows it. -/
theorem readNumber?_writeNumber (bias position weight start n : Nat) (digits : List Char) :
    readNumber? bias position weight start (writeNumber bias position n ++ digits) =
      some (start + n * weight, digits) := by
  obtain ⟨hlow, hhigh⟩ := threshold_bounds position bias
  rw [writeNumber]
  split_ifs with hn
  · rw [List.singleton_append, readNumber?, punyValue?_puny (by omega)]
    exact if_pos hn
  · generalize hspan : 36 - threshold position bias = span
    have hmod : (n - threshold position bias) % span < span := Nat.mod_lt _ (by omega)
    have hsplit := Nat.mod_add_div (n - threshold position bias) span
    have hless : (n - threshold position bias) / span < n :=
      Nat.lt_of_le_of_lt (Nat.div_le_self _ _) (by omega)
    have hnext := readNumber?_writeNumber bias (position + 36) (weight * span)
      (start + (threshold position bias + (n - threshold position bias) % span) * weight)
      ((n - threshold position bias) / span) digits
    rw [List.cons_append, readNumber?, punyValue?_puny (by omega)]
    simp only [if_neg (Nat.not_lt.mpr (Nat.le_add_right _ _)), hspan, hnext]
    congr 2
    calc start + (threshold position bias + (n - threshold position bias) % span) * weight +
          (n - threshold position bias) / span * (weight * span)
        = start + (threshold position bias + ((n - threshold position bias) % span +
            span * ((n - threshold position bias) / span))) * weight := by ring
      _ = start + n * weight := by rw [hsplit, Nat.add_sub_cancel' (by omega)]
termination_by n

theorem writeNumber_ne_nil (bias position n : Nat) : writeNumber bias position n ≠ [] := by
  rw [writeNumber]
  split_ifs <;> exact List.cons_ne_nil _ _

/-! ### Points -/

theorem pairwise_eraseDups {points : List Nat} (h : points.Pairwise (· ≤ ·)) :
    points.eraseDups.Pairwise (· < ·) := by
  match points with
  | [] => exact List.Pairwise.nil
  | point :: points =>
    obtain ⟨hfirst, hrest⟩ := List.pairwise_cons.mp h
    rw [List.eraseDups_cons, List.pairwise_cons]
    have hlater := pairwise_eraseDups (hrest.filter (fun other ↦ !other == point))
    refine ⟨fun other hother ↦ ?_, hlater⟩
    obtain ⟨hmem, hne⟩ := List.mem_filter.mp (List.mem_eraseDups.mp hother)
    have hdifferent : other ≠ point := by simpa using hne
    exact Nat.lt_of_le_of_ne (hfirst other hmem) hdifferent.symm
termination_by points.length
decreasing_by exact Nat.lt_succ_of_le (List.length_filter_le _ _)

/-! ### Insertions -/

/-- Whatever follows what is written so far, the decoder comes to it with the given point, position
and characters. Every number takes one round and at least one digit. -/
def Arrives (basic : List Char) (state : Insertions) (point start : Nat) (out : List Char) : Prop :=
  ∃ rounds ≤ state.written.length, ∀ more digits,
    readInsertions? (rounds + more) 72 0x80 0 basic (state.written ++ digits) =
      readInsertions? more state.bias point start out digits

/-- The decoder holds the characters `out`, and an insertion of `point` at `position` is as many
steps ahead of it as the encoder has counted. -/
def Follows (basic : List Char) (state : Insertions) (point position : Nat) (out : List Char) :
    Prop :=
  ∃ last start, Arrives basic state last start out ∧ out.length = state.handled ∧
    start + state.delta + last * (state.handled + 1) = point * (state.handled + 1) + position ∧
    (start = 0 ∧ state.handled = basic.length ∨ 0 < start ∧ basic.length < state.handled)

variable {basic out : List Char} {position : Nat} {c : Char}

/-- The next number stands for one character, which the decoder inserts. -/
theorem readInsertions?_insert {rounds bias last start delta : Nat} {digits : List Char}
    (hposition : position ≤ out.length)
    (hsteps : start + delta + last * (out.length + 1) = c.toNat * (out.length + 1) + position) :
    readInsertions? (rounds + 1) bias last start out (writeNumber bias 36 delta ++ digits) =
      readInsertions? rounds (adapt delta (out.length + 1) (start == 0)) c.toNat (position + 1)
        (out.take position ++ c :: out.drop position) digits := by
  have hlast : last ≤ c.toNat := by
    by_contra hlater
    have hmul := Nat.mul_le_mul_right (out.length + 1) (Nat.succ_le_of_lt (Nat.not_le.mp hlater))
    rw [Nat.succ_mul] at hmul
    omega
  have htotal : start + delta * 1 = position + (c.toNat - last) * (out.length + 1) := by
    rw [Nat.sub_mul]
    have hmul := Nat.mul_le_mul_right (out.length + 1) hlast
    omega
  have hdiv : (start + delta * 1) / (out.length + 1) = c.toNat - last := by
    rw [htotal, Nat.add_mul_div_right _ _ (Nat.succ_pos _), Nat.div_eq_of_lt (by omega), zero_add]
  have hmod : (start + delta * 1) % (out.length + 1) = position := by
    rw [htotal, Nat.add_mul_mod_self_right, Nat.mod_eq_of_lt (by omega)]
  have hvalid : c.toNat < 0xD800 ∨ 0xDFFF < c.toNat ∧ c.toNat < 0x110000 := c.valid
  have hread := readNumber?_writeNumber bias 36 1 start delta digits
  obtain ⟨d, rest, hnumber⟩ := List.exists_cons_of_ne_nil (writeNumber_ne_nil bias 36 delta)
  rw [hnumber, List.cons_append] at hread ⊢
  rw [readInsertions?, hread]
  · simp only [hdiv, hmod, Nat.add_sub_cancel' hlast, if_pos hvalid, Char.ofNat_toNat]
    simp
  · exact List.cons_ne_nil _ _

theorem Follows.pass (h : Follows basic state point position out) :
    Follows basic { state with delta := state.delta + 1 } point (position + 1) out := by
  obtain ⟨last, start, harrives, hlength, hsteps, hfirst⟩ := h
  exact ⟨last, start, harrives, hlength, by simp only; omega, hfirst⟩

theorem Follows.insert (h : Follows basic state c.toNat position out)
    (hposition : position ≤ out.length) :
    Follows basic
      { written := state.written ++ writeNumber state.bias 36 state.delta, delta := 0
        bias := adapt state.delta (state.handled + 1) (state.handled == basic.length)
        handled := state.handled + 1 }
      c.toNat (position + 1) (out.take position ++ c :: out.drop position) := by
  obtain ⟨last, start, ⟨rounds, hrounds, hreads⟩, hlength, hsteps, hfirst⟩ := h
  rw [← hlength] at hsteps
  -- The decoder stands at its start exactly as long as nothing has been inserted.
  have hflag : (start == 0) = (state.handled == basic.length) := by
    rcases hfirst with ⟨hstart, hhandled⟩ | ⟨hstart, hhandled⟩
    · simp [hstart, hhandled]
    · simp [Nat.ne_of_gt hstart, Nat.ne_of_gt hhandled]
  refine ⟨c.toNat, position + 1, ⟨rounds + 1, ?_, fun more digits ↦ ?_⟩, ?_, ?_, ?_⟩
  · have hpos := List.length_pos_iff.mpr (writeNumber_ne_nil state.bias 36 state.delta)
    simp only [List.length_append]
    omega
  · have hnext := hreads (more + 1) (writeNumber state.bias 36 state.delta ++ digits)
    rw [readInsertions?_insert hposition hsteps, hflag, hlength] at hnext
    rw [← hnext, List.append_assoc, Nat.add_assoc, Nat.add_comm 1 more]
  · simp [hposition, ← hlength]
    omega
  · simp only
    omega
  · right
    rcases hfirst with ⟨-, hhandled⟩ | ⟨-, hhandled⟩ <;> simp only <;> omega

/-- Steps over points that no character has. -/
theorem Follows.skip (h : Follows basic state next 0 out) (hnext : next ≤ point) :
    Follows basic { state with delta := state.delta + (point - next) * (state.handled + 1) }
      point 0 out := by
  obtain ⟨last, start, harrives, hlength, hsteps, hfirst⟩ := h
  refine ⟨last, start, harrives, hlength, ?_, hfirst⟩
  have hmul := Nat.mul_le_mul_right (state.handled + 1) hnext
  rw [Nat.sub_mul]
  simp only
  omega

/-- The position after the last character is the first one of the next point. -/
theorem Follows.wrap (h : Follows basic state point out.length out) :
    Follows basic { state with delta := state.delta + 1 } (point + 1) 0 out := by
  obtain ⟨last, start, harrives, hlength, hsteps, hfirst⟩ := h
  refine ⟨last, start, harrives, hlength, ?_, hfirst⟩
  rw [Nat.succ_mul]
  simp only
  omega

/-- One pass of the encoder over the label inserts the characters of one point. -/
theorem Follows.scan (before after : List Char) (h : Follows basic state point
      (before.filter (·.toNat ≤ point)).length
      (before.filter (·.toNat ≤ point) ++ after.filter (·.toNat < point))) :
    Follows basic (after.foldl (insertPoint basic.length point) state) point
      ((before ++ after).filter (·.toNat ≤ point)).length
      ((before ++ after).filter (·.toNat ≤ point)) := by
  -- Characters of the point itself are there up to where the pass has come, and not beyond.
  induction after generalizing before state with
  | nil => simpa using h
  | cons c after ih =>
    rw [List.foldl_cons, List.append_cons]
    apply ih (before ++ [c])
    rcases Nat.lt_trichotomy c.toNat point with hless | heq | hmore
    · rw [insertPoint, if_pos hless]
      have hpass := h.pass
      simpa [hless, Nat.le_of_lt hless] using hpass
    · subst heq
      rw [insertPoint, if_neg (Nat.lt_irrefl _), if_pos rfl]
      have hinsert := h.insert (by simp)
      simpa using hinsert
    · rw [insertPoint, if_neg (by omega), if_neg (by omega)]
      simpa [Nat.not_le.mpr hmore, Nat.not_lt.mpr (Nat.le_of_lt hmore)] using h

/-- A whole run goes through all points, and the decoder ends up with the label. -/
theorem Follows.run (hnext : ∀ point ∈ points, next ≤ point) (hsorted : points.Pairwise (· < ·))
    (hall : ∀ c ∈ label, c.toNat < next ∨ c.toNat ∈ points)
    (h : Follows basic state next 0 (label.filter (·.toNat < next))) :
    ∃ rounds ≤ (insertPoints label basic.length points next state).written.length, ∀ more,
      readInsertions? (rounds + more) 72 0x80 0 basic
        (insertPoints label basic.length points next state).written = some label := by
  induction points generalizing next state with
  | nil =>
    have hkept : label.filter (·.toNat < next) = label := by
      rw [List.filter_eq_self]
      intro c hc
      simpa using hall c hc
    obtain ⟨last, start, ⟨rounds, hrounds, hreads⟩, -⟩ := h
    refine ⟨rounds, hrounds, fun more ↦ ?_⟩
    have hend := hreads more []
    rw [List.append_nil, hkept, readInsertions?] at hend
    exact hend
  | cons point points ih =>
    obtain ⟨hpoint, hlater⟩ := List.forall_mem_cons.mp hnext
    obtain ⟨hbelow, hrest⟩ := List.pairwise_cons.mp hsorted
    -- No character of the label lies between one point and the next.
    have hskipped : label.filter (·.toNat < next) = label.filter (·.toNat < point) := by
      apply List.filter_congr
      intro c hc
      rcases hall c hc with hlow | hmem
      · simp [hlow, Nat.lt_of_lt_of_le hlow hpoint]
      · have hle : point ≤ c.toNat := by
          rcases List.mem_cons.mp hmem with heq | hmem
          · exact heq.ge
          · exact Nat.le_of_lt (hbelow _ hmem)
        simp [Nat.not_lt.mpr hle, Nat.not_lt.mpr (Nat.le_trans hpoint hle)]
    rw [hskipped] at h
    have hscanned := Follows.scan [] label (h.skip hpoint)
    rw [List.nil_append] at hscanned
    have hwrapped := hscanned.wrap
    have hdone : label.filter (·.toNat ≤ point) = label.filter (·.toNat < point + 1) :=
      List.filter_congr fun c _ ↦ decide_eq_decide.mpr Nat.lt_succ_iff.symm
    rw [hdone] at hwrapped
    refine ih (fun other hother ↦ hbelow other hother) hrest (fun c hc ↦ ?_) hwrapped
    rcases hall c hc with hlow | hmem
    · exact Or.inl (by omega)
    · rcases List.mem_cons.mp hmem with heq | hmem
      · exact Or.inl (by omega)
      · exact Or.inr hmem

/-! ### Labels -/

section written

variable {p : Char → Prop}

theorem forall_mem_writeNumber (hdigit : ∀ d < 36, p (puny d)) (bias position n : Nat) :
    ∀ c ∈ writeNumber bias position n, p c := by
  obtain ⟨hlow, hhigh⟩ := threshold_bounds position bias
  rw [writeNumber]
  split_ifs with hn
  · exact List.forall_mem_singleton.mpr (hdigit n (by omega))
  · have hmod := Nat.mod_lt (n - threshold position bias)
      (show 0 < 36 - threshold position bias by omega)
    have hless : (n - threshold position bias) / (36 - threshold position bias) < n :=
      Nat.lt_of_le_of_lt (Nat.div_le_self _ _) (by omega)
    exact List.forall_mem_cons.mpr
      ⟨hdigit _ (by omega), forall_mem_writeNumber hdigit bias (position + 36) _⟩
termination_by n

theorem forall_mem_insertPoint {basic : Nat} (hdigit : ∀ d < 36, p (puny d))
    (h : ∀ c ∈ state.written, p c) (c : Char) :
    ∀ d ∈ (insertPoint basic point state c).written, p d := by
  unfold insertPoint
  split_ifs
  · exact h
  · exact List.forall_mem_append.mpr ⟨h, forall_mem_writeNumber hdigit _ _ _⟩
  · exact h

/-- Nothing but digits is written. -/
theorem forall_mem_insertPoints {basic : Nat} (hdigit : ∀ d < 36, p (puny d))
    (h : ∀ c ∈ state.written, p c) :
    ∀ c ∈ (insertPoints label basic points next state).written, p c := by
  induction points generalizing next state with
  | nil => exact h
  | cons point points ih =>
    have hscan (chars : List Char) (state : Insertions) (h : ∀ c ∈ state.written, p c) :
        ∀ c ∈ (chars.foldl (insertPoint basic point) state).written, p c := by
      induction chars generalizing state with
      | nil => exact h
      | cons c chars ih => exact ih _ (forall_mem_insertPoint hdigit h c)
    exact ih (hscan label _ h)

end written

/-- The points of a label in ascending order. -/
def pointsOf (label : List Char) : List Nat :=
  ((label.filter (fun c ↦ !isAscii c)).map Char.toNat).mergeSort.eraseDups

theorem mem_pointsOf {n : Nat} : n ∈ pointsOf label ↔ 0x80 ≤ n ∧ ∃ c ∈ label, c.toNat = n := by
  rw [pointsOf, List.mem_eraseDups, List.mem_mergeSort, List.mem_map]
  constructor
  · rintro ⟨c, hc, rfl⟩
    obtain ⟨hmem, hascii⟩ := List.mem_filter.mp hc
    exact ⟨by simpa [isAscii] using hascii, c, hmem, rfl⟩
  · rintro ⟨hn, c, hc, rfl⟩
    exact ⟨c, List.mem_filter.mpr ⟨hc, by simpa [isAscii] using hn⟩, rfl⟩

theorem pairwise_pointsOf (label : List Char) : (pointsOf label).Pairwise (· < ·) := by
  apply pairwise_eraseDups
  have htrans : ∀ a b c : Nat, decide (a ≤ b) = true → decide (b ≤ c) = true →
      decide (a ≤ c) = true := fun a b c hab hbc ↦
    decide_eq_true (Nat.le_trans (of_decide_eq_true hab) (of_decide_eq_true hbc))
  have htotal : ∀ a b : Nat, (decide (a ≤ b) || decide (b ≤ a)) = true :=
    fun a b ↦ by simpa using Nat.le_total a b
  exact (List.pairwise_mergeSort htrans htotal _).imp of_decide_eq_true

/-- What follows the ASCII characters of an encoded label. -/
def digitsOf (label : List Char) : List Char :=
  (insertPoints label (label.filter isAscii).length (pointsOf label) 0x80
    ⟨[], 0, 72, (label.filter isAscii).length⟩).written

theorem punycode_eq (label : List Char) : punycode label =
    label.filter isAscii ++ (if (label.filter isAscii).isEmpty then [] else ['-']) ++
      digitsOf label := rfl

theorem forall_mem_digitsOf {p : Char → Prop} (hdigit : ∀ d < 36, p (puny d)) (label : List Char) :
    ∀ c ∈ digitsOf label, p c :=
  forall_mem_insertPoints hdigit fun _ hc ↦ absurd hc List.not_mem_nil

theorem forall_mem_punycode {p : Char → Prop} (hdigit : ∀ d < 36, p (puny d)) (hhyphen : p '-')
    (hlabel : ∀ c ∈ label, isAscii c = true → p c) : ∀ c ∈ punycode label, p c := by
  rw [punycode_eq]
  simp only [List.forall_mem_append]
  refine ⟨⟨fun c hc ↦ ?_, ?_⟩, forall_mem_digitsOf hdigit label⟩
  · obtain ⟨hmem, hascii⟩ := List.mem_filter.mp hc
    exact hlabel c hmem hascii
  · split_ifs
    · exact fun c hc ↦ absurd hc List.not_mem_nil
    · exact List.forall_mem_singleton.mpr hhyphen

theorem hyphen_notMem_digitsOf (label : List Char) : '-' ∉ digitsOf label := by
  have hdigit : ∀ d < 36, puny d ≠ '-' := by decide
  exact fun hmem ↦ forall_mem_digitsOf (p := (· ≠ '-')) hdigit label _ hmem rfl

theorem readInsertions?_digitsOf (label : List Char) :
    readInsertions? (digitsOf label).length 72 0x80 0 (label.filter isAscii) (digitsOf label) =
      some label := by
  have hbegin : Follows (label.filter isAscii) ⟨[], 0, 72, (label.filter isAscii).length⟩ 0x80 0
      (label.filter (·.toNat < 0x80)) :=
    ⟨0x80, 0, ⟨0, Nat.le_refl _, fun more digits ↦ by rw [Nat.zero_add]; rfl⟩, rfl, by simp,
      Or.inl ⟨rfl, rfl⟩⟩
  obtain ⟨rounds, hrounds, hread⟩ := hbegin.run (fun n hn ↦ (mem_pointsOf.mp hn).1)
    (pairwise_pointsOf label)
    fun c hc ↦ (Nat.lt_or_ge c.toNat 0x80).imp_right fun hle ↦ mem_pointsOf.mpr ⟨hle, c, hc, rfl⟩
  rw [← Nat.add_sub_cancel' (show rounds ≤ (digitsOf label).length from hrounds)]
  exact hread _

/-- Every label comes back when it is decoded. -/
theorem unpunycode?_punycode (label : List Char) : unpunycode? (punycode label) = some label := by
  have hread := readInsertions?_digitsOf label
  have hhyphen := hyphen_notMem_digitsOf label
  rw [punycode_eq, unpunycode?]
  by_cases hbasic : label.filter isAscii = []
  · rw [hbasic] at hread ⊢
    rw [List.isEmpty_nil, if_pos rfl, List.append_nil, List.nil_append,
      cutLast?_eq_none_iff.mpr hhyphen]
    exact hread
  · rw [if_neg (by simpa using hbasic), List.append_assoc, List.singleton_append,
      cutLast?_append _ hhyphen]
    exact hread

end DirectoryBrowser.Domain
