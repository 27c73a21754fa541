import Mathlib.Tactic.SplitIfs
import DirectoryBrowser.Text.Numeral

/-!
# Numerals read back

A number is written with its last digit at the end, and reading goes on from the
value of the digits before it. So what is written comes back, as long as it is below
the bound that the reader sets, and zeros in front make no difference.
-/

namespace DirectoryBrowser.Text

variable {base bound n : Nat} {p : Char → Prop}

theorem lt_of_numeral? {digits : List Char} (h : numeral? base bound digits = some n) :
    n < bound := by
  unfold numeral? at h
  split_ifs at h
  simpa using (Option.filter_eq_some_iff.mp h).2

theorem readDigits_append (base start : Nat) (front back : List Char) :
    readDigits base start (front ++ back) =
      (readDigits base start front).bind (readDigits base · back) := by
  induction front generalizing start with
  | nil => rfl
  | cons c front ih =>
    rw [List.cons_append, readDigits, readDigits]
    cases digitIn? base c with
    | none => rfl
    | some d => exact ih _

theorem digitIn?_digitChar_of_lt (hbase : base ≤ 16) {d : Nat} (hd : d < base) :
    digitIn? base d.digitChar = some d := by
  have hvalue : ∀ e ∈ List.range 16, digitValue? e.digitChar = some e := by decide
  rw [digitIn?, hvalue d (List.mem_range.mpr (by omega)), Option.filter_some,
    if_pos (by simpa using hd)]

theorem readDigits_toDigits (hlow : 1 < base) (hhigh : base ≤ 16) (n : Nat) :
    readDigits base 0 (Nat.toDigits base n) = some n := by
  rw [Nat.toDigits_eq_if hlow]
  split_ifs with hn
  · simp [readDigits, digitIn?_digitChar_of_lt hhigh hn]
  · have hless : n / base < n := Nat.div_lt_self (by omega) hlow
    have hlast : digitIn? base (n % base).digitChar = some (n % base) :=
      digitIn?_digitChar_of_lt hhigh (Nat.mod_lt n (by omega))
    rw [readDigits_append, readDigits_toDigits hlow hhigh (n / base), Option.bind_some]
    simp only [readDigits, hlast, Nat.div_add_mod']
termination_by n

theorem numeral?_toDigits (hlow : 1 < base) (hhigh : base ≤ 16) (hn : n < bound) :
    numeral? base bound (Nat.toDigits base n) = some n := by
  rw [numeral?, if_neg (by simp), readDigits_toDigits hlow hhigh, Option.filter_some,
    if_pos (by simpa using hn)]

/-- Whatever holds of all digits holds of what is written with them. -/
theorem forall_mem_toDigits (hlow : 1 < base) (hdigit : ∀ d < base, p d.digitChar) (n : Nat) :
    ∀ c ∈ Nat.toDigits base n, p c := by
  rw [Nat.toDigits_eq_if hlow]
  split_ifs with hn
  · exact List.forall_mem_singleton.mpr (hdigit n hn)
  · have hless : n / base < n := Nat.div_lt_self (by omega) hlow
    exact List.forall_mem_append.mpr ⟨forall_mem_toDigits hlow hdigit (n / base),
      List.forall_mem_singleton.mpr (hdigit _ (Nat.mod_lt n (by omega)))⟩
termination_by n

theorem decimal_eq (n : Nat) : decimal n = Nat.toDigits 10 n := Nat.toList_repr

/-- A number written out, with any zeros in front. -/
def IsNumeral (n : Nat) (text : List Char) : Prop :=
  ∃ zeros, text = List.replicate zeros '0' ++ Nat.toDigits 10 n

theorem isNumeral_decimal (n : Nat) : IsNumeral n (decimal n) := ⟨0, decimal_eq n⟩

namespace IsNumeral

variable {bound n : Nat} {text : List Char}

theorem forall_mem (h : IsNumeral n text) (hdigit : ∀ d < 10, p d.digitChar) :
    ∀ c ∈ text, p c := by
  obtain ⟨zeros, rfl⟩ := h
  refine List.forall_mem_append.mpr ⟨fun c hc ↦ ?_, forall_mem_toDigits (by decide) hdigit n⟩
  rw [List.eq_of_mem_replicate hc]
  exact hdigit 0 (by decide)

theorem ne_nil (h : IsNumeral n text) : text ≠ [] := by
  obtain ⟨zeros, rfl⟩ := h
  simp

theorem readDigits_eq (h : IsNumeral n text) : readDigits 10 0 text = some n := by
  obtain ⟨zeros, rfl⟩ := h
  have hzeros : readDigits 10 0 (List.replicate zeros '0') = some 0 := by
    induction zeros with
    | zero => rfl
    | succ zeros ih => exact ih
  rw [readDigits_append, hzeros, Option.bind_some, readDigits_toDigits (by decide) (by decide)]

theorem numeral?_eq (h : IsNumeral n text) (hn : n < bound) : numeral? 10 bound text = some n := by
  rw [numeral?, if_neg (by simpa using h.ne_nil), h.readDigits_eq, Option.filter_some,
    if_pos (by simpa using hn)]

theorem notMem (h : IsNumeral n text) {c : Char} (hc : ∀ d < 10, d.digitChar ≠ c) : c ∉ text :=
  fun hmem ↦ h.forall_mem (p := (· ≠ c)) hc c hmem rfl

theorem unsigned?_eq (h : IsNumeral n text) (hn : n < bound) : unsigned? bound text = some n := by
  unfold unsigned?
  split
  case h_1 digits => exact absurd List.mem_cons_self (h.notMem (c := '+') (by decide))
  case h_2 => exact h.numeral?_eq hn

theorem signed?_eq (h : IsNumeral n text) (hn : n < bound) :
    signed? bound text = some (n : Int) := by
  unfold signed?
  split
  case h_1 digits => exact absurd List.mem_cons_self (h.notMem (c := '-') (by decide))
  case h_2 digits => exact absurd List.mem_cons_self (h.notMem (c := '+') (by decide))
  case h_3 =>
    rw [h.numeral?_eq hn]
    rfl

end IsNumeral

theorem decimal_inj {m n : Nat} : decimal m = decimal n ↔ m = n := by
  refine ⟨fun h ↦ ?_, congrArg decimal⟩
  have hread := (isNumeral_decimal m).readDigits_eq
  rw [h, (isNumeral_decimal n).readDigits_eq] at hread
  exact (Option.some.inj hread).symm

end DirectoryBrowser.Text
