import DirectoryBrowser.Calendar

/-!
# Years in days

The days before a year are given in closed form, while the year of a clock
reading is found by taking one year after the other off. Both follow from the
length of a year, so the year that is found is the one whose days hold the
reading.
-/

namespace DirectoryBrowser.Calendar

theorem leapYearsThrough_succ (year : Nat) :
    leapYearsThrough (year + 1) = leapYearsThrough year + if isLeap (year + 1) then 1 else 0 := by
  have hcentury : 100 ∣ year + 1 → 4 ∣ year + 1 := Nat.dvd_trans ⟨25, rfl⟩
  have hfourth : 400 ∣ year + 1 → 100 ∣ year + 1 := Nat.dvd_trans ⟨4, rfl⟩
  have hle : year / 100 ≤ year / 4 := Nat.div_le_div_left (by decide) (by decide)
  unfold leapYearsThrough isLeap
  simp only [Nat.succ_div, Bool.and_eq_true, Bool.or_eq_true, beq_iff_eq, bne_iff_ne, ne_eq,
    ← Nat.dvd_iff_mod_eq_zero]
  by_cases h4 : 4 ∣ year + 1
  · by_cases h100 : 100 ∣ year + 1
    · by_cases h400 : 400 ∣ year + 1
      · simp only [h4, h100, h400, if_true, and_true, or_true]
        omega
      · simp [h4, h100, h400]
    · have h400 := mt hfourth h100
      simp only [h4, h100, h400, if_true, if_false, not_false_eq_true, and_true, true_or]
      omega
  · have h100 := mt hcentury h4
    simp [h4, h100, mt hfourth h100]

theorem leapYearsThrough_mono {earlier later : Nat} (h : earlier ≤ later) :
    leapYearsThrough earlier ≤ leapYearsThrough later := by
  induction h with
  | refl => exact Nat.le_refl _
  | step _ ih =>
    rw [leapYearsThrough_succ]
    exact Nat.le_add_right_of_le ih

theorem daysBeforeYear_succ {year : Nat} (h : 1970 ≤ year) :
    daysBeforeYear (year + 1) = daysBeforeYear year + yearLength year := by
  obtain ⟨before, rfl⟩ : ∃ before, year = before + 1 := ⟨year - 1, by omega⟩
  have hmono : leapYearsThrough 1969 ≤ leapYearsThrough before :=
    leapYearsThrough_mono (by omega)
  have hleap := leapYearsThrough_succ before
  unfold daysBeforeYear yearLength
  rw [Nat.add_sub_cancel, Nat.add_sub_cancel, hleap]
  split
  · omega
  · omega

theorem daysBeforeYear_mono {earlier later : Nat} (hstart : 1970 ≤ earlier)
    (h : earlier ≤ later) : daysBeforeYear earlier ≤ daysBeforeYear later := by
  induction h with
  | refl => exact Nat.le_refl _
  | step hle ih =>
    rw [daysBeforeYear_succ (Nat.le_trans hstart hle)]
    exact Nat.le_add_right_of_le ih

/-- Days counted from a year on fall into the year that is found for them. -/
theorem yearAfter_spec (year days : Nat) (hstart : 1970 ≤ year) :
    year ≤ yearAfter year days ∧
      daysBeforeYear (yearAfter year days) ≤ daysBeforeYear year + days ∧
      daysBeforeYear year + days < daysBeforeYear (yearAfter year days + 1) := by
  fun_induction yearAfter year days with
  | case1 year days hlt =>
    rw [daysBeforeYear_succ hstart]
    omega
  | case2 year days hlt ih =>
    have hrest := ih (Nat.le_succ_of_le hstart)
    rw [daysBeforeYear_succ hstart] at hrest
    omega

theorem yearAfter_lt_iff (days : Nat) {bound : Nat} (hbound : 1970 ≤ bound) :
    yearAfter 1970 days < bound ↔ days < daysBeforeYear bound := by
  obtain ⟨hstart, hfrom, hto⟩ := yearAfter_spec 1970 days (Nat.le_refl _)
  have hzero : daysBeforeYear 1970 = 0 := rfl
  rw [hzero, Nat.zero_add] at hfrom hto
  constructor
  · intro hlt
    exact Nat.lt_of_lt_of_le hto (daysBeforeYear_mono (Nat.le_succ_of_le hstart) hlt)
  · intro hdays
    refine Nat.lt_of_not_le fun hle ↦ ?_
    have hmono := daysBeforeYear_mono hbound hle
    exact absurd (Nat.le_trans hmono hfrom) (Nat.not_le_of_lt hdays)

theorem currentYear_lt_iff (now : Int) {bound : Nat} (hbound : 1970 ≤ bound) :
    currentYear now < bound ↔ now.toNat / secondsPerDay < daysBeforeYear bound :=
  yearAfter_lt_iff _ hbound

/-! ### How far dates reach -/

theorem daysBeforeYear_le (year : Nat) : daysBeforeYear year ≤ 366 * year := by
  unfold daysBeforeYear leapYearsThrough
  omega

theorem monthLength_le (year month : Nat) : monthLength year month ≤ 31 := by
  unfold monthLength
  split
  · split
    · omega
    · omega
  · split
    · omega
    · omega

theorem daysBeforeMonth_le (year month : Nat) : daysBeforeMonth year month ≤ 31 * month := by
  fun_induction daysBeforeMonth year month with
  | case1 => omega
  | case2 => omega
  | case3 month _ ih =>
    have hlength := monthLength_le year month
    omega

theorem days?_eq_some {year : Int} {month day days : Nat} (h : days? year month day = some days) :
    1970 ≤ year ∧ 1 ≤ month ∧ month ≤ 12 ∧ day ≠ 0 ∧
      days = daysBeforeYear year.toNat + daysBeforeMonth year.toNat month + (day - 1) := by
  unfold days? at h
  split at h
  case isTrue => cases h
  case isFalse hdate =>
    cases h
    omega

/-- Years and days that fit 32 bits leave the count of days far from 64 bits. -/
theorem days?_lt {year : Int} {month day days : Nat} (h : days? year month day = some days)
    (hyear : year < 0x80000000) (hday : day < UInt32.size) : days < 1000000000000 := by
  obtain ⟨hstart, hfirst, hlast, hpos, rfl⟩ := days?_eq_some h
  have hyears := daysBeforeYear_le year.toNat
  have hmonths := daysBeforeMonth_le year.toNat month
  have hsize : UInt32.size = 4294967296 := rfl
  omega

end DirectoryBrowser.Calendar
