import DirectoryBrowser.Proofs.Ftp.Faults
import Mathlib.Algebra.BigOperators.Intervals
import Mathlib.Algebra.Order.BigOperators.Group.Finset
import Mathlib.Order.Interval.Finset.Nat

/-!
# Dates of the Gregorian calendar

A date is a month that exists and a day that exists in it, and after the last
day of a month comes the first of the next. The days since 1970 are the days of
the whole years and months that have passed, and they count the dates one by
one. The year of a clock reading is found by taking years off again, so it is
the year whose days hold the reading.
-/

namespace DirectoryBrowser.Calendar

/-! ### Dates -/

/-- Every fourth year has a leap day, but of the full centuries only every fourth has one. -/
def IsLeapYear (year : Nat) : Prop := 4 ∣ year ∧ (100 ∣ year → 400 ∣ year)

instance : DecidablePred IsLeapYear := fun year ↦
  inferInstanceAs (Decidable (4 ∣ year ∧ (100 ∣ year → 400 ∣ year)))

def daysInMonth (year month : Nat) : Nat :=
  match month with
  | 2 => if IsLeapYear year then 29 else 28
  | 4 | 6 | 9 | 11 => 30
  | _ => 31

/-- A day that the calendar has, from 1970 on. -/
@[ext] structure Date where
  year : Nat
  month : Nat
  day : Nat
  le_year : 1970 ≤ year
  one_le_month : 1 ≤ month
  month_le : month ≤ 12
  one_le_day : 1 ≤ day
  day_le : day ≤ daysInMonth year month
  deriving DecidableEq

theorem one_le_daysInMonth (year month : Nat) : 1 ≤ daysInMonth year month := by
  unfold daysInMonth
  split
  · split
    · decide
    · decide
  all_goals decide

namespace Date

/-- The first date. -/
def epoch : Date where
  year := 1970
  month := 1
  day := 1
  le_year := Nat.le_refl _
  one_le_month := Nat.le_refl _
  month_le := by decide
  one_le_day := Nat.le_refl _
  day_le := one_le_daysInMonth 1970 1

/-- The calendar day after a date. -/
def next (date : Date) : Date :=
  if hday : date.day < daysInMonth date.year date.month then
    { date with
      day := date.day + 1
      one_le_day := Nat.le_add_left _ _
      day_le := hday }
  else if hmonth : date.month < 12 then
    { date with
      month := date.month + 1
      day := 1
      one_le_month := Nat.le_add_left _ _
      month_le := hmonth
      one_le_day := Nat.le_refl _
      day_le := one_le_daysInMonth _ _ }
  else
    { year := date.year + 1
      month := 1
      day := 1
      le_year := Nat.le_succ_of_le date.le_year
      one_le_month := Nat.le_refl _
      month_le := by decide
      one_le_day := Nat.le_refl _
      day_le := one_le_daysInMonth _ _ }

/-- Years decide first, then months, then days. -/
instance : LT Date where
  lt earlier later := earlier.year < later.year ∨ earlier.year = later.year ∧
    (earlier.month < later.month ∨ earlier.month = later.month ∧ earlier.day < later.day)

/-- Days since the start of 1970, as they are computed. -/
def days? (date : Date) : Option Nat := Calendar.days? date.year date.month date.day

end Date

def daysInYear (year : Nat) : Nat := ∑ month ∈ Finset.Icc 1 12, daysInMonth year month

/-! ### Years and months in days -/

theorem isLeap_iff (year : Nat) : isLeap year = true ↔ IsLeapYear year := by
  unfold isLeap IsLeapYear
  simp only [Bool.and_eq_true, Bool.or_eq_true, beq_iff_eq, bne_iff_ne]
  omega

theorem monthLength_eq (year month : Nat) : monthLength year month = daysInMonth year month := by
  unfold daysInMonth
  split
  case h_1 => simp only [monthLength, if_true, isLeap_iff]
  case h_6 hfebruary hapril hjune hseptember hnovember =>
    have hlong : ¬(month = 4 ∨ month = 6 ∨ month = 9 ∨ month = 11) := by
      rintro (h | h | h | h)
      · exact hapril h
      · exact hjune h
      · exact hseptember h
      · exact hnovember h
    rw [monthLength, if_neg hfebruary, if_neg hlong]
  all_goals rfl

theorem yearLength_eq (year : Nat) : yearLength year = daysInYear year := by
  have hmonths : Finset.Icc 1 12 = ({1, 2, 3, 4, 5, 6, 7, 8, 9, 10, 11, 12} : Finset Nat) := rfl
  unfold yearLength daysInYear
  simp only [hmonths, isLeap_iff]
  by_cases hleap : IsLeapYear year
  · simp [daysInMonth, hleap]
  · simp [daysInMonth, hleap]

theorem daysBeforeYear_eq_sum {year : Nat} (hstart : 1970 ≤ year) :
    daysBeforeYear year = ∑ earlier ∈ Finset.Ico 1970 year, daysInYear earlier := by
  induction year, hstart using Nat.le_induction with
  | base => rfl
  | succ year hstart ih =>
    rw [daysBeforeYear_succ hstart, ih, yearLength_eq, Finset.sum_Ico_succ_top hstart]

theorem daysBeforeMonth_eq_sum (year month : Nat) :
    daysBeforeMonth year month = ∑ earlier ∈ Finset.Ico 1 month, daysInMonth year earlier := by
  fun_induction daysBeforeMonth year month with
  | case1 => rfl
  | case2 => rfl
  | case3 month hpos ih =>
    rw [ih, monthLength_eq, Finset.sum_Ico_succ_top (Nat.pos_of_ne_zero hpos)]

/-! ### Dates in days -/

namespace Date

variable {earlier later : Date}

/-- Days of the whole years and months before a date, and of its month so far. -/
def number (date : Date) : Nat :=
  ∑ year ∈ Finset.Ico 1970 date.year, daysInYear year +
    ∑ month ∈ Finset.Ico 1 date.month, daysInMonth date.year month + (date.day - 1)

theorem days?_eq (date : Date) : date.days? = some date.number := by
  obtain ⟨year, month, day, hyear, hfirst, hlast, hday, -⟩ := date
  have hdate : ¬((year : Int) < 1970 ∨ month < 1 ∨ 12 < month ∨ day = 0) := by omega
  unfold days? Calendar.days? number
  rw [if_neg hdate, Int.toNat_natCast, daysBeforeYear_eq_sum hyear, daysBeforeMonth_eq_sum]

theorem number_next (date : Date) : date.next.number = date.number + 1 := by
  have hday := date.one_le_day
  have hlast := date.day_le
  unfold next
  split
  case isTrue =>
    unfold number
    dsimp only
    omega
  case isFalse hfull =>
    split
    case isTrue =>
      unfold number
      dsimp only
      rw [Finset.sum_Ico_succ_top date.one_le_month]
      omega
    case isFalse hend =>
      have hmonth : date.month = 12 := Nat.le_antisymm date.month_le (Nat.le_of_not_lt hend)
      have hyear : daysInYear date.year = ∑ month ∈ Finset.Ico 1 12, daysInMonth date.year month +
          daysInMonth date.year 12 :=
        Finset.sum_Ico_succ_top (by decide) _
      unfold number
      dsimp only
      rw [Finset.sum_Ico_succ_top date.le_year, Finset.Ico_self, Finset.sum_empty, hyear]
      rw [hmonth] at hfull hlast ⊢
      omega

/-! ### Earlier dates have smaller numbers -/

theorem number_lt_of_day (hyear : earlier.year = later.year) (hmonth : earlier.month = later.month)
    (hday : earlier.day < later.day) : earlier.number < later.number := by
  have hfirst := earlier.one_le_day
  unfold number
  rw [hyear, hmonth]
  omega

/-- A date is not beyond its month. -/
theorem number_lt_succ_month (date : Date) : date.number <
    ∑ year ∈ Finset.Ico 1970 date.year, daysInYear year +
      ∑ month ∈ Finset.Ico 1 (date.month + 1), daysInMonth date.year month := by
  have hfirst := date.one_le_day
  have hlast := date.day_le
  unfold number
  rw [Finset.sum_Ico_succ_top date.one_le_month]
  omega

theorem number_lt_of_month (hyear : earlier.year = later.year)
    (hmonth : earlier.month < later.month) : earlier.number < later.number := by
  have hmonths : ∑ month ∈ Finset.Ico 1 (earlier.month + 1), daysInMonth later.year month ≤
      ∑ month ∈ Finset.Ico 1 later.month, daysInMonth later.year month :=
    Finset.sum_le_sum_of_subset (Finset.Ico_subset_Ico_right hmonth)
  calc earlier.number
    _ < ∑ year ∈ Finset.Ico 1970 later.year, daysInYear year +
          ∑ month ∈ Finset.Ico 1 (earlier.month + 1), daysInMonth later.year month := by
      rw [← hyear]
      exact earlier.number_lt_succ_month
    _ ≤ ∑ year ∈ Finset.Ico 1970 later.year, daysInYear year +
          ∑ month ∈ Finset.Ico 1 later.month, daysInMonth later.year month :=
      Nat.add_le_add_left hmonths _
    _ ≤ later.number := Nat.le_add_right _ _

/-- A date is not beyond its year. -/
theorem number_lt_succ_year (date : Date) :
    date.number < ∑ year ∈ Finset.Ico 1970 (date.year + 1), daysInYear year := by
  have hmonths : ∑ month ∈ Finset.Ico 1 (date.month + 1), daysInMonth date.year month ≤
      daysInYear date.year :=
    Finset.sum_le_sum_of_subset (Finset.Ico_subset_Ico_right (Nat.succ_le_succ date.month_le))
  calc date.number
    _ < ∑ year ∈ Finset.Ico 1970 date.year, daysInYear year +
          ∑ month ∈ Finset.Ico 1 (date.month + 1), daysInMonth date.year month :=
      date.number_lt_succ_month
    _ ≤ ∑ year ∈ Finset.Ico 1970 date.year, daysInYear year + daysInYear date.year :=
      Nat.add_le_add_left hmonths _
    _ = ∑ year ∈ Finset.Ico 1970 (date.year + 1), daysInYear year :=
      (Finset.sum_Ico_succ_top date.le_year _).symm

theorem number_lt_of_year (hyear : earlier.year < later.year) : earlier.number < later.number :=
  calc earlier.number
    _ < ∑ year ∈ Finset.Ico 1970 (earlier.year + 1), daysInYear year := earlier.number_lt_succ_year
    _ ≤ ∑ year ∈ Finset.Ico 1970 later.year, daysInYear year :=
      Finset.sum_le_sum_of_subset (Finset.Ico_subset_Ico_right hyear)
    _ ≤ later.number := (Nat.le_add_right _ _).trans (Nat.le_add_right _ _)

theorem number_lt (h : earlier < later) : earlier.number < later.number := by
  rcases h with hyear | ⟨hyear, hmonth | ⟨hmonth, hday⟩⟩
  · exact number_lt_of_year hyear
  · exact number_lt_of_month hyear hmonth
  · exact number_lt_of_day hyear hmonth hday

theorem lt_iff : earlier < later ↔ earlier.year < later.year ∨ earlier.year = later.year ∧
    (earlier.month < later.month ∨ earlier.month = later.month ∧ earlier.day < later.day) := Iff.rfl

theorem lt_trichotomy (date other : Date) : date < other ∨ date = other ∨ other < date := by
  rw [lt_iff, lt_iff, Date.ext_iff]
  omega

theorem number_lt_iff : earlier.number < later.number ↔ earlier < later := by
  constructor
  · intro hnumber
    rcases lt_trichotomy earlier later with h | rfl | h
    · exact h
    · exact absurd hnumber (Nat.lt_irrefl _)
    · exact absurd (number_lt h) (Nat.not_lt_of_gt hnumber)
  · exact number_lt

theorem number_inj : earlier.number = later.number ↔ earlier = later := by
  constructor
  · intro hnumber
    rcases lt_trichotomy earlier later with h | h | h
    · exact absurd hnumber (Nat.ne_of_lt (number_lt h))
    · exact h
    · exact absurd hnumber (Nat.ne_of_gt (number_lt h))
  · exact congrArg number

end Date

/-! ### The year of a clock reading -/

theorem days?_firstDay {year : Nat} (hstart : 1970 ≤ year) :
    Calendar.days? year 1 1 = some (daysBeforeYear year) := by
  have hdate : ¬((year : Int) < 1970 ∨ 1 < 1 ∨ 12 < 1 ∨ 1 = 0) := by omega
  unfold Calendar.days?
  rw [if_neg hdate, Int.toNat_natCast, daysBeforeMonth, Nat.sub_self, Nat.add_zero]

theorem currentYear_eq_iff (now : Int) (year : Nat) : currentYear now = year ↔
    1970 ≤ year ∧ daysBeforeYear year * secondsPerDay ≤ now.toNat ∧
      now.toNat < daysBeforeYear (year + 1) * secondsPerDay := by
  have hday : 0 < secondsPerDay := by decide
  rw [← Nat.le_div_iff_mul_le hday, ← Nat.div_lt_iff_lt_mul hday]
  constructor
  · rintro rfl
    obtain ⟨hstart, hfrom, hto⟩ :=
      yearAfter_spec 1970 (now.toNat / secondsPerDay) (Nat.le_refl _)
    have hzero : daysBeforeYear 1970 = 0 := rfl
    rw [hzero, Nat.zero_add] at hfrom hto
    exact ⟨hstart, hfrom, hto⟩
  · rintro ⟨hstart, hfrom, hto⟩
    have hlt : currentYear now < year + 1 :=
      (currentYear_lt_iff now (Nat.le_succ_of_le hstart)).mpr hto
    have hle : ¬ currentYear now < year :=
      mt (currentYear_lt_iff now hstart).mp (Nat.not_lt_of_le hfrom)
    omega

/-- The year of the clock is the one whose seconds hold the reading, where it fits its number. -/
theorem yearNow_eq_ok_iff (now : Int) (year : Nat) : ListLine.yearNow now = .ok year ↔
    year < 2 ^ 31 ∧ ∃ first next, Calendar.days? year 1 1 = some first ∧
      Calendar.days? (year + 1 : Nat) 1 1 = some next ∧
      86400 * first ≤ now.toNat ∧ now.toNat < 86400 * next := by
  have hyear : ListLine.yearNow now = .ok year ↔ year < 2 ^ 31 ∧ currentYear now = year := by
    rw [ListLine.yearNow_eq]
    split
    case isTrue hfits =>
      rw [Except.ok.injEq]
      exact ⟨fun h ↦ ⟨h ▸ hfits, h⟩, And.right⟩
    case isFalse hlarge =>
      refine ⟨nofun, fun ⟨hfits, h⟩ ↦ absurd ?_ hlarge⟩
      rw [h]
      exact hfits
  rw [hyear, currentYear_eq_iff, Nat.mul_comm, Nat.mul_comm (daysBeforeYear (year + 1))]
  refine and_congr_right fun _ ↦ ⟨?_, ?_⟩
  · rintro ⟨hstart, hfrom, hto⟩
    exact ⟨_, _, days?_firstDay hstart, days?_firstDay (Nat.le_succ_of_le hstart), hfrom, hto⟩
  · rintro ⟨first, next, hfirst, hnext, hfrom, hto⟩
    have hstart : 1970 ≤ year := Int.ofNat_le.mp (days?_eq_some hfirst).1
    rw [days?_firstDay hstart, Option.some.injEq] at hfirst
    rw [days?_firstDay (Nat.le_succ_of_le hstart), Option.some.injEq] at hnext
    subst hfirst hnext
    exact ⟨hstart, hfrom, hto⟩

theorem exists_yearNow_iff (now : Int) : (∃ year, ListLine.yearNow now = .ok year) ↔
    ∃ bound, Calendar.days? (2 ^ 31 : Nat) 1 1 = some bound ∧ now.toNat < 86400 * bound := by
  have hday : 0 < secondsPerDay := by decide
  have hstart : 1970 ≤ 2 ^ 31 := by decide
  have hfits : currentYear now < 2 ^ 31 ↔ now.toNat < 86400 * daysBeforeYear (2 ^ 31) := by
    rw [currentYear_lt_iff now hstart, Nat.div_lt_iff_lt_mul hday, Nat.mul_comm]
    rfl
  simp only [days?_firstDay hstart, Option.some.injEq, exists_eq_left', ← hfits]
  rw [ListLine.yearNow_eq]
  split
  case isTrue hyear => exact iff_of_true ⟨_, rfl⟩ hyear
  case isFalse hyear => exact iff_of_false nofun hyear

/-- The days since 1970 count the dates of the calendar, and the year of the clock is found by the
same count. -/
theorem days_follow_calendar :
    Date.epoch.days? = some 0 ∧
    (∀ date : Date, ∃ n, date.days? = some n ∧ date.next.days? = some (n + 1)) ∧
    (∀ date other : Date, ∃ m n, date.days? = some m ∧ other.days? = some n ∧
      (m < n ↔ date < other) ∧ (m = n ↔ date = other)) ∧
    (∀ (now : Int) (year : Nat), ListLine.yearNow now = .ok year ↔
      year < 2 ^ 31 ∧ ∃ first next, Calendar.days? year 1 1 = some first ∧
        Calendar.days? (year + 1 : Nat) 1 1 = some next ∧
        86400 * first ≤ now.toNat ∧ now.toNat < 86400 * next) ∧
    ∀ now : Int, (∃ year, ListLine.yearNow now = .ok year) ↔
      ∃ bound, Calendar.days? (2 ^ 31 : Nat) 1 1 = some bound ∧ now.toNat < 86400 * bound := by
  refine ⟨days?_firstDay (Nat.le_refl _), ?_, ?_, yearNow_eq_ok_iff, exists_yearNow_iff⟩
  · intro date
    refine ⟨date.number, date.days?_eq, ?_⟩
    rw [date.next.days?_eq, date.number_next]
  · intro date other
    exact ⟨_, _, date.days?_eq, other.days?_eq, Date.number_lt_iff, Date.number_inj⟩

end DirectoryBrowser.Calendar
