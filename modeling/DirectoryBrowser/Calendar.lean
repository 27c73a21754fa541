/-!
# Calendar days

Days are counted from the first of January 1970 in the Gregorian calendar.
Going back from a clock reading to its year takes one year's length off at a
time.
-/

namespace DirectoryBrowser.Calendar

def isLeap (year : Nat) : Bool :=
  year % 4 == 0 && (year % 100 != 0 || year % 400 == 0)

def yearLength (year : Nat) : Nat := if isLeap year then 366 else 365

theorem yearLength_pos (year : Nat) : 0 < yearLength year := by
  unfold yearLength
  split <;> omega

def monthLength (year month : Nat) : Nat :=
  if month = 2 then if isLeap year then 29 else 28
  else if month = 4 ∨ month = 6 ∨ month = 9 ∨ month = 11 then 30
  else 31

/-- Leap years up to and including a year. -/
def leapYearsThrough (year : Nat) : Nat := year / 4 - year / 100 + year / 400

/-- Days from the start of 1970 to the start of a year, which is not earlier. -/
def daysBeforeYear (year : Nat) : Nat :=
  365 * (year - 1970) + (leapYearsThrough (year - 1) - leapYearsThrough 1969)

/-- Days from the start of a year to the start of a month. -/
def daysBeforeMonth (year : Nat) : Nat → Nat
  | 0 | 1 => 0
  | month + 1 => daysBeforeMonth year month + monthLength year month

/-- Days since the start of 1970. A day beyond the end of its month counts on into the next. -/
def days? (year : Int) (month day : Nat) : Option Nat :=
  if year < 1970 ∨ month < 1 ∨ 12 < month ∨ day = 0 then none
  else some (daysBeforeYear year.toNat + daysBeforeMonth year.toNat month + (day - 1))

/-- The year that lies a number of days after the start of another. -/
def yearAfter (year days : Nat) : Nat :=
  if days < yearLength year then year else yearAfter (year + 1) (days - yearLength year)
termination_by days
decreasing_by
  have := yearLength_pos year
  omega

def secondsPerDay : Nat := 86400

/-- Year of a clock reading in seconds. Readings from before 1970 count as its start. -/
def currentYear (now : Int) : Nat :=
  yearAfter 1970 (now.toNat / secondsPerDay)

end DirectoryBrowser.Calendar
