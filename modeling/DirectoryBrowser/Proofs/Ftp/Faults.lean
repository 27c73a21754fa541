import DirectoryBrowser.Ftp.Listing
import DirectoryBrowser.Proofs.Calendar
import DirectoryBrowser.Proofs.Text.Numerals
import Mathlib.Tactic.Linarith

/-!
# Lines that cannot be read

A line is an entry or it is none, except where its time cannot be computed.
The columns of a line bound what they hold one by one, but nothing bounds the
hours and minutes of a time of day as a sum, which has to fit the clock.
Permissions are looked up only where there are enough of them, and a name is
checked before an entry is made of it, so neither breaks the reading off.
-/

namespace DirectoryBrowser.ListLine

open Text

variable {now : Int} {fault : Fault}

/-- Faults of computing with numbers of a fixed width. -/
def Fault.isOverflow : Fault → Bool
  | .product | .sum | .clock => true
  | .column .. | .name _ => false

section Except

variable {α β : Type} {result : Except Fault α}

theorem map_eq_error {f : α → β} : result.map f = .error fault ↔ result = .error fault := by
  cases result with
  | error other => simp [Except.map]
  | ok value => simp [Except.map]

theorem bind_eq_error {next : α → Except Fault β} : result >>= next = .error fault ↔
    result = .error fault ∨ ∃ value, result = .ok value ∧ next value = .error fault := by
  cases result with
  | error other => simp [bind, Except.bind]
  | ok value => simp [bind, Except.bind]

theorem bind_eq_ok {next : α → Except Fault β} {answer : β} :
    result >>= next = .ok answer ↔ ∃ value, result = .ok value ∧ next value = .ok answer := by
  cases result with
  | error other => simp [bind, Except.bind]
  | ok value => simp [bind, Except.bind]

end Except

/-! ### Times -/

theorem times_eq_ok {a b c : Nat} : times a b = .ok c ↔ a * b < UInt64.size ∧ c = a * b := by
  unfold times
  split
  case isTrue h => simp [h, eq_comm]
  case isFalse h => simp [h]

theorem plus_eq_ok {a b c : Nat} : plus a b = .ok c ↔ a + b < UInt64.size ∧ c = a + b := by
  unfold plus
  split
  case isTrue h => simp [h, eq_comm]
  case isFalse h => simp [h]

theorem times_eq_error {a b : Nat} (h : times a b = .error fault) : fault = .product := by
  unfold times at h
  split at h
  · cases h
  · cases h
    rfl

theorem plus_eq_error {a b : Nat} (h : plus a b = .error fault) : fault = .sum := by
  unfold plus at h
  split at h
  · cases h
  · cases h
    rfl

/-- No number on the way is larger than the sum, so it is the clock alone that decides. -/
theorem secondsAt_eq_ok {days hour minute seconds : Nat} :
    secondsAt days hour minute = .ok seconds ↔
      days * 86400 + hour * 3600 + minute * 60 < 0x8000000000000000 ∧
        seconds = days * 86400 + hour * 3600 + minute * 60 := by
  have hsize : UInt64.size = 18446744073709551616 := rfl
  unfold secondsAt
  simp only [bind_eq_ok, times_eq_ok, plus_eq_ok]
  constructor
  · rintro ⟨_, ⟨-, rfl⟩, _, ⟨-, rfl⟩, _, ⟨-, rfl⟩, _, ⟨-, rfl⟩, _, ⟨-, rfl⟩, hclock⟩
    split at hclock
    case isTrue hlt =>
      cases hclock
      exact ⟨hlt, rfl⟩
    case isFalse => cases hclock
  · rintro ⟨hlt, rfl⟩
    refine ⟨_, ⟨?_, rfl⟩, _, ⟨?_, rfl⟩, _, ⟨?_, rfl⟩, _, ⟨?_, rfl⟩, _, ⟨?_, rfl⟩, ?_⟩
    case refine_6 => rw [if_pos hlt]; rfl
    all_goals linarith

theorem isOverflow_of_secondsAt {days hour minute : Nat}
    (h : secondsAt days hour minute = .error fault) : fault.isOverflow = true := by
  unfold secondsAt at h
  simp only [bind_eq_error] at h
  rcases h with h | ⟨_, -, h | ⟨_, -, h | ⟨_, -, h | ⟨_, -, h | ⟨seconds, -, h⟩⟩⟩⟩⟩
  · rw [times_eq_error h]; rfl
  · rw [times_eq_error h]; rfl
  · rw [plus_eq_error h]; rfl
  · rw [times_eq_error h]; rfl
  · rw [plus_eq_error h]; rfl
  · split at h
    · cases h
    · cases h
      rfl

theorem secondsAt_breaks_iff {days hour minute : Nat} :
    (∃ fault, secondsAt days hour minute = .error fault) ↔
      0x8000000000000000 ≤ days * 86400 + hour * 3600 + minute * 60 := by
  cases hseconds : secondsAt days hour minute with
  | ok seconds =>
    have hlt := (secondsAt_eq_ok.mp hseconds).1
    simpa using hlt
  | error fault =>
    have hle : ¬ days * 86400 + hour * 3600 + minute * 60 < 0x8000000000000000 := by
      intro hlt
      rw [secondsAt_eq_ok.mpr ⟨hlt, rfl⟩] at hseconds
      cases hseconds
    simpa using hle

theorem lt_of_unsigned? {bound n : Nat} {text : List Char} (h : unsigned? bound text = some n) :
    n < bound := by
  unfold unsigned? at h
  split at h
  · exact lt_of_numeral? h
  · exact lt_of_numeral? h

theorem lt_of_signed? {bound : Nat} {year : Int} {text : List Char} (hbound : 0 < bound)
    (h : signed? bound text = some year) : year < bound := by
  unfold signed? at h
  split at h
  · obtain ⟨n, -, rfl⟩ := Option.map_eq_some_iff.mp h
    omega
  · obtain ⟨n, hn, rfl⟩ := Option.map_eq_some_iff.mp h
    exact Int.ofNat_lt.mpr (lt_of_numeral? hn)
  · obtain ⟨n, hn, rfl⟩ := Option.map_eq_some_iff.mp h
    exact Int.ofNat_lt.mpr (lt_of_numeral? hn)

theorem yearNow_eq (now : Int) : yearNow now =
    if Calendar.currentYear now < 0x80000000 then .ok (Calendar.currentYear now)
    else .error .sum := by
  unfold yearNow
  simp only [Calendar.currentYear_lt_iff now (show 1970 ≤ 0x80000000 by decide)]

theorem secondsOf_breaks_iff {year : Int} {month day hour minute : Nat} :
    (∃ fault, secondsOf year month day hour minute = .error fault) ↔
      ∃ days, Calendar.days? year month day = some days ∧
        0x8000000000000000 ≤ days * 86400 + hour * 3600 + minute * 60 := by
  unfold secondsOf
  cases Calendar.days? year month day with
  | none => simp
  | some days =>
    simp only [map_eq_error, Option.some.injEq, exists_eq_left']
    exact secondsAt_breaks_iff

/-- A date with a year is far from the end of the clock. -/
theorem secondsOf_midnight {year : Int} {month day : Nat} (hyear : year < 0x80000000)
    (hday : day < UInt32.size) : ∃ time, secondsOf year month day 0 0 = .ok time := by
  unfold secondsOf
  cases hdays : Calendar.days? year month day with
  | none => exact ⟨none, rfl⟩
  | some days =>
    have hlt := Calendar.days?_lt hdays hyear hday
    have hseconds : secondsAt days 0 0 = .ok (days * 86400) :=
      secondsAt_eq_ok.mpr ⟨by omega, by omega⟩
    exact ⟨some (days * 86400), congrArg (Except.map some) hseconds⟩

/-- The date columns are a day and a time of day that cannot be computed: the year of the clock
does not fit 32 bits, or the seconds do not fit the clock. -/
def Columns.IsBeyond (columns : Columns) (now : Int) : Prop :=
  ∃ month day hourText minuteText,
    month? columns.month = some month ∧
    unsigned? UInt32.size columns.day = some day ∧
    cutWhere? (· == ':') columns.yearOrTime = some (hourText, minuteText) ∧
    (0x80000000 ≤ Calendar.currentYear now ∨
      ∃ hour minute days,
        unsigned? UInt64.size hourText = some hour ∧
        unsigned? UInt64.size minuteText = some minute ∧
        Calendar.days? (Calendar.currentYear now) month day = some days ∧
        0x8000000000000000 ≤ days * 86400 + hour * 3600 + minute * 60)

theorem timeOf_of_year {monthText dayText lastText : List Char}
    (hlast : cutWhere? (· == ':') lastText = none) :
    ∃ time, timeOf now monthText dayText lastText = .ok time := by
  unfold timeOf yearOrTime
  rw [hlast]
  split
  case h_1 month day hmonth hday =>
    cases hyear : signed? 0x80000000 lastText with
    | none => exact ⟨none, rfl⟩
    | some year => exact secondsOf_midnight (lt_of_signed? (by decide) hyear) (lt_of_unsigned? hday)
  case h_2 => exact ⟨none, rfl⟩

theorem timeOf_of_time {monthText dayText lastText hourText minuteText : List Char} {month day : Nat}
    (hmonth : month? monthText = some month) (hday : unsigned? UInt32.size dayText = some day)
    (hlast : cutWhere? (· == ':') lastText = some (hourText, minuteText)) :
    (∃ fault, timeOf now monthText dayText lastText = .error fault) ↔
      0x80000000 ≤ Calendar.currentYear now ∨
      ∃ hour minute days,
        unsigned? UInt64.size hourText = some hour ∧
        unsigned? UInt64.size minuteText = some minute ∧
        Calendar.days? (Calendar.currentYear now) month day = some days ∧
        0x8000000000000000 ≤ days * 86400 + hour * 3600 + minute * 60 := by
  unfold timeOf yearOrTime
  rw [hmonth, hday, hlast, yearNow_eq]
  by_cases hyear : Calendar.currentYear now < 0x80000000
  · simp only [if_pos hyear, bind, Except.bind, Except.map, Nat.not_le_of_lt hyear, false_or]
    cases hhour : unsigned? UInt64.size hourText with
    | none => simp [pure, Except.pure]
    | some hour =>
      cases hminute : unsigned? UInt64.size minuteText with
      | none => simp [pure, Except.pure]
      | some minute =>
        simp only [Option.some.injEq, exists_and_left, exists_eq_left']
        exact secondsOf_breaks_iff
  · simp [if_neg hyear, bind, Except.bind, Except.map, Nat.le_of_not_lt hyear]

theorem isOverflow_of_timeOf {monthText dayText lastText : List Char}
    (h : timeOf now monthText dayText lastText = .error fault) : fault.isOverflow = true := by
  unfold timeOf at h
  split at h
  case h_1 month day _ _ =>
    rcases bind_eq_error.mp h with hlast | ⟨last, -, hseconds⟩
    · unfold yearOrTime at hlast
      split at hlast
      · rw [map_eq_error, yearNow_eq] at hlast
        split at hlast
        · cases hlast
        · cases hlast
          rfl
      · cases hlast
    · split at hseconds
      · unfold secondsOf at hseconds
        split at hseconds
        · exact isOverflow_of_secondsAt (map_eq_error.mp hseconds)
        · cases hseconds
      · cases hseconds
  case h_2 => cases h

theorem Columns.time_breaks_iff (columns : Columns) (now : Int) :
    (∃ fault, columns.time now = .error fault) ↔ columns.IsBeyond now := by
  unfold IsBeyond time
  cases hmonth : month? columns.month with
  | none => simp [timeOf, hmonth]
  | some month =>
    cases hday : unsigned? UInt32.size columns.day with
    | none => simp [timeOf, hmonth, hday]
    | some day =>
      cases hlast : cutWhere? (· == ':') columns.yearOrTime with
      | none =>
        obtain ⟨time, htime⟩ : ∃ time, timeOf now columns.month columns.day columns.yearOrTime =
            .ok time := timeOf_of_year hlast
        simp [htime]
      | some texts =>
        obtain ⟨hourText, minuteText⟩ := texts
        rw [timeOf_of_time hmonth hday hlast]
        simp

/-! ### Permissions and names -/

theorem addBit_eq {permissions : List Char} {column : Nat × List Char × Nat}
    (h : column.1 < permissions.length) (mode : Nat) :
    addBit permissions mode column =
      .ok (if column.2.1.contains permissions[column.1] then mode ||| column.2.2 else mode) := by
  have hletter : letterAt permissions column.1 = .ok permissions[column.1] := by
    unfold letterAt
    rw [List.getElem?_eq_getElem h]
  obtain ⟨place, letters, bit⟩ := column
  unfold addBit
  dsimp only at hletter ⊢
  rw [hletter]
  rfl

/-- The column holds one of its letters. -/
def holdsLetter (permissions : List Char) (column : Nat × List Char × Nat) : Bool :=
  permissions[column.1]?.any column.2.1.contains

/-- A bit is set once it is set in what a column adds. -/
theorem foldlM_addBit {permissions : List Char} {columns : List (Nat × List Char × Nat)}
    (h : ∀ column ∈ columns, column.1 < permissions.length) (mode : Nat) :
    ∃ next, columns.foldlM (addBit permissions) mode = .ok next ∧ ∀ bit, next.testBit bit =
      (mode.testBit bit ||
        columns.any fun column ↦ holdsLetter permissions column && column.2.2.testBit bit) := by
  induction columns generalizing mode with
  | nil => exact ⟨mode, rfl, fun bit ↦ (Bool.or_false _).symm⟩
  | cons column columns ih =>
    obtain ⟨hcolumn, hrest⟩ := List.forall_mem_cons.mp h
    have hholds : holdsLetter permissions column = column.2.1.contains permissions[column.1] := by
      unfold holdsLetter
      rw [List.getElem?_eq_getElem hcolumn, Option.any_some]
    obtain ⟨next, hnext, hbits⟩ :=
      ih hrest (if column.2.1.contains permissions[column.1] then mode ||| column.2.2 else mode)
    refine ⟨next, ?_, fun bit ↦ ?_⟩
    · rw [List.foldlM_cons, addBit_eq hcolumn]
      exact hnext
    · rw [hbits bit, List.any_cons, hholds, ← Bool.or_assoc]
      congr 1
      split
      case isTrue hletter => rw [Nat.testBit_or, hletter, Bool.true_and]
      case isFalse hletter => rw [eq_false_of_ne_true hletter, Bool.false_and, Bool.or_false]

theorem permissionBits_lt : ∀ column ∈ permissionBits, column.1 < 10 := by decide

/-- Every column that is looked up is there. -/
theorem modeOf_eq_ok (permissions : List Char) : ∃ mode, modeOf permissions = .ok mode := by
  unfold modeOf
  split
  case isTrue => exact ⟨0, rfl⟩
  case isFalse hlength =>
    obtain ⟨mode, hmode, -⟩ := foldlM_addBit (fun column hcolumn ↦
      (permissionBits_lt column hcolumn).trans_le (Nat.le_of_not_lt hlength)) 0
    exact ⟨mode, hmode⟩

theorem make_of_isOwnName {name : List Char} (h : isOwnName name = true) (isDir : Bool)
    (info : Option EntryInfo) :
    Entry.make (String.ofList name) isDir info = .ok ⟨String.ofList name, isDir, info⟩ := by
  unfold isOwnName at h
  simp only [Bool.and_eq_true, Bool.not_eq_true', bne_iff_ne] at h
  obtain ⟨⟨⟨hempty, -⟩, -⟩, hslash⟩ := h
  have hchecked : Entry.checkName (String.ofList name) = .ok () := by
    unfold Entry.checkName
    rw [if_neg (by simpa using hempty), String.toList_ofList, if_neg (by simpa using hslash)]
  unfold Entry.make
  rw [hchecked]
  rfl

/-! ### Lines -/

/-- Only the time can be missing from an entry whose name is one. -/
theorem Columns.entry_eq_map (columns : Columns) (now : Int) {name : List Char}
    (hname : isOwnName name = true) : ∃ mode, modeOf columns.permissions = .ok mode ∧
      columns.entry now name = (columns.time now).map fun modified ↦
        ⟨String.ofList name, columns.isDir, some (columns.info modified mode)⟩ := by
  obtain ⟨mode, hmode⟩ := modeOf_eq_ok columns.permissions
  refine ⟨mode, hmode, ?_⟩
  unfold entry
  simp only [hmode, make_of_isOwnName hname]
  cases columns.time now with
  | error fault => rfl
  | ok modified => rfl

theorem parse_eq_error {line : String} : parse now line = .error fault ↔
    ∃ columns, columns? line.toList = some columns ∧
      isOwnName (columns.nameIn line.toList) = true ∧ columns.time now = .error fault := by
  unfold parse
  cases columns? line.toList with
  | none => simp
  | some columns =>
    by_cases hname : isOwnName (columns.nameIn line.toList) = true
    · obtain ⟨mode, -, hentry⟩ := columns.entry_eq_map now hname
      simp [hname, hentry, map_eq_error]
    · simp [hname]

/-- A line that cannot be read is that of an entry whose date columns end in a time of day beyond
what the clock holds. Nothing else breaks the reading of a line off: a date by itself fits by far,
every column of the permissions that is looked up is there, and what an entry is made of is a name. -/
theorem parse_breaks_off_iff (now : Int) (line : String) :
    ((∃ fault, parse now line = .error fault) ↔
      ∃ columns, columns? line.toList = some columns ∧
        isOwnName (columns.nameIn line.toList) = true ∧ columns.IsBeyond now) ∧
    (∀ (year : Int) (month day days : Nat), year < 0x80000000 → day < UInt32.size →
      Calendar.days? year month day = some days → days * 86400 < UInt64.size) ∧
    (∀ length index, parse now line ≠ .error (.column length index)) ∧
    ∀ invalid, parse now line ≠ .error (.name invalid) := by
  have hoverflow : ∀ fault, parse now line = .error fault → fault.isOverflow = true := by
    intro fault hfault
    obtain ⟨columns, -, -, htime⟩ := parse_eq_error.mp hfault
    exact isOverflow_of_timeOf htime
  refine ⟨?_, ?_, ?_, ?_⟩
  · simp only [parse_eq_error, ← Columns.time_breaks_iff]
    constructor
    · rintro ⟨fault, columns, hcolumns, hname, htime⟩
      exact ⟨columns, hcolumns, hname, fault, htime⟩
    · rintro ⟨columns, hcolumns, hname, fault, htime⟩
      exact ⟨fault, columns, hcolumns, hname, htime⟩
  · intro year month day days hyear hday hdays
    have hlt := Calendar.days?_lt hdays hyear hday
    have hsize : UInt64.size = 18446744073709551616 := rfl
    linarith
  · intro length index hfault
    cases hoverflow _ hfault
  · intro invalid hfault
    cases hoverflow _ hfault

/-- Hours that fit their column, but not the clock. -/
theorem parse_breaks_off_late :
    parse 1718409600 "-rw-r--r-- 1 ftp grp 1234 Jan 15 5000000000000000:0 notes" =
      .error .clock := by
  with_unfolding_all rfl

end DirectoryBrowser.ListLine
