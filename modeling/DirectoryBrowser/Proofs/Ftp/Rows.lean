import DirectoryBrowser.Proofs.Containment
import DirectoryBrowser.Proofs.Gregorian
import DirectoryBrowser.Proofs.Text.Columns
import Mathlib.Data.List.TakeWhile
import Mathlib.Tactic.IntervalCases

/-!
# Rows of a listing, printed and read back

A row is what a file server prints of an entry, and it can be printed in many
ways: numbers may have zeros in front, a month may be in any case, and the
columns may stand any white space apart. However it is printed, reading gives the
entry that the row tells of. The columns are found as words, and the name once
more behind eight of them, since a word need not be all of it.
-/

namespace DirectoryBrowser.ListLine

open Text

/-! ### Rows -/

/-- What stands between the name of a link and where it leads. -/
def arrow : List Char := " -> ".toList

def isLineEnd (c : Char) : Bool := c == '\r' || c == '\n'

/-- What is printed of an entry. -/
structure Row where
  kind : Char
  permissions : Fin 9 → Char
  /-- What stands behind the permissions, such as the mark of an access list. -/
  marks : List Char
  links : List Char
  owner : String
  group : String
  size : Nat
  date : Calendar.Date
  time : Option (Fin 24 × Fin 60)
  name : String
  /-- Where a link leads. -/
  target : List Char
  isColumn_permissions : IsColumn (kind :: (List.ofFn permissions ++ marks))
  isColumn_links : IsColumn links
  isColumn_owner : IsColumn owner.toList
  isColumn_group : IsColumn group.toList
  size_lt : size < 2 ^ 64
  name_ne : name ≠ "" ∧ name ≠ "." ∧ name ≠ ".."
  slash_notMem : '/' ∉ name.toList
  begins : ∀ c ∈ name.toList.head?, isSpace c = false
  ends : ∀ c ∈ name.toList.getLast?, isLineEnd c = false
  /-- No arrow begins before the one behind the name. -/
  arrow_first : kind = 'l' → ∀ i < name.toList.length, ¬ arrow <+: (name.toList ++ arrow).drop i

/-- Letters that grant what a place is for: reading, writing and execution by turns, where the
set-id and sticky marks stand in for execution. -/
def lettersAt (place : Fin 9) : List Char :=
  match place.val % 3 with
  | 0 => ['r']
  | 1 => ['w']
  | _ => ['x', if place = 8 then 't' else 's']

namespace Row

def permissionText (row : Row) : List Char :=
  row.kind :: (List.ofFn row.permissions ++ row.marks)

def nameText (row : Row) : List Char :=
  if row.kind = 'l' then row.name.toList ++ arrow ++ row.target else row.name.toList

/-- The first place is that of the highest bit. -/
def mode (row : Row) : Nat :=
  Nat.ofBits fun bit : Fin 9 ↦ (lettersAt bit.rev).contains (row.permissions bit.rev)

/-- Hour and minute; where none are given it is midnight. -/
def clock (row : Row) : Nat × Nat :=
  match row.time with
  | none => (0, 0)
  | some (hour, minute) => (hour, minute)

/-- Seconds since the start of 1970. -/
def seconds (row : Row) : Nat :=
  86400 * row.date.number + 3600 * row.clock.1 + 60 * row.clock.2

/-- The entry that a row tells of. -/
def entry (row : Row) : Entry where
  name := row.name
  isDir := row.kind == 'd'
  info := some
    { size := if row.kind = 'd' then 0 else row.size
      modified := some row.seconds
      mode := row.mode
      owner := row.owner
      group := row.group }

/-- A row is printed with its year, or with a time of day if its year is that of the clock. -/
def IsDated (row : Row) (now : Int) : Prop :=
  match row.time with
  | none => row.date.year ≤ 9999
  | some _ => yearNow now = .ok row.date.year

end Row

/-- English name of a month. -/
def monthName : Nat → String
  | 1 => "Jan"
  | 2 => "Feb"
  | 3 => "Mar"
  | 4 => "Apr"
  | 5 => "May"
  | 6 => "Jun"
  | 7 => "Jul"
  | 8 => "Aug"
  | 9 => "Sep"
  | 10 => "Oct"
  | 11 => "Nov"
  | _ => "Dec"

/-- Text of the last date column. -/
def Row.IsYearOrTime (row : Row) (text : List Char) : Prop :=
  match row.time with
  | none => IsNumeral row.date.year text
  | some (hour, minute) => ∃ hourText minuteText, IsNumeral hour hourText ∧
      IsNumeral minute minuteText ∧ text = hourText ++ ':' :: minuteText

/-- The choices that are left when a row is printed. -/
structure Print (row : Row) where
  size : List Char
  month : List Char
  day : List Char
  yearOrTime : List Char
  gaps : Fin 8 → List Char
  ending : List Char
  isNumeral_size : IsNumeral row.size size
  month_eq : month.map Char.toLower = (monthName row.date.month).toList.map Char.toLower
  isNumeral_day : IsNumeral row.date.day day
  isYearOrTime : row.IsYearOrTime yearOrTime
  isGap : ∀ i, IsGap (gaps i)
  isLineEnd_ending : ∀ c ∈ ending, isLineEnd c = true

namespace Print

variable {row : Row} (print : Print row)

/-- Each column with the white space behind it. -/
def columns : List (List Char × List Char) :=
  [(row.permissionText, print.gaps 0), (row.links, print.gaps 1),
    (row.owner.toList, print.gaps 2), (row.group.toList, print.gaps 3),
    (print.size, print.gaps 4), (print.month, print.gaps 5), (print.day, print.gaps 6),
    (print.yearOrTime, print.gaps 7)]

/-- The columns as they stand in the line. -/
def found : Columns where
  permissions := row.permissionText
  owner := row.owner.toList
  group := row.group.toList
  size := print.size
  month := print.month
  day := print.day
  yearOrTime := print.yearOrTime

/-- The line that is printed. -/
def line : String := String.ofList (spaced print.columns (row.nameText ++ print.ending))

end Print

/-! ### Columns -/

theorem dropWord_column {column gap : List Char} (hcolumn : IsColumn column) (hgap : IsGap gap)
    {rest : List Char} (hrest : ∀ c ∈ rest.head?, isSpace c = false) :
    dropWord (column ++ gap ++ rest) = rest := by
  unfold dropWord
  rw [(span_column hcolumn hgap rest).2, List.dropWhile_append_of_pos hgap.blank,
    dropWhile_of_head? hrest]

theorem repeat_dropWord_succ (count : Nat) (line : List Char) :
    Nat.repeat dropWord (count + 1) line = Nat.repeat dropWord count (dropWord line) := by
  induction count with
  | zero => rfl
  | succ count ih => exact congrArg dropWord ih

theorem repeat_dropWord_spaced {columns : List (List Char × List Char)} {rest : List Char}
    (h : ∀ column ∈ columns, IsColumn column.1 ∧ IsGap column.2)
    (hrest : ∀ c ∈ rest.head?, isSpace c = false) :
    Nat.repeat dropWord columns.length (spaced columns rest) = rest := by
  induction columns with
  | nil => rfl
  | cons column columns ih =>
    obtain ⟨⟨hcolumn, hgap⟩, hcolumns⟩ := List.forall_mem_cons.mp h
    have hword : dropWord (spaced (column :: columns) rest) = spaced columns rest :=
      dropWord_column hcolumn hgap (isSpace_head?_spaced hcolumns hrest)
    rw [List.length_cons, repeat_dropWord_succ, hword, ih hcolumns]

namespace Row

variable {row : Row}

theorem toList_name_ne_nil (row : Row) : row.name.toList ≠ [] :=
  mt String.toList_eq_nil_iff.mp row.name_ne.1

theorem IsYearOrTime.isColumn {text : List Char} (h : row.IsYearOrTime text) : IsColumn text := by
  unfold IsYearOrTime at h
  split at h
  case h_1 => exact h.isColumn
  case h_2 hour minute _ =>
    obtain ⟨hourText, minuteText, hhour, hminute, rfl⟩ := h
    refine ⟨List.append_ne_nil_of_right_ne_nil _ (List.cons_ne_nil _ _), ?_⟩
    exact List.forall_mem_append.mpr ⟨hhour.isColumn.solid,
      List.forall_mem_cons.mpr ⟨rfl, hminute.isColumn.solid⟩⟩

/-- The name stands in front, whatever comes behind it. -/
theorem nameText_eq (row : Row) : ∃ behind, row.nameText = row.name.toList ++ behind := by
  unfold nameText
  split
  · exact ⟨arrow ++ row.target, List.append_assoc ..⟩
  · exact ⟨[], (List.append_nil _).symm⟩

theorem head?_nameText (row : Row) (rest : List Char) :
    (row.nameText ++ rest).head? = row.name.toList.head? := by
  obtain ⟨behind, hname⟩ := row.nameText_eq
  rw [hname, List.append_assoc, List.head?_append_of_ne_nil _ row.toList_name_ne_nil]

end Row

theorem isColumn_monthName (month : Nat) :
    IsColumn ((monthName month).toList.map Char.toLower) := by
  unfold monthName
  split <;> decide

theorem isColumn_of_month {month : Nat} {text : List Char}
    (h : text.map Char.toLower = (monthName month).toList.map Char.toLower) : IsColumn text := by
  obtain ⟨hne, hsolid⟩ := isColumn_monthName month
  rw [← h] at hne hsolid
  refine ⟨mt List.map_eq_nil_iff.mpr hne, fun c hc ↦ ?_⟩
  rw [← isSpace_toLower]
  exact hsolid _ (List.mem_map_of_mem hc)

namespace Print

variable {row : Row} (print : Print row)

theorem spaced_columns : ∀ column ∈ print.columns, IsColumn column.1 ∧ IsGap column.2 := by
  have hpermissions : IsColumn row.permissionText := row.isColumn_permissions
  have hsize := print.isNumeral_size.isColumn
  have hday := print.isNumeral_day.isColumn
  have hmonth := isColumn_of_month print.month_eq
  have hlast := print.isYearOrTime.isColumn
  simp [columns, print.isGap, hpermissions, row.isColumn_links, row.isColumn_owner,
    row.isColumn_group, hsize, hmonth, hday, hlast]

theorem begins_named : ∀ c ∈ (row.nameText ++ print.ending).head?, isSpace c = false := by
  rw [row.head?_nameText]
  exact row.begins

theorem columns?_line : columns? print.line.toList = some print.found := by
  have hnamed : row.nameText ++ print.ending ≠ [] := by
    have hhead := row.head?_nameText print.ending
    rintro hnil
    rw [hnil] at hhead
    exact row.toList_name_ne_nil (List.head?_eq_none_iff.mp hhead.symm)
  obtain ⟨first, others, hwords⟩ := exists_first_word hnamed print.begins_named
  have hline : words isSpace print.line.toList =
      print.columns.map Prod.fst ++ first :: others := by
    rw [line, String.toList_ofList, words_spaced print.spaced_columns, hwords]
  unfold columns?
  rw [hline]
  rfl

/-! ### Names -/

theorem fromColumn_line : fromColumn print.line.toList 8 =
    dropTrailing isLineEnd (row.nameText ++ print.ending) := by
  have hspaced := isSpace_head?_spaced print.spaced_columns print.begins_named
  have hbehind := repeat_dropWord_spaced print.spaced_columns print.begins_named
  unfold fromColumn
  rw [line, String.toList_ofList, dropWhile_of_head? hspaced]
  exact congrArg (dropTrailing isLineEnd) hbehind

end Print

theorem cutAt?_first {pattern before : List Char}
    (hfirst : ∀ i < before.length, ¬ pattern <+: (before ++ pattern).drop i)
    (hne : pattern ≠ []) (rest : List Char) :
    cutAt? pattern (before ++ pattern ++ rest) = some (before, rest) := by
  induction before with
  | nil =>
    obtain ⟨c, pattern, rfl⟩ := List.exists_cons_of_ne_nil hne
    have hstart : dropStart? (c :: pattern) (c :: pattern ++ rest) = some rest :=
      Path.dropStart?_eq_some_iff.mpr rfl
    rw [List.nil_append, List.cons_append, cutAt?, ← List.cons_append, hstart]
  | cons c before ih =>
    have hstart : dropStart? pattern (c :: (before ++ pattern ++ rest)) = none := by
      refine Option.eq_none_iff_forall_ne_some.mpr fun after hafter ↦ ?_
      -- What is found here ends before the rest begins, so it is an earlier one.
      have hstarts : c :: (before ++ pattern) ++ rest = pattern ++ after :=
        Path.dropStart?_eq_some_iff.mp hafter
      exact hfirst 0 (Nat.zero_lt_succ _) (List.prefix_of_prefix_length_le
        ⟨after, hstarts.symm⟩ (List.prefix_append (c :: (before ++ pattern)) rest) (by simp; omega))
    have hlater : ∀ i < before.length, ¬ pattern <+: (before ++ pattern).drop i :=
      fun i hi ↦ hfirst (i + 1) (Nat.succ_lt_succ hi)
    rw [List.cons_append, List.cons_append, cutAt?, hstart, ih hlater]
    rfl

theorem dropTrailing_append_of_getLast? {p : Char → Bool} {front : List Char}
    (hfront : ∀ c ∈ front.getLast?, p c = false) (back : List Char) :
    dropTrailing p (front ++ back) = front ++ dropTrailing p back := by
  have htrimmed := Path.dropTrailing_append_rest (p := p) front back
  rwa [dropTrailing_of_getLast? hfront] at htrimmed

variable {row : Row} (print : Print row)

theorem nameOf_line : nameOf (row.kind == 'l') (fromColumn print.line.toList 8) =
    row.name.toList := by
  rw [print.fromColumn_line]
  unfold nameOf Row.nameText
  by_cases hkind : row.kind = 'l'
  case pos =>
    have hlast : ∀ c ∈ (row.name.toList ++ arrow).getLast?, isLineEnd c = false := by
      simp [arrow, isLineEnd]
    rw [if_pos (beq_iff_eq.mpr hkind), if_pos hkind, List.append_assoc _ row.target,
      dropTrailing_append_of_getLast? hlast, ← arrow,
      cutAt?_first (row.arrow_first hkind) (by decide)]
    rfl
  case neg =>
    have hending : dropTrailing isLineEnd print.ending = [] := by
      have hends : ∀ c ∈ print.ending.reverse, isLineEnd c = true :=
        fun c hc ↦ print.isLineEnd_ending c (List.mem_reverse.mp hc)
      rw [dropTrailing, List.dropWhile_eq_nil_iff.mpr hends, List.reverse_nil]
    rw [if_neg (mt beq_iff_eq.mp hkind), if_neg hkind, dropTrailing_append_of_getLast? row.ends,
      hending, List.append_nil]

theorem Row.isOwnName_name (row : Row) : isOwnName row.name.toList = true := by
  obtain ⟨hempty, hdot, hdots⟩ := row.name_ne
  have hslash := row.slash_notMem
  have hdot : row.name.toList ≠ ['.'] := fun h ↦ hdot (String.toList_injective h)
  have hdots : row.name.toList ≠ ['.', '.'] := fun h ↦ hdots (String.toList_injective h)
  simp [isOwnName, hempty, hdot, hdots, hslash]

/-! ### Dates -/

theorem month?_eq {text : List Char} {month : Nat} (hfirst : 1 ≤ month) (hlast : month ≤ 12)
    (h : text.map Char.toLower = (monthName month).toList.map Char.toLower) :
    month? text = some month := by
  have hlower : text.map lowerAscii = text.map Char.toLower :=
    List.map_congr_left fun c _ ↦ lowerAscii_eq c
  unfold month?
  rw [hlower, h]
  interval_cases month <;> decide

theorem yearOrTime_eq {now : Int} {text : List Char} (hdated : row.IsDated now)
    (h : row.IsYearOrTime text) : yearOrTime now text =
      .ok (some ((row.date.year : Int), row.clock.1, row.clock.2)) := by
  unfold Row.IsDated at hdated
  unfold Row.IsYearOrTime at h
  unfold yearOrTime Row.clock
  split at h
  case h_1 htime =>
    have hcolon : ':' ∉ text := h.notMem (by decide)
    rw [htime] at hdated
    dsimp only at hdated
    rw [cutWhere?_eq_none_iff.mpr hcolon]
    dsimp only
    rw [h.signed?_eq (by omega)]
    rfl
  case h_2 hour minute htime =>
    obtain ⟨hourText, minuteText, hhour, hminute, rfl⟩ := h
    have hcolon : ':' ∉ hourText := hhour.notMem (by decide)
    have hhour := hhour.unsigned?_eq (hour.isLt.trans (show 24 < UInt64.size by decide))
    have hminute := hminute.unsigned?_eq (minute.isLt.trans (show 60 < UInt64.size by decide))
    rw [htime] at hdated
    dsimp only at hdated
    rw [cutWhere?_append hcolon, hdated]
    dsimp only
    rw [hhour, hminute]
    rfl

theorem Row.IsDated.year_lt {now : Int} (hdated : row.IsDated now) :
    row.date.year < 0x80000000 := by
  unfold Row.IsDated at hdated
  split at hdated
  · omega
  · rw [yearNow_eq] at hdated
    split at hdated
    case isTrue hlt => exact Except.ok.inj hdated ▸ hlt
    case isFalse => cases hdated

theorem Row.clock_lt (row : Row) : row.clock.1 < 24 ∧ row.clock.2 < 60 := by
  unfold Row.clock
  split
  · decide
  case h_2 hour minute _ => exact ⟨hour.isLt, minute.isLt⟩

theorem Row.day_lt (row : Row) : row.date.day < UInt32.size := by
  have hday := row.date.day_le
  have hmonth := Calendar.monthLength_le row.date.year row.date.month
  have hsize : UInt32.size = 4294967296 := rfl
  rw [Calendar.monthLength_eq] at hmonth
  omega

theorem secondsOf_eq (hyear : row.date.year < 0x80000000) :
    secondsOf row.date.year row.date.month row.date.day row.clock.1 row.clock.2 =
      .ok (some row.seconds) := by
  have hdays : Calendar.days? row.date.year row.date.month row.date.day = some row.date.number :=
    row.date.days?_eq
  have hlt := Calendar.days?_lt hdays (by omega) row.day_lt
  obtain ⟨hhour, hminute⟩ := row.clock_lt
  have hseconds : secondsAt row.date.number row.clock.1 row.clock.2 = .ok row.seconds := by
    unfold Row.seconds
    exact secondsAt_eq_ok.mpr ⟨by omega, by omega⟩
  unfold secondsOf
  rw [hdays]
  dsimp only
  rw [hseconds]
  rfl

theorem timeOf_eq {now : Int} (hdated : row.IsDated now) :
    timeOf now print.month print.day print.yearOrTime = .ok (some row.seconds) := by
  have hmonth := month?_eq row.date.one_le_month row.date.month_le print.month_eq
  have hday := print.isNumeral_day.unsigned?_eq row.day_lt
  have hlast := yearOrTime_eq hdated print.isYearOrTime
  unfold timeOf
  rw [hmonth, hday]
  dsimp only
  rw [hlast]
  dsimp only [bind, Except.bind]
  exact secondsOf_eq hdated.year_lt

/-! ### Permissions -/

theorem permissionBits_eq : permissionBits =
    (List.finRange 9).map fun place ↦ (place.val + 1, lettersAt place, 2 ^ place.rev.val) := by
  decide

theorem holdsLetter_permissionText (row : Row) (place : Fin 9) (letters : List Char) (bit : Nat) :
    holdsLetter row.permissionText (place.val + 1, letters, bit) =
      letters.contains (row.permissions place) := by
  have hletter : row.permissionText[place.val + 1]? = some (row.permissions place) := by
    rw [Row.permissionText, List.getElem?_cons_succ, List.getElem?_append_left (by simp),
      List.getElem?_ofFn, dif_pos place.isLt]
  unfold holdsLetter
  rw [hletter, Option.any_some]

theorem Row.testBit_mode (row : Row) (bit : Nat) : row.mode.testBit bit = true ↔
    ∃ place : Fin 9, (lettersAt place).contains (row.permissions place) = true ∧
      place.rev.val = bit := by
  unfold Row.mode
  by_cases hbit : bit < 9
  · rw [Nat.testBit_ofBits_lt _ _ hbit]
    refine ⟨fun h ↦ ⟨_, h, congrArg Fin.val (Fin.rev_rev _)⟩, ?_⟩
    rintro ⟨place, hplace, rfl⟩
    rwa [Fin.eta, Fin.rev_rev]
  · rw [Nat.testBit_ofBits_ge _ _ (Nat.le_of_not_lt hbit)]
    refine iff_of_false Bool.false_ne_true ?_
    rintro ⟨place, -, rfl⟩
    exact hbit place.rev.isLt

theorem modeOf_eq (row : Row) : modeOf row.permissionText = .ok row.mode := by
  have hlength : ¬ row.permissionText.length < 10 := by simp [Row.permissionText]
  have hcolumns : ∀ column ∈ permissionBits, column.1 < row.permissionText.length :=
    fun column hcolumn ↦ (permissionBits_lt column hcolumn).trans_le (Nat.le_of_not_lt hlength)
  obtain ⟨mode, hmode, hbits⟩ := foldlM_addBit hcolumns 0
  have hsame : mode = row.mode := by
    refine Nat.eq_of_testBit_eq fun bit ↦ Bool.eq_iff_iff.mpr ?_
    rw [hbits, Nat.zero_testBit, Bool.false_or, row.testBit_mode, permissionBits_eq, List.any_map,
      List.any_eq_true]
    simp only [List.mem_finRange, true_and, Function.comp_apply, holdsLetter_permissionText,
      Bool.and_eq_true, Nat.testBit_two_pow, decide_eq_true_eq]
  unfold modeOf
  rw [if_neg hlength, hmode, hsame]

/-! ### Lines -/

theorem isDir_found : print.found.isDir = (row.kind == 'd') :=
  Option.some_beq_some

theorem isLink_found : print.found.isLink = (row.kind == 'l') :=
  Option.some_beq_some

theorem info_found : row.entry.info = some (print.found.info (some row.seconds) row.mode) := by
  have hsize : unsigned? UInt64.size print.found.size = some row.size :=
    print.isNumeral_size.unsigned?_eq row.size_lt
  unfold Columns.info Row.entry
  rw [isDir_found, hsize]
  simp [Print.found]

/-- However a row is printed, the line is read back as the entry that the row tells of. -/
theorem parse_printed {now : Int} (hdated : row.IsDated now) :
    parse now print.line = .ok (some row.entry) := by
  have hname : print.found.nameIn print.line.toList = row.name.toList := by
    rw [Columns.nameIn, isLink_found, nameOf_line]
  have htime : print.found.time now = .ok (some row.seconds) := timeOf_eq print hdated
  have hmode : modeOf print.found.permissions = .ok row.mode := modeOf_eq row
  obtain ⟨mode, hsame, hentry⟩ := print.found.entry_eq_map now row.isOwnName_name
  obtain rfl := Except.ok.inj (hmode.symm.trans hsame)
  have hrow : row.entry = ⟨String.ofList row.name.toList, print.found.isDir,
      some (print.found.info (some row.seconds) row.mode)⟩ := by
    rw [← info_found, isDir_found, String.ofList_toList]
    rfl
  unfold parse
  rw [print.columns?_line]
  dsimp only
  rw [hname, if_pos row.isOwnName_name, hentry, htime, hrow]
  rfl

theorem parse_printed_link :
    parse 1718409600 "lrwxrwsr-t+ 1 ftp grp 007 FEB 29  9:05 my notes -> a -> b\r\n" =
      .ok (some ⟨"my notes", false, some ⟨7, some 1709197500, 0o775, "ftp", "grp"⟩⟩) := by
  let row : Row :=
    { kind := 'l'
      permissions := fun place ↦ "rwxrwsr-t".toList.getD place ' '
      marks := ['+']
      links := ['1']
      owner := "ftp"
      group := "grp"
      size := 7
      date := ⟨2024, 2, 29, by decide, by decide, by decide, by decide, by decide⟩
      time := some (9, 5)
      name := "my notes"
      target := "a -> b".toList
      isColumn_permissions := by decide
      isColumn_links := by decide
      isColumn_owner := by decide
      isColumn_group := by decide
      size_lt := by decide
      name_ne := by decide
      slash_notMem := by decide
      begins := fun c hc ↦ by
        obtain rfl := Option.some.inj hc
        decide
      ends := fun c hc ↦ by
        obtain rfl := Option.some.inj hc
        decide
      arrow_first := fun _ ↦ by decide }
  let print : Print row :=
    { size := "007".toList
      month := "FEB".toList
      day := "29".toList
      yearOrTime := "9:05".toList
      gaps := fun i ↦ if i = 6 then [' ', ' '] else [' ']
      ending := ['\r', '\n']
      isNumeral_size := ⟨2, by decide⟩
      month_eq := by decide
      isNumeral_day := ⟨0, by decide⟩
      isYearOrTime := ⟨['9'], "05".toList, ⟨0, by decide⟩, ⟨1, by decide⟩, by decide⟩
      isGap := fun i ↦ by split <;> decide
      isLineEnd_ending := by simp [isLineEnd] }
  have hdated : row.IsDated 1718409600 := by
    with_unfolding_all rfl
  have hparse := parse_printed print hdated
  have hline : print.line = "lrwxrwsr-t+ 1 ftp grp 007 FEB 29  9:05 my notes -> a -> b\r\n" := by
    decide
  have hentry : row.entry =
      ⟨"my notes", false, some ⟨7, some 1709197500, 0o775, "ftp", "grp"⟩⟩ := by
    decide
  rwa [hline, hentry] at hparse

end DirectoryBrowser.ListLine
