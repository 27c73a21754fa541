import DirectoryBrowser.Calendar
import DirectoryBrowser.Entry
import DirectoryBrowser.Text.Numeral

/-!
# LIST lines

File servers print their listings the way `ls -l` does: permissions, links,
owner, group, size, three columns of date, and a name that may hold spaces.
A line that does not have these columns is no entry. The time of a file is
computed in fixed-width numbers, and a column that is too large for them
breaks the reading of its line off.
-/

namespace DirectoryBrowser.ListLine

open Text

/-- What breaks the reading of a line off, so that the line is neither an entry nor none. -/
inductive Fault where
  | product
  | sum
  | clock
  | column (length index : Nat)
  | name (invalid : InvalidName)
  deriving DecidableEq, Repr

def Fault.message : Fault → String
  | .product => "attempt to multiply with overflow"
  | .sum => "attempt to add with overflow"
  | .clock => "overflow when adding duration to `SystemTime`"
  | .column length index =>
    "index out of bounds: the len is " ++ toString length ++ " but the index is " ++
      toString index
  | .name invalid => invalid.message

/-! ### Dates -/

def times (a b : Nat) : Except Fault Nat :=
  if a * b < UInt64.size then .ok (a * b) else .error .product

def plus (a b : Nat) : Except Fault Nat :=
  if a + b < UInt64.size then .ok (a + b) else .error .sum

/-- Seconds since the start of 1970, which have to fit a signed clock. -/
def secondsAt (days hour minute : Nat) : Except Fault Nat := do
  let byDays ← times days 86400
  let byHours ← times hour 3600
  let begun ← plus byDays byHours
  let byMinutes ← times minute 60
  let seconds ← plus begun byMinutes
  if seconds < 0x8000000000000000 then return seconds else throw .clock

def months : List String :=
  ["jan", "feb", "mar", "apr", "may", "jun", "jul", "aug", "sep", "oct", "nov", "dec"]

def month? (text : List Char) : Option Nat :=
  (months.findIdx? (·.toList = text.map lowerAscii)).map (· + 1)

/-- Year of the clock, which is counted up from 1970 in a signed 32-bit number. -/
def yearNow (now : Int) : Except Fault Nat :=
  if now.toNat / Calendar.secondsPerDay < Calendar.daysBeforeYear 0x80000000 then
    .ok (Calendar.currentYear now)
  else .error .sum

/-- Year and time of day of the last date column. A time of day stands for the current year. -/
def yearOrTime (now : Int) (text : List Char) : Except Fault (Option (Int × Nat × Nat)) :=
  match cutWhere? (· == ':') text with
  | some (hour, minute) =>
    (yearNow now).map fun year ↦
      match unsigned? UInt64.size hour, unsigned? UInt64.size minute with
      | some hour, some minute => some ((year : Int), hour, minute)
      | _, _ => none
  | none => .ok ((signed? 0x80000000 text).map fun year ↦ (year, 0, 0))

def secondsOf (year : Int) (month day hour minute : Nat) : Except Fault (Option Nat) :=
  match Calendar.days? year month day with
  | some days => (secondsAt days hour minute).map some
  | none => .ok none

/-- Time of the three date columns, if they make a date. -/
def timeOf (now : Int) (monthText dayText lastText : List Char) : Except Fault (Option Nat) :=
  match month? monthText, unsigned? UInt32.size dayText with
  | some month, some day => do
    match ← yearOrTime now lastText with
    | some (year, hour, minute) => secondsOf year month day hour minute
    | none => return none
  | _, _ => .ok none

/-! ### Permissions -/

/-- Place, letters and bit of the nine permission columns. Set-id and sticky marks stand in for
execution. -/
def permissionBits : List (Nat × List Char × Nat) :=
  [(1, ['r'], 0o400), (2, ['w'], 0o200), (3, ['x', 's'], 0o100),
    (4, ['r'], 0o040), (5, ['w'], 0o020), (6, ['x', 's'], 0o010),
    (7, ['r'], 0o004), (8, ['w'], 0o002), (9, ['x', 't'], 0o001)]

def letterAt (permissions : List Char) (column : Nat) : Except Fault Char :=
  match permissions[column]? with
  | some letter => .ok letter
  | none => .error (.column permissions.length column)

def addBit (permissions : List Char) (mode : Nat) : Nat × List Char × Nat → Except Fault Nat
  | (column, letters, bit) =>
    (letterAt permissions column).map fun letter ↦
      if letters.contains letter then mode ||| bit else mode

/-- Bits whose column holds one of its letters. -/
def modeOf (permissions : List Char) : Except Fault Nat :=
  if permissions.length < 10 then .ok 0
  else permissionBits.foldlM (addBit permissions) 0

/-! ### Lines -/

/-- The columns of a line that are read where they stand. The name is not among them, since it may
hold spaces. -/
structure Columns where
  permissions : List Char
  owner : List Char
  group : List Char
  size : List Char
  month : List Char
  day : List Char
  yearOrTime : List Char
  deriving DecidableEq, Repr

def columns? (line : List Char) : Option Columns :=
  match words isSpace line with
  | permissions :: _ :: owner :: group :: size :: month :: day :: yearOrTime :: _ :: _ =>
    some { permissions, owner, group, size, month, day, yearOrTime }
  | _ => none

def dropWord (line : List Char) : List Char :=
  (line.dropWhile (fun c ↦ !isSpace c)).dropWhile isSpace

/-- The line from one of its columns on, with what ends the line taken off. -/
def fromColumn (line : List Char) (column : Nat) : List Char :=
  dropTrailing (fun c ↦ c == '\r' || c == '\n')
    (Nat.repeat dropWord column (line.dropWhile isSpace))

/-- The name of a link stands before the arrow to its target. -/
def nameOf (isLink : Bool) (text : List Char) : List Char :=
  if isLink then ((cutAt? " -> ".toList text).map Prod.fst).getD text else text

def isOwnName (name : List Char) : Bool :=
  !name.isEmpty && name != ['.'] && name != ['.', '.'] && !name.contains '/'

namespace Columns

def isDir (columns : Columns) : Bool := columns.permissions.head? == some 'd'

def isLink (columns : Columns) : Bool := columns.permissions.head? == some 'l'

/-- Name in a line that has these columns. -/
def nameIn (columns : Columns) (line : List Char) : List Char :=
  nameOf columns.isLink (fromColumn line 8)

def time (columns : Columns) (now : Int) : Except Fault (Option Nat) :=
  timeOf now columns.month columns.day columns.yearOrTime

def info (columns : Columns) (modified : Option Nat) (mode : Nat) : EntryInfo :=
  { size := if columns.isDir then 0 else (unsigned? UInt64.size columns.size).getD 0
    modified := modified.map Int.ofNat
    mode
    owner := String.ofList columns.owner
    group := String.ofList columns.group }

/-- The entry of the columns, under a name that has been read already. -/
def entry (columns : Columns) (now : Int) (name : List Char) : Except Fault Entry := do
  let modified ← columns.time now
  let mode ← modeOf columns.permissions
  (Entry.make (String.ofList name) columns.isDir (some (columns.info modified mode))).mapError .name

end Columns

/-- Reads one line at the clock reading `now`. -/
def parse (now : Int) (line : String) : Except Fault (Option Entry) :=
  match columns? line.toList with
  | none => .ok none
  | some columns =>
    let name := columns.nameIn line.toList
    if isOwnName name then (columns.entry now name).map some else .ok none

def parseAll (now : Int) (lines : List String) : Except Fault (List Entry) :=
  (lines.mapM (parse now)).map fun found ↦ found.filterMap id

end DirectoryBrowser.ListLine
