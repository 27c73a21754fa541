import DirectoryBrowser.Calendar
import DirectoryBrowser.Toml.Basic
import DirectoryBrowser.Toml.Quoted

/-!
# Plain values in TOML

Numbers, truth values and times. Underscores may stand between digits. An
integer has 64 bits and no leading zero; a float whose size no double can
hold is refused when it is positive. What looks like a date or a time is
tried as one before it is tried as a number.
-/

namespace DirectoryBrowser.Toml

open Text

/-- One digit or more, single underscores between them left out. -/
def digitRun (base : Nat) : Reader (List Char)
  | [] => none
  | c :: '_' :: cs =>
    if (digitIn? base c).isSome then prepend c (digitRun base cs) else none
  | c :: cs =>
    if (digitIn? base c).isSome then some ((prepend c (digitRun base cs)).getD ([c], cs))
    else none

def sign : List Char → Bool × List Char
  | '-' :: cs => (true, cs)
  | '+' :: cs => (false, cs)
  | cs => (false, cs)

/-- Digits of a whole number, where a zero stands alone. -/
def wholeDigits : Reader (List Char)
  | '0' :: cs => some (['0'], cs)
  | cs => digitRun 10 cs

def integerOf (base : Nat) (negative : Bool) (digits : List Char) : Option Toml := do
  let n ← readDigits base 0 digits
  if negative then
    if n ≤ 0x8000000000000000 then some (.integer (-n)) else none
  else if n < 0x8000000000000000 then some (.integer n)
  else none

def basedInteger (base : Nat) : Reader Toml := fun cs ↦ do
  let (digits, rest) ← digitRun base cs
  return (← integerOf base false digits, rest)

def integer? : Reader Toml
  | '0' :: 'x' :: cs => basedInteger 16 cs
  | '0' :: 'o' :: cs => basedInteger 8 cs
  | '0' :: 'b' :: cs => basedInteger 2 cs
  | cs => do
    let (negative, rest) := sign cs
    let (digits, rest) ← wholeDigits rest
    return (← integerOf 10 negative digits, rest)

/-- The least number that rounds to infinity as a double. -/
def doubleLimit : Nat := Nat.pow 2 1024 - Nat.pow 2 970

/-- Whether `mantissa * 10 ^ exponent` is beyond every double. Only numbers of about the right
length have to be multiplied out. -/
def overflows (mantissa : Nat) (exponent : Int) : Bool :=
  let length : Int := (decimal mantissa).length + exponent
  if mantissa = 0 || length < 309 then false
  else if 310 < length then true
  else
    doubleLimit * Nat.pow 10 (-exponent).toNat ≤ mantissa * Nat.pow 10 exponent.toNat

/-- Digits after a point. -/
def fraction? : Reader (List Char)
  | '.' :: cs => digitRun 10 cs
  | _ => none

def exponent? : Reader Int
  | 'e' :: cs | 'E' :: cs => do
    let (negative, rest) := sign cs
    let (digits, rest) ← digitRun 10 rest
    let n ← readDigits 10 0 digits
    return (if negative then -n else n, rest)
  | _ => none

def written (cs rest : List Char) : String :=
  String.ofList (cs.take (cs.length - rest.length))

def specialFloat? : Reader Toml := fun cs ↦
  match (sign cs).2 with
  | 'i' :: 'n' :: 'f' :: rest | 'n' :: 'a' :: 'n' :: rest => some (.float (written cs rest), rest)
  | _ => none

/-- A whole number with a fraction, an exponent, or both. -/
def numberFloat? : Reader Toml := fun cs ↦ do
  let (negative, rest) := sign cs
  let (whole, rest) ← wholeDigits rest
  let (fraction, afterFraction) := (fraction? rest).getD ([], rest)
  let (exponent, afterExponent) := (exponent? afterFraction).getD (0, afterFraction)
  if afterExponent.length = rest.length then none
  else
    let mantissa ← readDigits 10 0 (whole ++ fraction)
    if !negative && overflows mantissa (exponent - fraction.length) then none
    else some (.float (written cs afterExponent), afterExponent)

/-- A number of exactly so many digits within bounds. -/
def fixedDigits (count low high : Nat) : Reader Nat := fun cs ↦ do
  let digits := cs.take count
  if digits.length < count then none
  else
    let n ← readDigits 10 0 digits
    if low ≤ n && n ≤ high then some (n, cs.drop count) else none

def expect (c : Char) : List Char → Option (List Char)
  | d :: cs => if d = c then some cs else none
  | [] => none

/-- Rest of the text after a date. -/
def afterDate (cs : List Char) : Option (List Char) := do
  let (year, rest) ← fixedDigits 4 0 9999 cs
  let rest ← expect '-' rest
  let (month, rest) ← fixedDigits 2 1 12 rest
  let rest ← expect '-' rest
  let (_, rest) ← fixedDigits 2 1 (Calendar.monthLength year month) rest
  return rest

/-- Rest of the text after a time of day; a leap second is allowed for. -/
def afterTime (cs : List Char) : Option (List Char) := do
  let (_, rest) ← fixedDigits 2 0 23 cs
  let rest ← expect ':' rest
  let (_, rest) ← fixedDigits 2 0 59 rest
  let rest ← expect ':' rest
  let (_, rest) ← fixedDigits 2 0 60 rest
  match rest with
  | '.' :: d :: more => return if isDigit d then more.dropWhile isDigit else rest
  | _ => return rest

def afterOffset (cs : List Char) : List Char :=
  match cs with
  | 'Z' :: rest | 'z' :: rest => rest
  | '+' :: rest | '-' :: rest =>
    (do
      let (_, rest) ← fixedDigits 2 0 23 rest
      let rest ← expect ':' rest
      let (_, rest) ← fixedDigits 2 0 59 rest
      return rest).getD cs
  | _ => cs

/-- Rest after what may follow a date: a time of day with an offset. -/
def afterDateTail (cs : List Char) : List Char :=
  match cs with
  | c :: rest =>
    if c == 'T' || c == 't' || c == ' ' then ((afterTime rest).map afterOffset).getD cs else cs
  | [] => cs

def dateTime? : Reader Toml := fun cs ↦
  (((afterDate cs).map afterDateTail).or (afterTime cs)).map fun rest ↦
    (.dateTime (written cs rest), rest)

/-- A value that holds no others. -/
def scalar? : Reader Toml := fun cs ↦
  match cs with
  | '"' :: _ | '\x27' :: _ =>
    (quotedText cs).map fun (value, rest) ↦ (.text (String.ofList value), rest)
  | 't' :: 'r' :: 'u' :: 'e' :: rest => some (.boolean true, rest)
  | 'f' :: 'a' :: 'l' :: 's' :: 'e' :: rest => some (.boolean false, rest)
  | _ =>
    (dateTime? cs).or ((numberFloat? cs).or ((specialFloat? cs).or (integer? cs)))

end DirectoryBrowser.Toml
