import DirectoryBrowser.Text.Chars

/-!
# Numerals

Reading and writing of numbers in a given base. Readers take a bound, since
a number that does not fit the field it is read for is not a number there.
-/

namespace DirectoryBrowser.Text

def digitValue? (c : Char) : Option Nat :=
  if within c [(0x30, 0x39)] then some (c.toNat - 0x30)
  else if within c [(0x61, 0x7A)] then some (c.toNat - 0x61 + 10)
  else if within c [(0x41, 0x5A)] then some (c.toNat - 0x41 + 10)
  else none

def digitIn? (base : Nat) (c : Char) : Option Nat :=
  (digitValue? c).filter (· < base)

def isHexDigit (c : Char) : Bool :=
  (digitIn? 16 c).isSome

/-- Value of a digit string, the digits read so far weighing `start`. -/
def readDigits (base start : Nat) : List Char → Option Nat
  | [] => some start
  | c :: cs =>
    match digitIn? base c with
    | some d => readDigits base (start * base + d) cs
    | none => none

/-- A digit string that is not empty and whose value is below `bound`. -/
def numeral? (base bound : Nat) (cs : List Char) : Option Nat :=
  if cs.isEmpty then none else (readDigits base 0 cs).filter (· < bound)

/-- An unsigned number, which may carry a plus sign. -/
def unsigned? (bound : Nat) (cs : List Char) : Option Nat :=
  match cs with
  | '+' :: digits => numeral? 10 bound digits
  | digits => numeral? 10 bound digits

/-- A number with an optional sign, in the two's complement range whose upper bound is `bound`. -/
def signed? (bound : Nat) (cs : List Char) : Option Int :=
  match cs with
  | '-' :: digits => (numeral? 10 (bound + 1) digits).map fun (n : Nat) ↦ -(n : Int)
  | '+' :: digits => (numeral? 10 bound digits).map Int.ofNat
  | digits => (numeral? 10 bound digits).map Int.ofNat

def digitChar (upper : Bool) (d : Nat) : Char :=
  if d < 10 then Char.ofNat (0x30 + d)
  else if upper then Char.ofNat (0x41 + d - 10)
  else Char.ofNat (0x61 + d - 10)

def decimal (n : Nat) : List Char :=
  n.repr.toList

def hexByte (b : UInt8) : List Char :=
  [digitChar true (b.toNat / 16), digitChar true (b.toNat % 16)]

def hexLower (n : Nat) : List Char :=
  Nat.toDigits 16 n

end DirectoryBrowser.Text
