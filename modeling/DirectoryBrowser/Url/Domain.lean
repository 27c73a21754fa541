import DirectoryBrowser.Url.Basic

/-!
# Domain names

Name servers know ASCII only. A label with other characters is folded to its
lower-case form and written with the letters it shares with ASCII first and
the others as a chain of insertions, each a variable-length number whose
digits adapt to the ones before.

For names of ASCII characters without encoded labels this is the mapping of the
URL standard. Of the other characters `fold` covers the letters of Latin-1 from
U+00C0 on, most of Latin Extended-A and Latin Extended Additional, the Greek and
Cyrillic alphabets without accents, full-width ASCII, and the usual full stops,
spaces and marks that vanish. Names with characters beyond these are not mapped
as the standard has it: there are no further compatibility forms (of a ligature
such as U+FB01) and no other capitals, nothing that comes decomposed is
composed, and neither the direction of writing nor joiners nor unassigned code
points are checked. The proofs about addresses do not depend on any of this.
They ask that what is answered be plain ASCII and be answered again when it is
given back, and that decimal numbers pass as they are.
-/

namespace DirectoryBrowser.Domain

open Text

def puny (d : Nat) : Char :=
  if d < 26 then Char.ofNat (0x61 + d) else Char.ofNat (0x30 + d - 26)

def punyValue? (c : Char) : Option Nat :=
  if within c [(0x61, 0x7A)] then some (c.toNat - 0x61)
  else if within c [(0x41, 0x5A)] then some (c.toNat - 0x41)
  else if within c [(0x30, 0x39)] then some (c.toNat - 0x30 + 26)
  else none

def threshold (position bias : Nat) : Nat :=
  if position ≤ bias then 1 else if bias + 26 ≤ position then 26 else position - bias

def settle (delta position : Nat) : Nat :=
  if 455 < delta then settle (delta / 35) (position + 36)
  else position + 36 * delta / (delta + 38)
termination_by delta

def adapt (delta points : Nat) (first : Bool) : Nat :=
  let scaled := if first then delta / 700 else delta / 2
  settle (scaled + scaled / points) 0

def writeNumber (bias position n : Nat) : List Char :=
  let t := threshold position bias
  if n < t then [puny n]
  else puny (t + (n - t) % (36 - t)) :: writeNumber bias (position + 36) ((n - t) / (36 - t))
termination_by n
decreasing_by
  have hpos : 1 ≤ threshold position bias := by unfold threshold; split <;> (try split) <;> omega
  exact Nat.lt_of_le_of_lt (Nat.div_le_self _ _) (by omega)

structure Insertions where
  written : List Char
  delta : Nat
  bias : Nat
  handled : Nat

def insertPoint (basic point : Nat) (state : Insertions) (c : Char) : Insertions :=
  if c.toNat < point then { state with delta := state.delta + 1 }
  else if c.toNat = point then
    { written := state.written ++ writeNumber state.bias 36 state.delta
      delta := 0
      bias := adapt state.delta (state.handled + 1) (state.handled == basic)
      handled := state.handled + 1 }
  else state

def insertPoints (label : List Char) (basic : Nat) : List Nat → Nat → Insertions → Insertions
  | [], _, state => state
  | point :: points, next, state =>
    let state := { state with delta := state.delta + (point - next) * (state.handled + 1) }
    let state := label.foldl (insertPoint basic point) state
    insertPoints label basic points (point + 1) { state with delta := state.delta + 1 }

def isAscii (c : Char) : Bool := c.toNat < 0x80

def punycode (label : List Char) : List Char :=
  let basic := label.filter isAscii
  let points := ((label.filter (fun c ↦ !isAscii c)).map Char.toNat).mergeSort.eraseDups
  let state := insertPoints label basic.length points 0x80 ⟨[], 0, 72, basic.length⟩
  basic ++ (if basic.isEmpty then [] else ['-']) ++ state.written

/-- A number with its remaining digits, `start` being what it is added to. -/
def readNumber? (bias position weight start : Nat) : List Char → Option (Nat × List Char)
  | [] => none
  | c :: cs =>
    match punyValue? c with
    | none => none
    | some d =>
      let t := threshold position bias
      if d < t then some (start + d * weight, cs)
      else readNumber? bias (position + 36) (weight * (36 - t)) (start + d * weight) cs

/-- Inserts one point per number; every number takes at least one digit, so as many rounds as there
are digits are enough. -/
def readInsertions? (rounds bias point start : Nat) (out digits : List Char) :
    Option (List Char) :=
  match rounds, digits with
  | _, [] => some out
  | 0, _ => none
  | rounds + 1, digits =>
    match readNumber? bias 36 1 start digits with
    | none => none
    | some (total, digits) =>
      let points := out.length + 1
      let point := point + total / points
      if point < 0xD800 ∨ (0xDFFF < point ∧ point < 0x110000) then
        let position := total % points
        readInsertions? rounds (adapt (total - start) points (start == 0)) point (position + 1)
          (out.take position ++ Char.ofNat point :: out.drop position) digits
      else none

def unpunycode? (encoded : List Char) : Option (List Char) :=
  let (basic, digits) := (cutLast? '-' encoded).getD ([], encoded)
  readInsertions? digits.length 72 0x80 0 basic digits

/-- Lower-case forms of the letters that are covered, and the ASCII forms of full stops, spaces and
full-width characters; characters that only affect appearance vanish. -/
def fold (c : Char) : List Char :=
  let n := c.toNat
  let shifted (k : Nat) : List Char := [Char.ofNat (n + k)]
  if within c [(0x41, 0x5A), (0xC0, 0xD6), (0xD8, 0xDE), (0x391, 0x3A1), (0x3A3, 0x3AB),
    (0x410, 0x42F)] then shifted 32
  else if within c [(0x400, 0x40F)] then shifted 80
  else if within c [(0x100, 0x137), (0x14A, 0x177), (0x460, 0x481), (0x1E00, 0x1E95),
    (0x1EA0, 0x1EFF)] then if n % 2 = 0 then shifted 1 else [c]
  else if within c [(0x139, 0x148), (0x179, 0x17E)] then if n % 2 = 1 then shifted 1 else [c]
  else if n = 0x178 then [Char.ofNat 0xFF]
  else if n = 0x1E9E then ['s', 's']
  else if within c [(0x3002, 0x3002), (0xFF0E, 0xFF0E), (0xFF61, 0xFF61)] then ['.']
  else if within c [(0xFF01, 0xFF5E)] then [lowerAscii (Char.ofNat (n - 0xFEE0))]
  else if within c [(0xA0, 0xA0), (0x2000, 0x200A), (0x202F, 0x202F), (0x205F, 0x205F),
    (0x3000, 0x3000)] then [' ']
  else if within c [(0xAD, 0xAD), (0x200B, 0x200B), (0x2060, 0x2060), (0xFE00, 0xFE0F),
    (0xFEFF, 0xFEFF)] then []
  else [c]

/-- Characters that delimit the parts of a URL, or that no name may hold. -/
def isForbidden (c : Char) : Bool :=
  c.toNat ≤ 0x20 || c.toNat == 0x7F || "%#/:<>?@[\\]^|".toList.contains c ||
    within c [(0x80, 0x9F), (0x2028, 0x202E), (0xD800, 0xF8FF), (0xFFF0, 0xFFFF),
      (0xE0000, 0x10FFFF)]

/-- A label that claims to be encoded must decode, to something that needed the encoding. -/
def encodeLabel? (label : List Char) : Option (List Char) :=
  match dropStart? "xn--".toList label with
  | some encoded =>
    match unpunycode? encoded with
    | some decoded =>
      if decoded.all isAscii || decoded.any isForbidden || punycode decoded != encoded then none
      else some label
    | none => none
  | none => if label.all isAscii then some label else some ("xn--".toList ++ punycode label)

def toAscii? (name : List Char) : Option (List Char) :=
  let folded := name.flatMap fold
  if folded.any isForbidden then none
  else ((splitOn '.' folded).mapM encodeLabel?).map (joinWith ['.'])

end DirectoryBrowser.Domain
