/-!
# Character lists

Paths, page texts and command replies are all read one character at a time.
The operations here work on `List Char`, where cutting at a separator or
trimming an end is plain recursion, and the modules above wrap them for
`String`.
-/

namespace DirectoryBrowser.Text

def dropTrailing (p : Char → Bool) (cs : List Char) : List Char :=
  (cs.reverse.dropWhile p).reverse

@[simp] theorem dropTrailing_dropTrailing (p : Char → Bool) (cs : List Char) :
    dropTrailing p (dropTrailing p cs) = dropTrailing p cs := by
  have hdrop (cs : List Char) : (cs.dropWhile p).dropWhile p = cs.dropWhile p := by
    induction cs with
    | nil => rfl
    | cons c cs ih =>
      by_cases h : p c = true
      · rw [List.dropWhile_cons_of_pos h, ih]
      · rw [List.dropWhile_cons_of_neg h, List.dropWhile_cons_of_neg h]
  unfold dropTrailing
  rw [List.reverse_reverse, hdrop]

def trimBoth (p : Char → Bool) (cs : List Char) : List Char :=
  dropTrailing p (cs.dropWhile p)

/-- The rest of a list after a given beginning. -/
def dropStart? (start cs : List Char) : Option (List Char) :=
  match start, cs with
  | [], cs => some cs
  | _ :: _, [] => none
  | a :: start, c :: cs => if a = c then dropStart? start cs else none

def dropEnd? (ending cs : List Char) : Option (List Char) :=
  (dropStart? ending.reverse cs.reverse).map List.reverse

/-- Text before and after the first occurrence of a pattern. -/
def cutAt? (pattern : List Char) : List Char → Option (List Char × List Char)
  | [] => if pattern.isEmpty then some ([], []) else none
  | c :: cs =>
    match dropStart? pattern (c :: cs) with
    | some after => some ([], after)
    | none => (cutAt? pattern cs).map fun (before, after) ↦ (c :: before, after)

/-- Text before and after the first character that satisfies a test, which is itself left out. -/
def cutWhere? (p : Char → Bool) : List Char → Option (List Char × List Char)
  | [] => none
  | c :: cs =>
    if p c then some ([], cs)
    else (cutWhere? p cs).map fun (before, after) ↦ (c :: before, after)

/-- Text before and after the last occurrence of a character. -/
def cutLast? (sep : Char) (cs : List Char) : Option (List Char × List Char) :=
  (cutWhere? (· == sep) cs.reverse).map fun (after, before) ↦ (before.reverse, after.reverse)

/-- Pieces between separators; there is always one more piece than there are separators. -/
def splitOn (sep : Char) : List Char → List (List Char)
  | [] => [[]]
  | c :: cs =>
    if c = sep then [] :: splitOn sep cs
    else
      match splitOn sep cs with
      | [] => [[c]]
      | piece :: pieces => (c :: piece) :: pieces

def joinWith (sep : List Char) : List (List Char) → List Char
  | [] => []
  | [piece] => piece
  | piece :: pieces => piece ++ sep ++ joinWith sep pieces

/-- Lines as a terminal shows them: a line feed ends a line and takes one carriage return with it,
and a final line feed does not open another line. -/
def lines (cs : List Char) : List (List Char) :=
  let pieces := splitOn '\n' cs
  let ended := pieces.dropLast.map fun line ↦ (dropEnd? ['\r'] line).getD line
  match pieces.getLast? with
  | none | some [] => ended
  | some last => ended ++ [last]

/-- Non-overlapping occurrences are replaced from the left; `skip` counts the characters of the
current occurrence that are still to be passed over. -/
def replaceFrom (pattern replacement : List Char) (skip : Nat) : List Char → List Char
  | [] => []
  | c :: cs =>
    match skip with
    | k + 1 => replaceFrom pattern replacement k cs
    | 0 =>
      if (dropStart? pattern (c :: cs)).isSome then
        replacement ++ replaceFrom pattern replacement (pattern.length - 1) cs
      else c :: replaceFrom pattern replacement 0 cs

def replaceAll (pattern replacement cs : List Char) : List Char :=
  if pattern.isEmpty then cs else replaceFrom pattern replacement 0 cs

def within (c : Char) (ranges : List (Nat × Nat)) : Bool :=
  ranges.any fun (low, high) ↦ low ≤ c.toNat && c.toNat ≤ high

/-- White space in the sense of the Unicode property of that name. -/
def isSpace (c : Char) : Bool :=
  within c [(0x09, 0x0D), (0x20, 0x20), (0x85, 0x85), (0xA0, 0xA0), (0x1680, 0x1680),
    (0x2000, 0x200A), (0x2028, 0x2029), (0x202F, 0x202F), (0x205F, 0x205F), (0x3000, 0x3000)]

def isAsciiLetter (c : Char) : Bool :=
  within c [(0x41, 0x5A), (0x61, 0x7A)]

def isDigit (c : Char) : Bool :=
  within c [(0x30, 0x39)]

def lowerAscii (c : Char) : Char :=
  if within c [(0x41, 0x5A)] then Char.ofNat (c.toNat + 32) else c

def trimSpace (s : String) : String :=
  String.ofList (trimBoth isSpace s.toList)

def lowered (s : String) : String :=
  String.ofList (s.toList.map lowerAscii)

/-- Words between runs of white space. -/
def words (isBlank : Char → Bool) (cs : List Char) : List (List Char) :=
  match cs with
  | [] => []
  | c :: rest =>
    if isBlank c then words isBlank rest
    else (c :: rest.takeWhile (fun d ↦ !isBlank d)) ::
      words isBlank (rest.dropWhile (fun d ↦ !isBlank d))
termination_by cs.length
decreasing_by
  all_goals simp_wf
  have := (List.dropWhile_suffix (l := rest) (fun d ↦ !isBlank d)).length_le
  omega

end DirectoryBrowser.Text
