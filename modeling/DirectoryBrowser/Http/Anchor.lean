import DirectoryBrowser.Text.Chars

/-!
# Anchors of a page

A page is not parsed, only searched for the beginnings of anchors and for
the first link in each. The value of a link stands between quotes, or runs
up to the next blank or closing bracket; a quote that is never closed is
part of the value.
-/

namespace DirectoryBrowser.Anchor

open Text

/-- The rest after a word, whatever the case of its letters. -/
def dropWord? (word text : List Char) : Option (List Char) :=
  match word, text with
  | [], text => some text
  | _ :: _, [] => none
  | w :: word, c :: text => if lowerAscii c = w then dropWord? word text else none

/-- Value between two quotes, with what follows. -/
def quotedValue? (quote : Char) (text : List Char) : Option (List Char × List Char) :=
  match text with
  | c :: text => if c == quote then cutWhere? (· == quote) text else none
  | [] => none

def endsBareValue (c : Char) : Bool := isSpace c || c == '>'

def bareValue? (text : List Char) : Option (List Char × List Char) :=
  match text.takeWhile (fun c ↦ !endsBareValue c) with
  | [] => none
  | value => some (value, text.dropWhile (fun c ↦ !endsBareValue c))

/-- Value of a link that begins right here. -/
def linkHere? (text : List Char) : Option (List Char × List Char) := do
  let text ← dropWord? "href".toList text
  let text ← dropStart? ['='] (text.dropWhile isSpace)
  let value := text.dropWhile isSpace
  quotedValue? '"' value <|> quotedValue? '\'' value <|> bareValue? value

/-- The first link before the tag closes. -/
def linkInTag? : List Char → Option (List Char × List Char)
  | [] => none
  | c :: text =>
    match linkHere? (c :: text) with
    | some found => some found
    | none => if c == '>' then none else linkInTag? text

/-- Link of an anchor that begins right here, with what follows the link. -/
def anchorHere? (text : List Char) : Option (List Char × List Char) :=
  match dropWord? "<a".toList text with
  | some (c :: text) => if isSpace c then linkInTag? text else none
  | _ => none

/-- All links in order. Each search goes on where the last one ended, and every step takes a
character, so there are never more steps than characters. -/
def findLinks (steps : Nat) (text : List Char) : List (List Char) :=
  match steps, text with
  | 0, _ | _, [] => []
  | steps + 1, c :: text =>
    match anchorHere? (c :: text) with
    | some (value, rest) => value :: findLinks steps rest
    | none => findLinks steps text

def links (page : String) : List (List Char) :=
  findLinks page.toList.length page.toList

end DirectoryBrowser.Anchor
