import DirectoryBrowser.Text.Numeral

/-!
# Quoted text in TOML

Text stands between double quotes with escapes, or between single quotes as
it is. Tripled quotes let it run over several lines. The writer takes the
first form that needs no escapes; control characters always need them.
-/

namespace DirectoryBrowser.Toml

open Text

abbrev singleQuote : Char := '\x27'

def isBlank (c : Char) : Bool := c == ' ' || c == '\t'

def isBeyondAscii (c : Char) : Bool := 0x80 ≤ c.toNat

def isBasicChar (c : Char) : Bool :=
  isBlank c || within c [(0x21, 0x21), (0x23, 0x5B), (0x5D, 0x7E)] || isBeyondAscii c

def isLiteralChar (c : Char) : Bool :=
  c == '\t' || within c [(0x20, 0x26), (0x28, 0x7E)] || isBeyondAscii c

/-! ### Reading -/

abbrev Reader (α : Type) := List Char → Option (α × List Char)

def prepend (c : Char) (read : Option (List Char × List Char)) : Option (List Char × List Char) :=
  read.map fun (value, rest) ↦ (c :: value, rest)

/-- Character of a code point with a fixed number of digits. -/
def codePoint? (count : Nat) (cs : List Char) : Option Char :=
  let digits := cs.take count
  if digits.length < count then none
  else
    match readDigits 16 0 digits with
    | some n => if n.isValidChar then some (Char.ofNat n) else none
    | none => none

/-- What the characters after a backslash stand for, and how many they are. -/
def escape? : List Char → Option (Char × Nat)
  | 'b' :: _ => some ('\x08', 1)
  | 'f' :: _ => some ('\x0c', 1)
  | 'n' :: _ => some ('\n', 1)
  | 'r' :: _ => some ('\r', 1)
  | 't' :: _ => some ('\t', 1)
  | '"' :: _ => some ('"', 1)
  | '\\' :: _ => some ('\\', 1)
  | 'u' :: cs => (codePoint? 4 cs).map (·, 5)
  | 'U' :: cs => (codePoint? 8 cs).map (·, 9)
  | _ => none

/-- The rest of a text between double quotes; `skip` counts the characters of an escape that are
still to be passed over. -/
def basicText (skip : Nat) : Reader (List Char)
  | [] => none
  | c :: cs =>
    match skip with
    | k + 1 => basicText k cs
    | 0 =>
      if c == '"' then some ([], cs)
      else if c == '\\' then
        match escape? cs with
        | some (meant, taken) => prepend meant (basicText taken cs)
        | none => none
      else if isBasicChar c then prepend c (basicText 0 cs)
      else none

def literalText : Reader (List Char)
  | [] => none
  | c :: cs =>
    if c == singleQuote then some ([], cs)
    else if isLiteralChar c then prepend c (literalText cs)
    else none

/-- Length of a run of blanks and line breaks. -/
def fillerLength : List Char → Nat
  | [] => 0
  | c :: cs =>
    if isBlank c || c == '\n' then fillerLength cs + 1
    else if c == '\r' && cs.head? == some '\n' then fillerLength cs + 1
    else 0

def startsLine : List Char → Bool
  | '\n' :: _ | '\r' :: '\n' :: _ => true
  | _ => false

def dropLineBreak : List Char → List Char
  | '\n' :: rest | '\r' :: '\n' :: rest => rest
  | cs => cs

/-- A run of three quotes or more ends a block, and up to two of them still belong to it. -/
def blockEnd? (quote : Char) (cs : List Char) : Option (List Char × List Char) :=
  let run := (cs.takeWhile (· == quote)).length
  if 3 ≤ run then some (List.replicate (min run 5 - 3) quote, cs.drop (min run 5)) else none

/-- The rest of a block between tripled double quotes. A backslash at the end of a line joins it to
the next text. -/
def basicBlock (skip : Nat) : Reader (List Char)
  | [] => none
  | c :: cs =>
    match skip with
    | k + 1 => basicBlock k cs
    | 0 =>
      if c == '"' then
        match blockEnd? '"' (c :: cs) with
        | some ending => some ending
        | none => prepend c (basicBlock 0 cs)
      else if c == '\\' then
        if startsLine (cs.dropWhile isBlank) then basicBlock (fillerLength cs) cs
        else
          match escape? cs with
          | some (meant, taken) => prepend meant (basicBlock taken cs)
          | none => none
      else if c == '\r' && cs.head? == some '\n' then basicBlock 0 cs
      else if c == '\n' || isBasicChar c then prepend c (basicBlock 0 cs)
      else none

def literalBlock : Reader (List Char)
  | [] => none
  | c :: cs =>
    if c == singleQuote then
      match blockEnd? singleQuote (c :: cs) with
      | some ending => some ending
      | none => prepend c (literalBlock cs)
    else if c == '\r' && cs.head? == some '\n' then literalBlock cs
    else if c == '\n' || isLiteralChar c then prepend c (literalBlock cs)
    else none

/-- Quoted text on one line, the only quoted form of a key. -/
def lineText : Reader (List Char)
  | '"' :: cs => basicText 0 cs
  | '\x27' :: cs => literalText cs
  | _ => none

/-- Quoted text in any form. A line break right after the opening of a block is not part of it. -/
def quotedText : Reader (List Char)
  | '"' :: '"' :: '"' :: cs => basicBlock 0 (dropLineBreak cs)
  | '\x27' :: '\x27' :: '\x27' :: cs => literalBlock (dropLineBreak cs)
  | cs => lineText cs

/-! ### Writing -/

/-- Whether a character can only be written as an escape. -/
def needsEscape (c : Char) : Bool :=
  c.toNat ≤ 0x1F && c != '\t' && c != '\n' || c == '\x7f'

/-- Length of the longest run of a character. -/
def longestRun (c : Char) (current : Nat) : List Char → Nat
  | [] => current
  | d :: ds => if d == c then longestRun c (current + 1) ds else max current (longestRun c 0 ds)

inductive QuoteForm where
  | basic
  | literal
  | basicBlock
  | literalBlock
  deriving DecidableEq, Repr

def formFor (cs : List Char) : QuoteForm :=
  let escapes := cs.any needsEscape
  let broken := cs.contains '\n'
  if !escapes && !broken && !cs.contains '\\' && !cs.contains '"' then .basic
  else if !escapes && !broken && !cs.contains singleQuote then .literal
  else if !escapes && !cs.contains '\\' && longestRun '"' 0 cs ≤ 2 then .basicBlock
  else if !escapes && longestRun singleQuote 0 cs ≤ 2 then .literalBlock
  else if broken then .basicBlock
  else .basic

def escapeOf (c : Char) : List Char :=
  if c == '\x08' then ['\\', 'b']
  else if c == '\t' then ['\\', 't']
  else if c == '\n' then ['\\', 'n']
  else if c == '\x0c' then ['\\', 'f']
  else if c == '\r' then ['\\', 'r']
  else if c == '"' then ['\\', '"']
  else if c == '\\' then ['\\', '\\']
  else if needsEscape c then ['\\', 'u', '0', '0'] ++ hexByte (UInt8.ofNat c.toNat)
  else [c]

/-- In a block line breaks stand as they are, and of quotes in a row every third is escaped. -/
def writeBlockChars (quotes : Nat) : List Char → List Char
  | [] => []
  | c :: cs =>
    if c == '"' && quotes < 2 then c :: writeBlockChars (quotes + 1) cs
    else if c == '\n' then c :: writeBlockChars 0 cs
    else escapeOf c ++ writeBlockChars 0 cs

def writeText (cs : List Char) : List Char :=
  let opening := if cs.contains '\n' then ['\n'] else []
  let fence (quote : Char) : List Char := List.replicate 3 quote
  match formFor cs with
  | .basic => ['"'] ++ cs.flatMap escapeOf ++ ['"']
  | .literal => [singleQuote] ++ cs ++ [singleQuote]
  | .basicBlock => fence '"' ++ opening ++ writeBlockChars 0 cs ++ fence '"'
  | .literalBlock => fence singleQuote ++ opening ++ cs ++ fence singleQuote

end DirectoryBrowser.Toml
