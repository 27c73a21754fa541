import DirectoryBrowser.Toml.Scalar

/-!
# Reading TOML

A document is a sequence of lines: headers, which say what table is being
filled, and assignments. Values in brackets may run over lines, values in
braces may not. Nesting and dotted keys have a limit, so that no document
makes the reader recurse without end.
-/

namespace DirectoryBrowser.Toml

open Text

/-- How deep values may nest, and how many parts a dotted key may have. -/
def depthLimit : Nat := 79

def skipBlanks (cs : List Char) : List Char := cs.dropWhile isBlank

def isCommentChar (c : Char) : Bool :=
  c == '\t' || within c [(0x20, 0x7F)] || isBeyondAscii c

def isBareKeyChar (c : Char) : Bool :=
  isAsciiLetter c || isDigit c || c == '_' || c == '-'

def keyPart : Reader String := fun cs ↦
  match cs with
  | '"' :: _ | '\x27' :: _ => (lineText cs).map fun (key, rest) ↦ (String.ofList key, rest)
  | _ =>
    let key := cs.takeWhile isBareKeyChar
    if key.isEmpty then none else some (String.ofList key, cs.dropWhile isBareKeyChar)

/-- A dotted key of at most so many parts, with the blanks around them. -/
def keyPath : Nat → Reader (List String)
  | 0, _ => none
  | parts + 1, cs => do
    let (key, rest) ← keyPart (skipBlanks cs)
    match skipBlanks rest with
    | '.' :: more =>
      let (keys, rest) ← keyPath parts more
      return (key :: keys, rest)
    | rest => return ([key], rest)

/-- Skips blanks, line breaks and comments between the items of an array. -/
def skipFiller (inComment : Bool) : List Char → List Char
  | [] => []
  | c :: cs =>
    if c == '\n' then skipFiller false cs
    else if c == '\r' && cs.head? == some '\n' then skipFiller inComment cs
    else if inComment then
      if isCommentChar c then skipFiller true cs else c :: cs
    else if isBlank c then skipFiller false cs
    else if c == '#' then skipFiller true cs
    else c :: cs

/-- Items up to the closing bracket; the last one may be followed by a comma. -/
def arrayItems (item : Reader Toml) : Nat → Reader (List Toml)
  | 0, _ => none
  | fuel + 1, cs =>
    match skipFiller false cs with
    | ']' :: rest => some ([], rest)
    | cs => do
      let (first, rest) ← item cs
      match skipFiller false rest with
      | ']' :: rest => return ([first], rest)
      | ',' :: rest =>
        let (others, rest) ← arrayItems item fuel rest
        return (first :: others, rest)
      | _ => none

def assignment (item : Reader Toml) : Reader (List String × Toml) := fun cs ↦ do
  let (path, rest) ← keyPath depthLimit cs
  let rest ← expect '=' rest
  let (value, rest) ← item (skipBlanks rest)
  return ((path, value), rest)

/-- Assignments up to the closing brace. -/
def braceItems (item : Reader Toml) : Nat → Reader (List (List String × Toml))
  | 0, _ => none
  | fuel + 1, cs => do
    let (first, rest) ← assignment item cs
    match skipBlanks rest with
    | '}' :: rest => return ([first], rest)
    | ',' :: rest =>
      let (others, rest) ← braceItems item fuel rest
      return (first :: others, rest)
    | _ => none

def ofAssignments (assignments : List (List String × Toml)) : Option Toml := do
  let rows ← assignments.foldlM (fun rows (path, value) ↦ assign path value .braces rows) []
  return .table .braces rows

def braceTable (item : Reader Toml) : Reader Toml := fun cs ↦
  match skipBlanks cs with
  | '}' :: rest => some (.table .braces [], rest)
  | cs => do
    let (assignments, rest) ← braceItems item cs.length cs
    return (← ofAssignments assignments, rest)

/-- A value with so many levels of nesting left. -/
def value? : Nat → Reader Toml
  | 0, cs => scalar? cs
  | depth + 1, cs =>
    match cs with
    | '[' :: rest =>
      (arrayItems (value? depth) (rest.length + 1) rest).map fun (items, rest) ↦
        (.array items, rest)
    | '{' :: rest => braceTable (value? depth) rest
    | cs => scalar? cs

/-- Rest of the text after the end of a line that has nothing but a comment left. -/
def afterLine (cs : List Char) : Option (List Char) :=
  let rest :=
    match skipBlanks cs with
    | '#' :: comment => comment.dropWhile isCommentChar
    | rest => rest
  match rest with
  | [] => some []
  | rest => if startsLine rest then some (dropLineBreak rest) else none

/-- What has been read of a document, and the table that is being filled. -/
structure Draft where
  rows : Rows
  current : List String

/-- Puts what a header names into the document. -/
def Draft.opened (draft : Draft) (path : List String)
    (add : String → TableOrigin → Rows → Option Rows) : Option Draft := do
  let key ← path.getLast?
  let rows ← addAt false (add key) path.dropLast .header draft.rows
  return ⟨rows, path⟩

def Draft.assigned (draft : Draft) (path : List String) (value : Toml) : Option Draft := do
  let rows ← addAt false (assign path value) draft.current .header draft.rows
  return { draft with rows }

/-- A header or an assignment. -/
def statement (draft : Draft) : Reader Draft
  | '[' :: '[' :: cs => do
    let (path, rest) ← keyPath depthLimit cs
    let rest ← expect ']' (← expect ']' rest)
    return (← draft.opened path addItem, rest)
  | '[' :: cs => do
    let (path, rest) ← keyPath depthLimit cs
    let rest ← expect ']' rest
    return (← draft.opened path addTable, rest)
  | cs => do
    let ((path, value), rest) ← assignment (value? depthLimit) cs
    return (← draft.assigned path value, rest)

def readLines (draft : Draft) : Nat → List Char → Option Draft
  | _, [] => some draft
  | 0, _ :: _ => none
  | fuel + 1, cs =>
    match afterLine cs with
    | some rest => readLines draft fuel rest
    | none => do
      let (draft, rest) ← statement draft (skipBlanks cs)
      readLines draft fuel (← afterLine rest)

/-- Rows of the top table of a document, which may start with a byte order mark. -/
def parse (text : String) : Option Rows :=
  let cs := text.toList
  let cs := if cs.head? == some '\uFEFF' then cs.tail else cs
  (readLines ⟨[], []⟩ cs.length cs).map Draft.rows

end DirectoryBrowser.Toml
