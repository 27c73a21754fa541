import DirectoryBrowser.Url.Host

/-!
# URL parsing

A reference is cut at its first hash sign and then at its first question
mark; what remains names scheme, authority and path. A relative reference
borrows from its base whatever stands before the part it begins with. Dots
in the path are resolved while its segments are placed one after the other.
-/

namespace DirectoryBrowser.Url

open Text

def isBlank (c : Char) : Bool := c.toNat ≤ 0x20

def isLineNoise (c : Char) : Bool := c == '\t' || c == '\n' || c == '\r'

/-- Blanks around a reference and line breaks anywhere in it come from the text it was copied from. -/
def cleaned (text : List Char) : List Char :=
  (trimBoth isBlank text).filter (fun c ↦ !isLineNoise c)

def isControlOr (extra : String) (c : Char) : Bool :=
  Host.isControl c || extra.toList.contains c

def escapesInFragment : Char → Bool := isControlOr " \"<>`"

def escapesInQuery (kind : SchemeKind) : Char → Bool :=
  isControlOr (if kind = .ordinary then " \"#<>" else " \"#<>'")

def escapesInPath : Char → Bool := isControlOr " \"#<>?`{}"

def escapesInUserinfo : Char → Bool := isControlOr " \"#<>?`{}/:;=@[\\]^|"

def isSeparator (kind : SchemeKind) (c : Char) : Bool :=
  c == '/' || (c == '\\' && kind != .ordinary)

/-- Reads letters of a scheme up to its colon. -/
def schemeTail? : List Char → Option (List Char × List Char)
  | [] => none
  | c :: cs =>
    if c == ':' then some ([], cs)
    else if isAsciiLetter c || isDigit c || c == '+' || c == '-' || c == '.' then
      (schemeTail? cs).map fun (scheme, rest) ↦ (lowerAscii c :: scheme, rest)
    else none

def cutScheme? (text : List Char) : Option (List Char × List Char) :=
  match text with
  | c :: _ => if isAsciiLetter c then schemeTail? text else none
  | [] => none

/-- What follows the scheme, cut into hierarchy, query and fragment. -/
structure Reference where
  hierarchy : List Char
  query : Option (List Char)
  fragment : Option (List Char)

def cutReference (text : List Char) : Reference :=
  let (front, fragment) :=
    match cutWhere? (· == '#') text with
    | some (front, fragment) => (front, some fragment)
    | none => (text, none)
  match cutWhere? (· == '?') front with
  | some (hierarchy, query) => ⟨hierarchy, some query, fragment⟩
  | none => ⟨front, none, fragment⟩

def Reference.escapedQuery (ref : Reference) (kind : SchemeKind) : Option (List Char) :=
  ref.query.map (percentEncode (escapesInQuery kind))

def Reference.escapedFragment (ref : Reference) : Option (List Char) :=
  ref.fragment.map (percentEncode escapesInFragment)

/-- Pieces between separators. -/
def pieces (kind : SchemeKind) : List Char → List (List Char)
  | [] => [[]]
  | c :: cs =>
    if isSeparator kind c then [] :: pieces kind cs
    else
      match pieces kind cs with
      | [] => [[c]]
      | piece :: rest => (c :: piece) :: rest

/-- Dots of a segment with their escapes undone, or nothing when it has other characters. -/
def dotCount? : List Char → Option Nat
  | [] => some 0
  | '.' :: cs => (dotCount? cs).map (· + 1)
  | '%' :: '2' :: e :: cs => if e == 'e' || e == 'E' then (dotCount? cs).map (· + 1) else none
  | _ => none

def isSingleDot (segment : List Char) : Bool := dotCount? segment == some 1
def isDoubleDot (segment : List Char) : Bool := dotCount? segment == some 2

def isDriveLetter : List Char → Bool
  | [letter, mark] => isAsciiLetter letter && (mark == ':' || mark == '|')
  | _ => false

/-- Going up never leaves a drive. The segments are held last one first. -/
def climb : List (List Char) → List (List Char)
  | [] => []
  | segment :: above => if isDriveLetter segment then segment :: above else above

/-- Places pieces after the segments `above`, which are held last one first. Dots at the very end
leave an empty segment, since they name a directory. -/
def place (above : List (List Char)) : List (List Char) → List (List Char)
  | [] => above.reverse
  | piece :: rest =>
    let segment := percentEncode escapesInPath piece
    if isDoubleDot segment then
      place (if rest.isEmpty then [] :: climb above else climb above) rest
    else if isSingleDot segment then place (if rest.isEmpty then [] :: above else above) rest
    else place (segment :: above) rest

/-- A path text with its first separator, if it has one, taken off. -/
def rooted (kind : SchemeKind) (text : List Char) : List Char :=
  match text with
  | c :: cs => if isSeparator kind c then cs else text
  | [] => []

/-- Segments of the path after an authority. Only ordinary schemes tell an empty path from a lone
separator. -/
def pathSegments (kind : SchemeKind) (text : List Char) : List (List Char) :=
  if text.isEmpty && kind = .ordinary then []
  else place [] (pieces kind (rooted kind text))

/-- A drive letter at the front ends its segment, and one anywhere is written with a colon. -/
def drivePieces (text : List Char) : List (List Char) :=
  let found := pieces .file text
  match found with
  | (letter :: ':' :: c :: cs) :: rest =>
    if isAsciiLetter letter then [letter, ':'] :: (c :: cs) :: rest else found
  | _ => found

def withColon (segment : List Char) : List Char :=
  match segment with
  | [letter, mark] => if isDriveLetter [letter, mark] then [letter, ':'] else segment
  | _ => segment

/-- Segments of a file path, whose leading separators count as one. -/
def fileSegments (text : List Char) : List (List Char) :=
  let placed := (place [] (drivePieces (rooted .file text))).map withColon
  match placed.dropWhile List.isEmpty with
  | [] => [[]]
  | segments => segments

/-- Userinfo as user name and password; an empty password is no password. -/
def parseUserinfo (text : List Char) : List Char × Option (List Char) :=
  let escape := percentEncode escapesInUserinfo
  match cutWhere? (· == ':') text with
  | none => (escape text, none)
  | some (user, []) => (escape user, none)
  | some (user, password) => (escape user, some (escape password))

/-- The host ends at the first colon outside brackets. -/
def cutHost (inBrackets : Bool) : List Char → List Char × Option (List Char)
  | [] => ([], none)
  | c :: cs =>
    if c == ':' && !inBrackets then ([], some cs)
    else
      let (host, port) := cutHost (if c == '[' then true else if c == ']' then false else inBrackets) cs
      (c :: host, port)

/-- Reads a port and returns it with what follows its digits. -/
def parsePort (scheme text : List Char) : Except UrlError (Option Nat × List Char) :=
  let digits := text.takeWhile isDigit
  let rest := text.dropWhile isDigit
  if !rest.isEmpty && rest.head? != some '\\' then .error .invalidPort
  else
    match digits with
    | [] => .ok (none, rest)
    | digits =>
      match numeral? 10 UInt16.size digits with
      | none => .error .invalidPort
      | some port => .ok (if Scheme.defaultPort? scheme = some port then none else some port, rest)

/-- Login and place of an authority. What stands before the last at sign is the login. -/
def cutLogin (authority : List Char) : Option (List Char) × List Char :=
  match cutLast? '@' authority with
  | some (userinfo, hostPort) => (some userinfo, hostPort)
  | none => (none, authority)

/-- Only a name that will be looked up is read as one. -/
def readHost (kind : SchemeKind) (text : List Char) : Except UrlError Host :=
  if kind = .ordinary then Host.parseVerbatim text else Host.parse text

def readPort (scheme : List Char) : Option (List Char) → Except UrlError (Option Nat × List Char)
  | some text => parsePort scheme text
  | none => .ok (none, [])

/-- Reads what stands after two slashes. -/
def parseAuthority (scheme : List Char) (ref : Reference) (text : List Char) :
    Except UrlError Url := do
  let kind := Scheme.kind scheme
  let login := cutLogin (text.takeWhile (fun c ↦ !isSeparator kind c))
  let pathText := text.dropWhile (fun c ↦ !isSeparator kind c)
  let atEnd := pathText.isEmpty && ref.query.isNone && ref.fragment.isNone
  if login.1 == some [] && login.2.isEmpty && !atEnd then throw .emptyHost
  let user := parseUserinfo (login.1.getD [])
  let place := cutHost false login.2
  if kind = .special && place.1.isEmpty then throw .emptyHost
  let host ← readHost kind place.1
  if host = .empty && place.2.isSome then throw .emptyHost
  let port ← readPort scheme place.2
  if host = .empty && (!user.1.isEmpty || user.2.isSome) then throw .emptyHost
  return {
    scheme, username := user.1, password := user.2, host, port := port.1
    path := .segments (pathSegments kind (port.2 ++ pathText))
    query := ref.escapedQuery kind
    fragment := ref.escapedFragment }

/-- Reads what follows the scheme of a file. A host that is a drive letter belongs to the path, and
a drive in the path needs no host. -/
def parseFile (scheme : List Char) (ref : Reference) : Except UrlError Url := do
  let isSep := isSeparator .file
  let build (host : Host) (text : List Char) : Url :=
    { scheme, username := [], password := none
      host := if (pieces .file text).any isDriveLetter then .empty else host
      port := none
      path := .segments (fileSegments text)
      query := ref.escapedQuery .file
      fragment := ref.escapedFragment }
  match ref.hierarchy with
  | a :: b :: text =>
    if isSep a && isSep b then
      let hostText := text.takeWhile (fun c ↦ !isSep c)
      if isDriveLetter hostText then return build .empty text
      else if hostText.isEmpty then return build .empty text
      else
        let host ← Host.parse hostText
        return build (if host = .domain "localhost".toList then .empty else host)
          (text.dropWhile (fun c ↦ !isSep c))
    else return build .empty ref.hierarchy
  | text => return build .empty text

/-- Reads a reference that names its scheme. -/
def parseAbsolute (scheme : List Char) (ref : Reference) : Except UrlError Url :=
  match Scheme.kind scheme with
  | .file => parseFile scheme ref
  | .special => parseAuthority scheme ref (ref.hierarchy.dropWhile (isSeparator .special))
  | .ordinary =>
    match ref.hierarchy with
    | '/' :: '/' :: text => parseAuthority scheme ref text
    | hierarchy =>
      let path : UrlPath :=
        match hierarchy with
        | '/' :: _ => .segments (pathSegments .ordinary hierarchy)
        | text => .whole (percentEncode Host.isControl text)
      .ok {
        scheme, username := [], password := none, host := .absent, port := none, path
        query := ref.escapedQuery .ordinary
        fragment := ref.escapedFragment }

/-- Segments of a path text against a base whose segments are given: all but the last one stay. -/
def placeBelow (kind : SchemeKind) (base : List (List Char)) (text : List Char) :
    List (List Char) :=
  place base.dropLast.reverse (pieces kind text)

/-- Reads a reference against a base, which is no file and whose path has segments. -/
def parseRelative (base : Url) (baseSegments : List (List Char)) (ref : Reference) :
    Except UrlError Url :=
  let kind := base.kind
  let isSep := isSeparator kind
  let withPath (segments : List (List Char)) : Url :=
    { base with
      path := .segments segments
      query := ref.escapedQuery kind
      fragment := ref.escapedFragment }
  match ref.hierarchy with
  | [] =>
    .ok { base with
      query := ref.escapedQuery kind <|> base.query
      fragment := ref.escapedFragment }
  | a :: text =>
    if !isSep a then .ok (withPath (placeBelow kind baseSegments ref.hierarchy))
    else
      match text with
      | b :: afterTwo =>
        if isSep b then
          parseAuthority base.scheme ref
            (if a == '/' && b == '/' then afterTwo else ref.hierarchy.dropWhile isSep)
        else .ok (withPath (place [] (pieces kind text)))
      | [] => .ok (withPath (place [] (pieces kind text)))

/-- Reads a text as it would be followed from a page at `base`. -/
def parseFrom (base : Option Url) (input : String) : Except UrlError Url :=
  let text := cleaned input.toList
  match cutScheme? text, base with
  | some (scheme, rest), base =>
    let ref := cutReference rest
    let slashes := (ref.hierarchy.takeWhile (isSeparator .special)).length
    match base with
    | some page =>
      match page.path with
      | .segments names =>
        if Scheme.kind scheme = .special && scheme == page.scheme && slashes < 2 then
          parseRelative page names ref
        else parseAbsolute scheme ref
      | .whole _ => parseAbsolute scheme ref
    | none => parseAbsolute scheme ref
  | none, none => .error .noBase
  | none, some page =>
    let ref := cutReference text
    match page.path with
    | .segments names => parseRelative page names ref
    | .whole _ =>
      if text.head? = some '#' then .ok { page with fragment := ref.escapedFragment }
      else .error .unusableBase

def parse (input : String) : Except UrlError Url := parseFrom none input

def join (base : Url) (link : String) : Except UrlError Url := parseFrom (some base) link

/-- Puts another path in the place of the present one. Question marks and hash signs are ordinary
characters there. -/
def setPath (url : Url) (path : String) : Url :=
  let text := path.toList.filter (fun c ↦ !isLineNoise c)
  let kind := url.kind
  match url.path with
  | .whole _ =>
    let text := match text with
      | '/' :: rest => "%2F".toList ++ percentEncode Host.isControl rest
      | text => percentEncode Host.isControl text
    { url with path := .whole text }
  | .segments _ =>
    { url with
      path := .segments (if kind = .file then fileSegments text else pathSegments kind text) }

end DirectoryBrowser.Url
