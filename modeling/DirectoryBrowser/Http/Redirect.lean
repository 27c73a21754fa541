import DirectoryBrowser.Url.Parse

/-!
# Redirects

A page can send its reader on to another place. Such a reference is followed
only when it is spelled as the grammar of URIs has it; where a link on a
page would be repaired, a redirect is left alone. A reference that begins an
authority has to name a host in it.
-/

namespace DirectoryBrowser.Redirect

open Text

/-- Characters that stand for themselves in every part of a reference. -/
def isPlain (c : Char) : Bool :=
  isAsciiLetter c || isDigit c || "-._~!$&'()*+,;=".toList.contains c

def isPathChar (c : Char) : Bool := isPlain c || c == ':' || c == '@' || c == '/'

def isQueryChar (c : Char) : Bool := isPathChar c || c == '?'

/-- Only characters of a set and whole escapes. -/
def isSpelled (allowed : Char → Bool) : List Char → Bool
  | [] => true
  | '%' :: high :: low :: cs => isHexDigit high && isHexDigit low && isSpelled allowed cs
  | c :: cs => allowed c && isSpelled allowed cs

/-- An address in brackets or a name without escapes, and a port that may be empty. -/
def isHostPort (text : List Char) : Bool :=
  match text with
  | '[' :: text =>
    match cutWhere? (· == ']') text with
    | some (address, ':' :: port) => (Host.parseIpv6 address).isOk && port.all isDigit
    | some (address, rest) => (Host.parseIpv6 address).isOk && rest.isEmpty
    | none => false
  | text =>
    let (host, port) := (cutWhere? (· == ':') text).getD (text, [])
    host.all isPlain && port.all isDigit

def isAuthority (text : List Char) : Bool :=
  match cutLast? '@' text with
  | some (login, server) =>
    isSpelled (fun c ↦ isPlain c || c == ':') login && !server.isEmpty && isHostPort server
  | none => !text.isEmpty && isHostPort text

/-- Authority and path of a reference. One that names its scheme also names its server, and in one
that does not a colon would be taken for the end of a scheme. -/
def isHierarchy (namesScheme : Bool) (text : List Char) : Bool :=
  match text with
  | '/' :: '/' :: text =>
    isAuthority (text.takeWhile (· != '/')) && isSpelled isPathChar (text.dropWhile (· != '/'))
  | text =>
    !namesScheme && !(text.takeWhile (· != '/')).contains ':' && isSpelled isPathChar text

def isReference (text : List Char) : Bool :=
  let (namesScheme, rest) :=
    match Url.cutScheme? text with
    | some (_, rest) => (true, rest)
    | none => (false, text)
  let ref := Url.cutReference rest
  isHierarchy namesScheme ref.hierarchy && isSpelled isQueryChar (ref.query.getD []) &&
    isSpelled isQueryChar (ref.fragment.getD [])

/-- Where a page at `url` sends its reader, who does not look for a place within the page there. -/
def follow? (url : Url) (location : String) : Option (Except UrlError Url) :=
  let text := trimBoth (fun c ↦ c == ' ' || c == '\t') location.toList
  if isReference text then
    some ((url.join (String.ofList text)).map fun next ↦ { next with fragment := none })
  else none

end DirectoryBrowser.Redirect
