import DirectoryBrowser.Text.Percent

/-!
# URLs

A URL is kept in its parts, each already escaped, so that writing it out is
plain concatenation. The path is a list of segments, or, for the schemes
that name no place, one whole text that cannot serve as a base for others.
-/

namespace DirectoryBrowser

open Text

inductive UrlError where
  | emptyHost
  | invalidDomain
  | invalidPort
  | invalidIpv4
  | invalidIpv6
  | invalidDomainCharacter
  | noBase
  | unusableBase
  deriving DecidableEq, Repr

def UrlError.message : UrlError → String
  | .emptyHost => "empty host"
  | .invalidDomain => "invalid international domain name"
  | .invalidPort => "invalid port number"
  | .invalidIpv4 => "invalid IPv4 address"
  | .invalidIpv6 => "invalid IPv6 address"
  | .invalidDomainCharacter => "invalid domain character"
  | .noBase => "relative URL without a base"
  | .unusableBase => "relative URL with a cannot-be-a-base base"

/-- A URL without an authority has no host at all; one with two slashes and nothing after them has
an empty one. -/
inductive Host where
  | absent
  | empty
  | domain (name : List Char)
  | ipv4 (address : Nat)
  | ipv6 (pieces : List Nat)
  deriving DecidableEq, Repr

inductive UrlPath where
  | segments (names : List (List Char))
  | whole (text : List Char)
  deriving DecidableEq, Repr

structure Url where
  scheme : List Char
  username : List Char
  password : Option (List Char)
  host : Host
  port : Option Nat
  path : UrlPath
  query : Option (List Char)
  fragment : Option (List Char)
  deriving DecidableEq, Repr

/-- How a scheme treats authority and backslashes. -/
inductive SchemeKind where
  | file
  | special
  | ordinary
  deriving DecidableEq, Repr

namespace Scheme

def kind (scheme : List Char) : SchemeKind :=
  if scheme = "file".toList then .file
  else if ["http", "https", "ws", "wss", "ftp"].any (·.toList = scheme) then .special
  else .ordinary

def defaultPort? (scheme : List Char) : Option Nat :=
  if scheme = "http".toList ∨ scheme = "ws".toList then some 80
  else if scheme = "https".toList ∨ scheme = "wss".toList then some 443
  else if scheme = "ftp".toList then some 21
  else none

end Scheme

namespace Host

def ipv4Text (address : Nat) : List Char :=
  joinWith ['.'] ([0x1000000, 0x10000, 0x100, 1].map fun unit ↦ decimal (address / unit % 256))

/-- Length of the run of zeros at the front. -/
def zeroRun : List Nat → Nat
  | 0 :: pieces => zeroRun pieces + 1
  | _ => 0

/-- Start and length of the first longest run of zeros. -/
def longestZeroRun (start : Nat) : List Nat → Nat × Nat
  | [] => (start, 0)
  | piece :: pieces =>
    let here := zeroRun (piece :: pieces)
    let later := longestZeroRun (start + 1) pieces
    if later.2 ≤ here then (start, here) else later

/-- The longest run of at least two zeros shrinks to a pair of colons. -/
def ipv6Text (pieces : List Nat) : List Char :=
  let write (part : List Nat) : List Char := joinWith [':'] (part.map hexLower)
  let (start, length) := longestZeroRun 0 pieces
  if length < 2 then write pieces
  else write (pieces.take start) ++ [':', ':'] ++ write (pieces.drop (start + length))

def text : Host → List Char
  | .absent | .empty => []
  | .domain name => name
  | .ipv4 address => ipv4Text address
  | .ipv6 pieces => ['['] ++ ipv6Text pieces ++ [']']

def isNamed : Host → Bool
  | .absent | .empty => false
  | _ => true

end Host

namespace UrlPath

def text : UrlPath → List Char
  | .segments names => names.flatMap ('/' :: ·)
  | .whole text => text

end UrlPath

namespace Url

def kind (url : Url) : SchemeKind := Scheme.kind url.scheme

def pathText (url : Url) : String := String.ofList url.path.text

def credentialsText (url : Url) : List Char :=
  match url.username, url.password with
  | [], none => []
  | username, none => username ++ ['@']
  | username, some password => username ++ [':'] ++ password ++ ['@']

def portText (url : Url) : List Char :=
  match url.port with
  | some port => ':' :: decimal port
  | none => []

/-- Without an authority, a path with an empty first segment would read as one; a dot keeps them
apart. -/
def authorityText (url : Url) : List Char :=
  match url.host, url.path with
  | .absent, .segments ([] :: _ :: _) => ['/', '.']
  | .absent, _ => []
  | host, _ => ['/', '/'] ++ url.credentialsText ++ host.text ++ url.portText

def chars (url : Url) : List Char :=
  url.scheme ++ [':'] ++ url.authorityText ++ url.path.text ++
    (match url.query with
      | some query => '?' :: query
      | none => []) ++
    (match url.fragment with
      | some fragment => '#' :: fragment
      | none => [])

def toText (url : Url) : String := String.ofList url.chars

/-- Only a host has someone to log in to, so nothing is lost where there is none. -/
def withoutCredentials (url : Url) : Url :=
  { url with username := [], password := none }

/-- The port that is spoken to, written or not. -/
def effectivePort? (url : Url) : Option Nat :=
  url.port.or (Scheme.defaultPort? url.scheme)

/-- Two URLs share an origin when the same server answers for both; schemes without servers share
none. -/
def sameOrigin (a b : Url) : Bool :=
  a.kind = .special && a.scheme == b.scheme && a.host == b.host &&
    a.effectivePort? == b.effectivePort?

end Url

end DirectoryBrowser
