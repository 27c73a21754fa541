import DirectoryBrowser.Url.Domain

/-!
# Hosts

The host of a URL is an address in one of its notations or a name. Names of
the well-known schemes are looked up, so they are decoded and folded, and a
name whose last part is a number has to be a valid address. Other schemes
may call their hosts what they like.
-/

namespace DirectoryBrowser.Host

open Text

/-- Part of a numeric address: octal after a zero, hexadecimal after a further x. A part too large
for 32 bits is a number all the same, only not a valid one. -/
def ipv4Part? (part : List Char) : Option (Option Nat) :=
  let read (base : Nat) (digits : List Char) : Option (Option Nat) :=
    match digits with
    | [] => some (some 0)
    | digits => (readDigits base 0 digits).map fun n ↦ if n < UInt32.size then some n else none
  match part with
  | [] => none
  | '0' :: 'x' :: digits | '0' :: 'X' :: digits => read 16 digits
  | '0' :: d :: digits => read 8 (d :: digits)
  | digits => read 10 digits

/-- Parts between dots, a final dot closing the last one. -/
def dottedParts (name : List Char) : List (List Char) :=
  let parts := splitOn '.' name
  if 1 < parts.length ∧ parts.getLast? = some [] then parts.dropLast else parts

def endsInNumber (name : List Char) : Bool :=
  match (dottedParts name).getLast? with
  | none | some [] => false
  | some last => last.all isDigit || (ipv4Part? last).isSome

/-- Earlier parts are one byte each, and the last one fills what remains. -/
def parseIpv4 (name : List Char) : Except UrlError Host :=
  let parts := dottedParts name
  match (if parts.length ≤ 4 then parts.mapM fun part ↦ (ipv4Part? part).join else none) with
  | none => .error .invalidIpv4
  | some numbers =>
    let leading := numbers.dropLast
    let last := numbers.getLastD 0
    if leading.any (255 < ·) ∨ UInt32.size ≤ last * Nat.pow 256 leading.length then
      .error .invalidIpv4
    else
      .ok (.ipv4 (leading.zipIdx.foldl (fun total (n, i) ↦ total + n * Nat.pow 256 (3 - i)) last))

/-- Dotted tail of an address: four numbers of at most 255 without leading zeros, as two pieces. -/
def embeddedIpv4? (text : List Char) : Option (List Nat) :=
  let number? (digits : List Char) : Option Nat :=
    match digits with
    | '0' :: _ :: _ => none
    | digits => numeral? 10 256 digits
  match (splitOn '.' text).mapM number? with
  | some [a, b, c, d] => some [a * 256 + b, c * 256 + d]
  | _ => none

def ipv6Piece? (digits : List Char) : Option Nat :=
  if 4 < digits.length then none else numeral? 16 UInt16.size digits

/-- Pieces between single colons; only the last one may be in dotted form. -/
def ipv6Pieces? : List (List Char) → Option (List Nat)
  | [] => some []
  | [last] => if last.contains '.' then embeddedIpv4? last else (ipv6Piece? last).map ([·])
  | piece :: pieces =>
    match ipv6Piece? piece, ipv6Pieces? pieces with
    | some n, some ns => some (n :: ns)
    | _, _ => none

def ipv6Side? (side : List Char) : Option (List Nat) :=
  if side.isEmpty then some [] else ipv6Pieces? (splitOn ':' side)

/-- Two colons in a row stand for as many zeros as are missing, at least one. -/
def parseIpv6 (text : List Char) : Except UrlError Host :=
  match cutAt? [':', ':'] text with
  | some (left, right) =>
    match (if left.contains '.' then none else ipv6Side? left), ipv6Side? right with
    | some front, some back =>
      if front.length + back.length ≤ 7 then
        .ok (.ipv6 (front ++ List.replicate (8 - front.length - back.length) 0 ++ back))
      else .error .invalidIpv6
    | _, _ => .error .invalidIpv6
  | none =>
    match ipv6Pieces? (splitOn ':' text) with
    | some pieces => if pieces.length = 8 then .ok (.ipv6 pieces) else .error .invalidIpv6
    | none => .error .invalidIpv6

def parseBracketed (text : List Char) : Except UrlError Host :=
  match dropEnd? [']'] text with
  | some inner => parseIpv6 inner
  | none => .error .invalidIpv6

/-- Host of a scheme whose names are looked up. -/
def parse (text : List Char) : Except UrlError Host :=
  match text with
  | '[' :: rest => parseBracketed rest
  | text =>
    match text? (percentDecodeBytes (utf8 text)) with
    | none => .error .invalidDomain
    | some decoded =>
      match Domain.toAscii? decoded.toList with
      | none => .error .invalidDomain
      | some [] => .error .emptyHost
      | some name => if endsInNumber name then parseIpv4 name else .ok (.domain name)

def isControl (c : Char) : Bool :=
  c.toNat < 0x20 || 0x7F ≤ c.toNat

/-- Host of any other scheme, which keeps its spelling. -/
def parseVerbatim (text : List Char) : Except UrlError Host :=
  match text with
  | [] => .ok .empty
  | '[' :: rest => parseBracketed rest
  | text =>
    if text.any fun c ↦ "\x00\t\n\r #/:<>?@[\\]^|".toList.contains c then
      .error .invalidDomainCharacter
    else .ok (.domain (percentEncode isControl text))

end DirectoryBrowser.Host
