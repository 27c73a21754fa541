import DirectoryBrowser.Text.Numeral

/-!
# UTF-8

Text leaves and enters the program as bytes. Encoding is per character.
Decoding is total: the longest beginning of a character that the remaining
bytes still allow, or a single byte when none does, becomes one replacement
character, so that damaged input keeps every intact character around it.
-/

namespace DirectoryBrowser.Text

def utf8 (cs : List Char) : List UInt8 :=
  cs.flatMap String.utf8EncodeChar

def bytesOf (s : String) : List UInt8 :=
  utf8 s.toList

/-- Ranges that the bytes after a leading byte must lie in; overlong forms and surrogates are ruled
out by the first of them. -/
def continuations (lead : UInt8) : List (Nat × Nat) :=
  let b := lead.toNat
  let tail := (0x80, 0xBF)
  if 0xC2 ≤ b ∧ b ≤ 0xDF then [tail]
  else if b = 0xE0 then [(0xA0, 0xBF), tail]
  else if b = 0xED then [(0x80, 0x9F), tail]
  else if 0xE1 ≤ b ∧ b ≤ 0xEF then [tail, tail]
  else if b = 0xF0 then [(0x90, 0xBF), tail, tail]
  else if b = 0xF4 then [(0x80, 0x8F), tail, tail]
  else if 0xF1 ≤ b ∧ b ≤ 0xF3 then [tail, tail, tail]
  else []

/-- The bytes at the front that fit the ranges one by one. -/
def matching : List (Nat × Nat) → List UInt8 → List UInt8
  | [], _ | _, [] => []
  | (low, high) :: ranges, b :: bytes =>
    if low ≤ b.toNat ∧ b.toNat ≤ high then b :: matching ranges bytes else []

/-- Code point of a complete sequence, each following byte carrying six bits. -/
def codePoint (lead : UInt8) (following : List UInt8) : Nat :=
  let payload :=
    match following.length with
    | 0 => lead.toNat
    | 1 => lead.toNat % 32
    | 2 => lead.toNat % 16
    | _ => lead.toNat % 8
  following.foldl (fun acc b ↦ acc * 64 + b.toNat % 64) payload

def replacement : Char := '\uFFFD'

def decodeLossy (bytes : List UInt8) : List Char :=
  match bytes with
  | [] => []
  | lead :: rest =>
    if lead.toNat < 0x80 then Char.ofNat lead.toNat :: decodeLossy rest
    else
      let ranges := continuations lead
      let following := matching ranges rest
      let c :=
        if ranges.isEmpty || following.length < ranges.length then replacement
        else Char.ofNat (codePoint lead following)
      c :: decodeLossy (rest.drop following.length)
termination_by bytes.length

def textLossy (bytes : List UInt8) : String :=
  String.ofList (decodeLossy bytes)

/-- Text of well-formed bytes: a replacement character never encodes to the bytes it stands for. -/
def text? (bytes : List UInt8) : Option String :=
  let cs := decodeLossy bytes
  if utf8 cs = bytes then some (String.ofList cs) else none

/-- Names are ordered by their bytes, which is also the order of their code points. -/
def bytesLE (a b : String) : Bool :=
  !(bytesOf b < bytesOf a : Bool)

end DirectoryBrowser.Text
