import DirectoryBrowser.Text.Utf8

/-!
# Percent escapes

An escape is a percent sign with two hexadecimal digits and stands for one
byte. Anything else is taken as it is written, so decoding never fails; only
the bytes that come out may fail to be text, and are then repaired.
-/

namespace DirectoryBrowser.Text

def hexValue? (b : UInt8) : Option Nat :=
  digitIn? 16 (Char.ofNat b.toNat)

/-- The byte an escape with these two digits stands for. -/
def escapedByte? (high low : UInt8) : Option UInt8 :=
  match hexValue? high, hexValue? low with
  | some h, some l => some (UInt8.ofNat (h * 16 + l))
  | _, _ => none

def percentSign : UInt8 := 0x25

def percentDecodeBytes : List UInt8 → List UInt8
  | [] => []
  | b :: high :: low :: rest =>
    if b = percentSign then
      match escapedByte? high low with
      | some byte => byte :: percentDecodeBytes rest
      | none => b :: percentDecodeBytes (high :: low :: rest)
    else b :: percentDecodeBytes (high :: low :: rest)
  | b :: rest => b :: percentDecodeBytes rest

def percentDecode (s : String) : String :=
  textLossy (percentDecodeBytes (bytesOf s))

/-- Escapes the bytes of every character in a set and leaves the other characters alone. -/
def percentEncode (mustEscape : Char → Bool) (cs : List Char) : List Char :=
  cs.flatMap fun c ↦
    if mustEscape c then (String.utf8EncodeChar c).flatMap fun b ↦ '%' :: hexByte b
    else [c]

end DirectoryBrowser.Text
