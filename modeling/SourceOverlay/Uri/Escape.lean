import SourceOverlay.Text.Hex
import SourceOverlay.Text.Utf8

/-!
# Escapes

A percent sign and two hexadecimal digits stand for a byte. A percent sign without them stands for
itself.
-/

set_option autoImplicit false

namespace SourceOverlay.Uri

def percent : UInt8 := 0x25

def escapeValue? (mark high low : UInt8) : Option UInt8 :=
  if mark == percent then do
    let h ← Text.hexValue? (Char.ofNat high.toNat)
    let l ← Text.hexValue? (Char.ofNat low.toNat)
    some (UInt8.ofNat (h * 16 + l))
  else none

def unescape : Text.Bytes → Text.Bytes
  | a :: b :: c :: rest =>
    match escapeValue? a b c with
    | some value => value :: unescape rest
    | none => a :: unescape (b :: c :: rest)
  | bytes => bytes

def meantBytes (cs : List Char) : Text.Bytes := unescape (Text.encode (String.ofList cs))

def escapedChars : List Char := ['"', '#', '<', '>', '?', '\x60', '\x7b', '\x7d', '/', '%', '\\']

def isPlain (b : UInt8) : Bool :=
  0x20 < b && b < 0x7F && !escapedChars.contains (Char.ofNat b.toNat)

def escapeByte (b : UInt8) : List Char :=
  if isPlain b then [Char.ofNat b.toNat]
  else ['%', Text.upperHex (b.toNat / 16), Text.upperHex (b.toNat % 16)]

def escape (segment : String) : String :=
  String.ofList ((Text.encode segment).flatMap escapeByte)

end SourceOverlay.Uri
