import SourceOverlay.Text.Utf8

/-!
# Raw texts

Programs do not know characters, only bytes. A raw text has one character for each byte, so that
cutting it anywhere leaves raw texts. `raw` and `cooked` go from texts to raw texts and back, the
latter with a replacement character for bytes that are no UTF-8.
-/

set_option autoImplicit false

namespace SourceOverlay.Text

def byteChar (b : UInt8) : Char := Char.ofNat b.toNat

def charByte (c : Char) : UInt8 := UInt8.ofNat c.toNat

def ofBytes (bytes : Bytes) : String := String.ofList (bytes.map byteChar)

def toBytes (raw : String) : Bytes := raw.toList.map charByte

def raw (text : String) : String := ofBytes (encode text)

def cooked (raw : String) : String := decodeLossy (toBytes raw)

end SourceOverlay.Text
