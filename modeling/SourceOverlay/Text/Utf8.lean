/-!
# Bytes and text

Texts are read from bytes in two ways. `decode?` is strict and drops one byte order mark in
front. `decodeLossy` always answers: each longest beginning of a character that is not continued,
and each byte that cannot begin one, becomes the replacement character.
-/

set_option autoImplicit false

namespace SourceOverlay.Text

abbrev Bytes := List UInt8

def encode (text : String) : Bytes := text.toUTF8.toList

def decodeStrict? (bytes : Bytes) : Option String := String.fromUTF8? ⟨bytes.toArray⟩

def byteOrderMark : Bytes := [0xEF, 0xBB, 0xBF]

def decode? (bytes : Bytes) : Option String :=
  if byteOrderMark.isPrefixOf bytes then decodeStrict? (bytes.drop byteOrderMark.length)
  else decodeStrict? bytes

structure Begun where
  bits : Nat
  missing : Nat
  low : UInt8 := 0x80
  high : UInt8 := 0xBF
  deriving Repr

structure LossyState where
  read : List Char := []
  begun : Option Begun := none

def replacement : Char := Char.ofNat 0xFFFD

namespace LossyState

def start (read : List Char) (b : UInt8) : LossyState :=
  let n := b.toNat
  if n < 0x80 then ⟨Char.ofNat n :: read, none⟩
  else if 0xC2 ≤ n && n ≤ 0xDF then ⟨read, some ⟨n % 32, 1, 0x80, 0xBF⟩⟩
  else if 0xE0 ≤ n && n ≤ 0xEF then
    ⟨read, some ⟨n % 16, 2, if n == 0xE0 then 0xA0 else 0x80, if n == 0xED then 0x9F else 0xBF⟩⟩
  else if 0xF0 ≤ n && n ≤ 0xF4 then
    ⟨read, some ⟨n % 8, 3, if n == 0xF0 then 0x90 else 0x80, if n == 0xF4 then 0x8F else 0xBF⟩⟩
  else ⟨replacement :: read, none⟩

def step (s : LossyState) (b : UInt8) : LossyState :=
  match s.begun with
  | none => start s.read b
  | some c =>
    if c.low ≤ b && b ≤ c.high then
      let bits := c.bits * 64 + b.toNat % 64
      if c.missing ≤ 1 then ⟨Char.ofNat bits :: s.read, none⟩
      else ⟨s.read, some ⟨bits, c.missing - 1, 0x80, 0xBF⟩⟩
    else start (replacement :: s.read) b

def finish (s : LossyState) : String :=
  String.ofList (if s.begun.isSome then replacement :: s.read else s.read).reverse

end LossyState

/-- The bytes as text, with a replacement character for whatever is not UTF-8. -/
def decodeLossy (bytes : Bytes) : String :=
  (bytes.foldl LossyState.step {}).finish

end SourceOverlay.Text
