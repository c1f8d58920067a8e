import SourceOverlay.Json.Basic
import SourceOverlay.Text.Hex

/-!
# Writing JSON texts

Values are written without blanks. A binary64 value is written exactly: its decimal digits and a
power of ten, so that reading the text gives the value back.
-/

set_option autoImplicit false

namespace SourceOverlay.Json

def quoteChar (c : Char) : List Char :=
  if c == '"' then ['\\', '"']
  else if c == '\\' then ['\\', '\\']
  else if c.toNat < 0x20 then
    ['\\', 'u', '0', '0', Text.lowerHex (c.toNat / 16), Text.lowerHex (c.toNat % 16)]
  else [c]

def quote (text : String) : String :=
  "\"" ++ String.ofList (text.toList.flatMap quoteChar) ++ "\""

namespace Number

def render : Number → String
  | .integer value => toString value
  | .binary negative mantissa exponent =>
    let sign := if negative then "-" else ""
    if 0 ≤ exponent then sign ++ toString (mantissa * Nat.pow 2 exponent.toNat) ++ ".0"
    else sign ++ toString (mantissa * Nat.pow 5 (-exponent).toNat) ++ "e" ++ toString exponent

end Number

mutual

def render : Json → String
  | .null => "null"
  | .bool true => "true"
  | .bool false => "false"
  | .number value => value.render
  | .string text => quote text
  | .array elements => "[" ++ ",".intercalate (renderElements elements) ++ "]"
  | .object members => "\x7b" ++ ",".intercalate (renderMembers members) ++ "\x7d"

def renderElements : List Json → List String
  | [] => []
  | v :: vs => v.render :: renderElements vs

def renderMembers : List (String × Json) → List String
  | [] => []
  | (key, v) :: ms => (quote key ++ ":" ++ v.render) :: renderMembers ms

end

end SourceOverlay.Json
