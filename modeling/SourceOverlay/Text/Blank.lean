/-!
# Blank text

A character is blank when Unicode gives it the property `White_Space`. Compiler output that is
blank all through counts as no output at all, and the ends of an error text are trimmed of blanks.
-/

set_option autoImplicit false

namespace SourceOverlay.Text

def isBlank (c : Char) : Bool :=
  let n := c.toNat
  (0x9 ≤ n && n ≤ 0xD) || n == 0x20 || n == 0x85 || n == 0xA0 || n == 0x1680 ||
    (0x2000 ≤ n && n ≤ 0x200A) || n == 0x2028 || n == 0x2029 || n == 0x202F || n == 0x205F ||
    n == 0x3000

def isBlankText (text : String) : Bool := text.toList.all isBlank

def trim (text : String) : String :=
  String.ofList ((text.toList.dropWhile isBlank).reverse.dropWhile isBlank).reverse

/-- The number of lines: each newline ends one, and text after the last newline is one more. -/
def lineCount (text : String) : Nat :=
  let cs := text.toList
  let ended := cs.count '\n'
  match cs.getLast? with
  | none => 0
  | some last => if last == '\n' then ended else ended + 1

end SourceOverlay.Text
