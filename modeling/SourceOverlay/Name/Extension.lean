/-!
# Extensions of file names

A name is a path written as text, with `/` or `\` between its components. Only the final
component carries extensions, and the dots that open it never start one, so `v1.2/Makefile`
and `.hidden` have none. A name that ends in a bare dot has the extension `.`, which is not a
proper extension and is never taken off.

A compiled file is named after its source with the target extension appended, so its name
carries two proper extensions. `Layered.split?` recognizes such names from the right.
-/

set_option autoImplicit false

namespace SourceOverlay.Name

def isSeparator (c : Char) : Bool := c == '/' || c == '\\'

def isDot (c : Char) : Bool := c == '.'

def lastRun (p : Char → Bool) (cs : List Char) : List Char :=
  (cs.reverse.takeWhile fun c => !p c).reverse

namespace Chars

def component (cs : List Char) : List Char := lastRun isSeparator cs

def extension (cs : List Char) : List Char :=
  let stem := (component cs).dropWhile isDot
  if stem.any isDot then '.' :: lastRun isDot stem else []

def isProper (ext : List Char) : Bool := 1 < ext.length

def dropEnd (cs ext : List Char) : List Char := cs.take (cs.length - ext.length)

def withoutExtension (cs : List Char) : List Char :=
  let ext := extension cs
  if isProper ext then dropEnd cs ext else cs

def undotted (ext : List Char) : List Char := ext.dropWhile isDot

def dotted (ext : List Char) : List Char := '.' :: undotted ext

end Chars

def extension (name : String) : String :=
  String.ofList (Chars.extension name.toList)

def withoutExtension (name : String) : String :=
  String.ofList (Chars.withoutExtension name.toList)

def dotted (ext : String) : String :=
  String.ofList (Chars.dotted ext.toList)

def isBare (ext : String) : Bool := (Chars.undotted ext.toList).isEmpty

def compiled (source target : String) : String := source ++ target

/-- A name with two proper extensions: that of the source, and around it that of the target. -/
structure Layered where
  stem : String
  inner : String
  outer : String
  deriving Repr, DecidableEq

namespace Layered

def source (n : Layered) : String := n.stem ++ n.inner

def split? (name : String) : Option Layered :=
  let cs := name.toList
  let outer := Chars.extension cs
  let source := Chars.dropEnd cs outer
  let inner := Chars.extension source
  if Chars.isProper outer && Chars.isProper inner then
    some ⟨String.ofList (Chars.dropEnd source inner), String.ofList inner, String.ofList outer⟩
  else
    none

end Layered

end SourceOverlay.Name
