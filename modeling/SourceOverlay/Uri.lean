import SourceOverlay.Disk.Location
import SourceOverlay.Name.Segments
import SourceOverlay.Uri.Host
import SourceOverlay.Uri.Path

/-!
# File URIs

Editors name their documents by URI. `Uri.path?` reads a `file` URI the way a browser does: blanks
and control characters around it and tabs and line breaks inside it are dropped, a backslash
counts as a slash, query and fragment are cut off, and dot segments are resolved before the escapes
are read. A host is refused unless it is the machine itself or a drive makes it void. `Uri.ofPath?`
writes a rooted location as a URI with every byte escaped that reading would not give back.
-/

set_option autoImplicit false

namespace SourceOverlay.Uri

def isControlOrBlank (c : Char) : Bool := c.toNat ≤ 0x20

def trimmed (uri : String) : List Char :=
  let cs := uri.toList.dropWhile isControlOrBlank
  (cs.reverse.dropWhile isControlOrBlank).reverse

def isSchemeChar (c : Char) : Bool := isLetter c || c.isDigit || c == '+' || c == '-' || c == '.'

def afterScheme? (cs : List Char) : Option (List Char) :=
  let isPart (c : Char) : Bool := isSchemeChar c || isLineBreakOrTab c
  match cs.dropWhile isPart with
  | ':' :: rest =>
    if (withoutBreaks (cs.takeWhile isPart)).map lower = ['f', 'i', 'l', 'e'] then some rest
    else none
  | _ => none

/-- The path of what follows the two slashes of a URI. What looks like a host may be a drive. -/
def readHosted? (cs : List Char) : Option (List Char) :=
  let isPart (c : Char) : Bool := !isSlash c && !endsPath c
  let name := withoutBreaks (cs.takeWhile isPart)
  let rest := cs.dropWhile isPart
  if isDrive name then readPath? false cs
  else if name.isEmpty then readPath? false rest
  else do
    let host ← Host.read? name
    if host.isHere then readPath? false rest
    else
      match rest with
      | c :: inside => if isSlash c then readPath? true inside else none
      | [] => none

def readBody? (cs : List Char) : Option (List Char) :=
  match afterBreaks cs with
  | a :: rest =>
    if isSlash a then
      match afterBreaks rest with
      | b :: after => if isSlash b then readHosted? after else readPath? false rest
      | [] => readPath? false rest
    else readPath? false cs
  | [] => readPath? false cs

/-- A path that ends in a drive gets the slash that is missing. -/
def closeDrive (bytes : Text.Bytes) : Text.Bytes :=
  match bytes.reverse with
  | mark :: letter :: _ :: _ =>
    if isDrive [Char.ofNat letter.toNat, Char.ofNat mark.toNat] then bytes ++ [0x2F] else bytes
  | _ => bytes

def path? (uri : String) : Option String := do
  let path ← readBody? (← afterScheme? (trimmed uri))
  some (Name.slashed (Text.decodeLossy (closeDrive (meantBytes path))))

def ofPath? (path : String) : Option String :=
  if Disk.isRooted path then
    let segments := (Disk.components path).map escape
    some ("file:///" ++ "/".intercalate segments)
  else none

end SourceOverlay.Uri
