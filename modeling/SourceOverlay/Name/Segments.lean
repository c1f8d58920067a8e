import SourceOverlay.Name.Extension

/-!
# Segments of file names

Names are compared as text, so two spellings of one file have to be brought to one form. `collapse`
drops empty and `.` segments and lets each `..` take back the segment before it. A rooted name
absorbs the `..` that has nothing to take back; any other name keeps it in front.
-/

set_option autoImplicit false

namespace SourceOverlay.Name

namespace Chars

def isRelative (cs : List Char) : Bool :=
  cs == ['.'] || cs == ['.', '.'] || ['.', '/'].isPrefixOf cs || ['.', '.', '/'].isPrefixOf cs

def isRooted (cs : List Char) : Bool := cs.head? == some '/'

def folder (cs : List Char) : List Char :=
  match cs.reverse.dropWhile fun c => !isSeparator c with
  | [] => []
  | [_] => ['/']
  | _ :: before => before.reverse

def keep (rooted : Bool) (kept : List (List Char)) (segment : List Char) : List (List Char) :=
  if segment = [] ∨ segment = ['.'] then kept
  else if segment = ['.', '.'] then
    match kept with
    | last :: before =>
      if last ≠ ['.', '.'] then before else if rooted then kept else segment :: kept
    | [] => if rooted then [] else [segment]
  else segment :: kept

def segments (rooted : Bool) (cs : List Char) : List (List Char) :=
  ((cs.splitOnP isSeparator).foldl (keep rooted) []).reverse

def collapse (cs : List Char) : List Char :=
  let rooted := isRooted cs
  let joined := ['/'].intercalate (segments rooted cs)
  if rooted then '/' :: joined else joined

end Chars

def isRelative (name : String) : Bool := Chars.isRelative name.toList

def isRooted (name : String) : Bool := Chars.isRooted name.toList

def folder (name : String) : String :=
  String.ofList (Chars.folder name.toList)

def collapse (name : String) : String :=
  String.ofList (Chars.collapse name.toList)

/-- The name a module import points at, seen from the importing file. Bare module names point
nowhere. -/
def locate? (importer name : String) : Option String :=
  if isRooted name then some (collapse name)
  else if isRelative name then
    let dir := folder importer
    some (collapse (if dir == "" then name else dir ++ "/" ++ name))
  else none

def slashed (name : String) : String :=
  String.ofList (name.toList.map fun c => if c == '\\' then '/' else c)

end SourceOverlay.Name
