/-!
# Locations on a disk

On a disk only `/` separates components; a backslash is a character of a name like any other.
`join` seats one location in another the way a file system reads it: a rooted one stands for
itself, and joining the empty location leaves a separator at the end.
-/

set_option autoImplicit false

namespace SourceOverlay.Disk

def isRooted (path : String) : Bool := path.toList.head? == some '/'

def join (base path : String) : String :=
  if isRooted path then path
  else
    match base.toList.getLast? with
    | none => path
    | some last => if last == '/' then base ++ path else base ++ "/" ++ path

def parts (path : String) : List String :=
  (path.toList.splitOnP (· == '/')).map String.ofList

def components (path : String) : List String :=
  (parts path).filter fun part => part != "" && part != "."

def fileName? (path : String) : Option String :=
  (components path).getLast?.filter (· != "..")

/-- The text of the location that a list of names leads to, the last name first. -/
def spell : List String → String
  | [] => "/"
  | names => String.join (names.reverse.map ("/" ++ ·))

end SourceOverlay.Disk
