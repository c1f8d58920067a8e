import Std.Data.TreeMap
import SourceOverlay.Disk.Location
import SourceOverlay.Text.Utf8

/-!
# A disk

A disk is a tree of directories, files and symbolic links, together with the directory that
relative locations start from. A location is followed component by component. A link puts its
target in front of what is still to follow, and more than forty links on one way are refused. Each
`..` leaves the directory that was really reached, not the one that was written.
-/

set_option autoImplicit false

namespace SourceOverlay

inductive Disk.Node where
  | directory
  | file (bytes : Text.Bytes)
  | link (target : String)
  deriving Repr, DecidableEq

/-- The nodes by their spelled locations. The root directory is always there. -/
structure Disk where
  nodes : Std.TreeMap String Disk.Node := ∅
  working : List String := []

namespace Disk

inductive Refusal where
  | notFound
  | denied
  | notDirectory
  | isDirectory
  | nameTooLong
  | tooManyLinks
  | nulInName
  | notText
  | badDescriptor
  | alreadyThere
  | noSpace
  | tooMuch
  deriving Repr, DecidableEq

def Refusal.reason : Refusal → String
  | .notFound => "No such file or directory"
  | .denied => "Permission denied"
  | .notDirectory => "Not a directory"
  | .isDirectory => "Is a directory"
  | .nameTooLong => "File name too long"
  | .tooManyLinks => "Too many levels of symbolic links"
  | .nulInName => "file name contained an unexpected NUL byte"
  | .notText => "stream did not contain valid UTF-8"
  | .badDescriptor => "Bad file descriptor"
  | .alreadyThere => "File exists"
  | .noSpace => "No space left on device"
  | .tooMuch => "Argument list too long"

def Refusal.code? : Refusal → Option Nat
  | .notFound => some 2
  | .denied => some 13
  | .notDirectory => some 20
  | .isDirectory => some 21
  | .nameTooLong => some 36
  | .tooManyLinks => some 40
  | .nulInName => none
  | .notText => none
  | .badDescriptor => some 9
  | .alreadyThere => some 17
  | .noSpace => some 28
  | .tooMuch => some 7

def Refusal.message (r : Refusal) : String :=
  match r.code? with
  | some code => r.reason ++ " (os error " ++ toString code ++ ")"
  | none => r.reason

def node? (disk : Disk) : List String → Option Node
  | [] => some .directory
  | names => disk.nodes[spell names]?

inductive Place where
  | node (names : List String) (content : Node)
  | vacant (names : List String)

def linkLimit : Nat := 40

def nameLimit : Nat := 255

def pathLimit : Nat := 4095

/-- Follows the parts of a location from the node reached so far. A link at the very end is
followed only if `final` says so; any other is handed to `jump`, with the directory that its target
starts from and all that is then still to follow. -/
def walk (disk : Disk) (final : Bool) (jump : List String → List String → Except Refusal Place)
    (here : List String) : List String → Except Refusal Place
  | [] =>
    match disk.node? here with
    | some content => .ok (.node here content)
    | none => .error .notFound
  | part :: rest =>
    match disk.node? here with
    | none => .error .notFound
    | some (.file _) => .error .notDirectory
    | some (.link _) => .error .notDirectory
    | some .directory =>
      if part == "" || part == "." then walk disk final jump here rest
      else if part == ".." then walk disk final jump here.tail rest
      else if nameLimit < part.utf8ByteSize then .error .nameTooLong
      else
        match disk.node? (part :: here) with
        | none => if rest.isEmpty then .ok (.vacant (part :: here)) else .error .notFound
        | some (.link target) =>
          if rest.isEmpty && !final then .ok (.node (part :: here) (.link target))
          else jump (if isRooted target then [] else here) (parts target ++ rest)
        | some _ => walk disk final jump (part :: here) rest

def follow (disk : Disk) (final : Bool) : Nat → List String → List String → Except Refusal Place
  | 0 => disk.walk final fun _ _ => .error .tooManyLinks
  | links + 1 => disk.walk final (follow disk final links)

def trail (disk : Disk) (final : Bool) (path : String) : Except Refusal Place :=
  if path == "" then .error .notFound
  else disk.follow final linkLimit (if isRooted path then [] else disk.working) (parts path)

def placeWith (disk : Disk) (final : Bool) (path : String) : Except Refusal Place :=
  if path.toList.contains '\x00' then .error .nulInName
  else if pathLimit < path.utf8ByteSize then .error .nameTooLong
  else disk.trail final path

def place (disk : Disk) (path : String) : Except Refusal Place := disk.placeWith true path

def find (disk : Disk) (path : String) : Except Refusal (List String × Node) := do
  match ← disk.place path with
  | .node names content => return (names, content)
  | .vacant _ => throw .notFound

def isFile (disk : Disk) (path : String) : Bool :=
  match disk.find path with
  | .ok (_, .file _) => true
  | _ => false

def isDirectory (disk : Disk) (path : String) : Bool :=
  match disk.find path with
  | .ok (_, .directory) => true
  | _ => false

def readBytes (disk : Disk) (path : String) : Except Refusal Text.Bytes := do
  match ← disk.find path with
  | (_, .file bytes) => return bytes
  | _ => throw .isDirectory

def readText (disk : Disk) (path : String) : Except Refusal String := do
  match Text.decodeStrict? (← disk.readBytes path) with
  | some text => return text
  | none => throw .notText

def text? (disk : Disk) (path : String) : Option String :=
  match disk.readBytes path with
  | .ok bytes => Text.decode? bytes
  | .error _ => none

/-- What the system answers when it is asked for the names in a directory. It may enumerate them in
any order, and in another one the next time. -/
def Listing := Except Refusal (List String)

namespace Listing

def names : Listing → List String
  | .ok names => names
  | .error _ => []

end Listing

/-- The names in a directory, which has no order of its own: they stand as in the table of nodes. -/
def entries (disk : Disk) (path : String) : Listing := do
  match ← disk.find path with
  | (names, .directory) =>
    let start := (String.join (names.reverse.map ("/" ++ ·))).toList ++ ['/']
    return disk.nodes.keys.filterMap fun key =>
      let cs := key.toList
      let name := cs.drop start.length
      if start.isPrefixOf cs && !name.contains '/' && !name.isEmpty then some (String.ofList name)
      else none
  | _ => throw .notDirectory

/-- The location written in full: without links if it leads somewhere, else as it is written,
seated in the working directory unless it is rooted. It is followed name by name, so that only its
names have a limit. -/
def absolute (disk : Disk) (path : String) : String :=
  match disk.trail true path with
  | .ok (.node names _) => spell names
  | _ => if isRooted path then path else join (spell disk.working) path

def put (disk : Disk) (names : List String) (content : Node) : Disk :=
  { disk with nodes := disk.nodes.insert (spell names) content }

def write (disk : Disk) (path : String) (bytes : Text.Bytes) : Except Refusal Disk := do
  match ← disk.place path with
  | .vacant names => return disk.put names (.file bytes)
  | .node names (.file _) => return disk.put names (.file bytes)
  | .node _ _ => throw .isDirectory

def link (disk : Disk) (path target : String) : Except Refusal Disk := do
  match ← disk.placeWith false path with
  | .vacant names => return disk.put names (.link target)
  | .node _ _ => throw .denied

def remove (disk : Disk) (path : String) : Except Refusal Disk := do
  match ← disk.placeWith false path with
  | .vacant _ => throw .notFound
  | .node _ .directory => throw .isDirectory
  | .node names _ => return { disk with nodes := disk.nodes.erase (spell names) }

def ways (path : String) : List String :=
  let names := components path
  let root := if isRooted path then "/" else ""
  (List.range names.length).map fun i => root ++ "/".intercalate (names.take (i + 1))

def makeDirectories (disk : Disk) (path : String) : Disk :=
  (ways path).foldl (fun disk way =>
    match disk.place way with
    | .ok (.vacant names) => disk.put names .directory
    | _ => disk) disk

def makeParents (disk : Disk) (path : String) : Disk :=
  match (ways path).dropLast.getLast? with
  | some parent => disk.makeDirectories parent
  | none => disk

end Disk

end SourceOverlay
