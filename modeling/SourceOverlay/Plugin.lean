import SourceOverlay.Command
import SourceOverlay.Registry

/-!
# Plugins

A plugin contributes transpilers, all of them or none. On disk it is a manifest, a file of a
plugin directory whose name has a certain ending and something in front of it. Plugins are loaded
in the order of their files, each on its own: one that fails is noted and changes nothing else.
-/

set_option autoImplicit false

namespace SourceOverlay

structure Plugin where
  name : String
  content : Except PluginError (List Transpiler)

namespace Plugin

def manifestEnding : String := ".transpiler.json"

def hasEnding (fileName : String) : Bool := manifestEnding.toList.isSuffixOf fileName.toList

def nameOfFile (fileName : String) : String :=
  if hasEnding fileName then
    String.ofList (fileName.toList.take (fileName.length - manifestEnding.length))
  else fileName

def declarations? (nesting : Nat) (tree : Json.Tree) : Option (List Command.Declaration) :=
  match nesting with
  | 0 => none
  | nesting + 1 => do
    let record ← Json.Record.ofTree? ["transpilers"] tree
    Json.Record.optional [] (Json.Tree.list? Command.Declaration.ofTree? nesting)
      (record.fields.headD none)

def readManifest (text : String) : Except Json.Fault (List Command.Declaration) := do
  let tree ← Json.Tree.read text
  match declarations? Json.Tree.nestingLimit tree with
  | some declarations => return declarations
  | none => throw (Json.Fault.shape text)

def loadManifest (disk : Disk) (path : String) : Except PluginError (List Transpiler) :=
  match disk.readText path with
  | .error refusal => .error (.unreadable path refusal.message)
  | .ok text =>
    match readManifest text with
    | .error fault => .error (.malformed path fault.message)
    | .ok declarations => declarations.mapM (Command.Declaration.transpiler disk)

def ofManifest (disk : Disk) (path : String) : Plugin :=
  ⟨nameOfFile ((Disk.fileName? path).getD ""), loadManifest disk path⟩

def isManifestName (fileName : String) : Bool :=
  hasEnding fileName && manifestEnding.length < fileName.length

def isManifest (disk : Disk) (directory name : String) : Bool :=
  isManifestName name && disk.isFile (Disk.join directory name)

/-- The manifests among what is listed of a directory, by file name. A directory that cannot be read
has none. -/
def discover (disk : Disk) (listing : Disk.Listing) (directory : String) : List String :=
  match listing with
  | .error _ => []
  | .ok names =>
    let found := names.filter (isManifest disk directory)
    (found.mergeSort (· ≤ ·)).map (Disk.join directory)

structure Report where
  loaded : List String := []
  registered : Nat := 0
  failures : List (String × PluginError) := []

def Report.isClean (r : Report) : Bool := r.failures.isEmpty

def load (s : Report × Registry) (p : Plugin) : Report × Registry :=
  match p.content with
  | .ok ts =>
    ({ s.1 with loaded := s.1.loaded ++ [p.name], registered := s.1.registered + ts.length },
      s.2.addAll ts)
  | .error error => ({ s.1 with failures := s.1.failures ++ [(p.name, error)] }, s.2)

def loadAll (plugins : List Plugin) (registry : Registry) : Report × Registry :=
  plugins.foldl load ({}, registry)

def loadDirectory (disk : Disk) (listing : Disk.Listing) (directory : String)
    (registry : Registry) : Report × Registry :=
  loadAll ((discover disk listing directory).map (ofManifest disk)) registry

end Plugin

end SourceOverlay
