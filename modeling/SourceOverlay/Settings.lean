import SourceOverlay.Command
import SourceOverlay.Name.Segments
import SourceOverlay.Options

/-!
# Project settings

Settings come from a draft, which is made choice by choice, and, if the draft is loaded, from a
configuration file under the project root. What the draft says wins: its options are set over those
of the file, its plugin directory replaces the file's, and its declared transpilers follow the
file's. Afterwards the root directories are made absolute and must be there, and the flags the
engine needs are forced on.
-/

set_option autoImplicit false

namespace SourceOverlay

structure Settings where
  projectRoot : String
  file : Option String
  rootDir : String
  options : Options
  declarations : List Command.Declaration
  pluginDir : String

namespace Settings

structure Content where
  options : List (String × Json) := []
  declarations : List Command.Declaration := []
  pluginDir : Option String := none

namespace Content

def options? : Nat → Json.Tree → Option (List (String × Json))
  | nesting + 1, .object members => Json.Tree.memberValues? nesting members
  | _, _ => none

def optionalText? : Json.Tree → Option (Option String)
  | .null => some none
  | tree => tree.text?.map some

def pluginDir? : Nat → Json.Tree → Option (Option String)
  | 0, _ => none
  | _ + 1, tree => do
    let record ← Json.Record.ofTree? ["directory"] tree
    match record.fields with
    | [some directory] => optionalText? directory
    | _ => if record.positional then none else some none

def ofTree? : Nat → Json.Tree → Option Content
  | 0, _ => none
  | nesting + 1, tree => do
    let record ← Json.Record.ofTree? ["compilerOptions", "transpilers", "plugins"] tree
    match record.fields with
    | [options, declarations, plugins] =>
      let options ← Json.Record.optional [] (options? nesting) options
      let declarations ←
        Json.Record.optional [] (Json.Tree.list? Command.Declaration.ofTree? nesting) declarations
      let pluginDir ← Json.Record.optional none (pluginDir? nesting) plugins
      some ⟨options, declarations, pluginDir⟩
    | _ => none

def read (text : String) : Except Json.Fault Content := do
  let tree ← Json.Tree.read text
  match ofTree? Json.Tree.nestingLimit tree with
  | some content => return content
  | none => throw (Json.Fault.shape text)

end Content

def defaultFile : String := "tsconfig.json"

def defaultPluginDir : String := ".overlay/plugins"

structure Draft where
  root : String
  file : String := defaultFile
  options : Options := {}
  declarations : List Command.Declaration := []
  pluginDir : Option String := none

namespace Draft

inductive Choice where
  | file (name : String)
  | option (key : String) (value : Json)
  | declaration (declaration : Command.Declaration)
  | pluginDir (path : String)

def choose (d : Draft) : Choice → Draft
  | .file name => { d with file := name }
  | .option key value => { d with options := d.options.set key value }
  | .declaration declaration => { d with declarations := d.declarations ++ [declaration] }
  | .pluginDir path => { d with pluginDir := some path }

def ofChoices (root : String) (choices : List Choice) : Draft := choices.foldl choose { root }

def directory (disk : Disk) (path : String) : Except ProjectError String :=
  let path := disk.absolute path
  if disk.isDirectory path then .ok path else .error (.missingRoot path)

/-- The settings of a draft that no file is read for; `file` is only noted. -/
def finish (disk : Disk) (d : Draft) (file : Option String) : Except ProjectError Settings := do
  let projectRoot ← directory disk d.root
  let rootDir ←
    match d.options.rootDir? with
    | some dir => directory disk (Disk.join projectRoot dir)
    | none => pure projectRoot
  let rootDir := Name.slashed rootDir
  return {
    projectRoot, file, rootDir
    options := (d.options.set Options.rootDirKey (.string rootDir)).force
    declarations := d.declarations
    pluginDir := Disk.join projectRoot (d.pluginDir.getD defaultPluginDir) }

def build (disk : Disk) (d : Draft) : Except ProjectError Settings := d.finish disk none

/-- The draft that a file's content and this draft make together. -/
def onTopOf (d : Draft) (content : Content) : Draft :=
  { d with
    options := (Options.ofList content.options).setAll d.options.toList
    declarations := content.declarations ++ d.declarations
    pluginDir := d.pluginDir <|> content.pluginDir }

def load (disk : Disk) (d : Draft) : Except ProjectError Settings :=
  let path := Disk.join d.root d.file
  if !disk.isFile path then .error (.missingFile path)
  else
    match disk.readText path with
    | .error refusal => .error (.system refusal.message)
    | .ok text =>
      match Content.read text with
      | .error fault => .error (.malformedFile path fault.message)
      | .ok content => (d.onTopOf content).finish disk (some path)

end Draft

def load (disk : Disk) (root : String) : Except ProjectError Settings :=
  ({ root } : Draft).load disk

end Settings

end SourceOverlay
