import SourceOverlay.Import.Resolve
import SourceOverlay.Overlay
import SourceOverlay.Plugin
import SourceOverlay.Settings
import SourceOverlay.Uri

/-!
# Projects

A project is an overlay with its settings, its resolver and its memo. The registry is not part of
it: projects may share one. Building a project adds the declared transpilers one after the other,
then those given in code, then those of the plugins. A declaration that is unusable ends the build,
and the registry keeps what was added before it.
-/

set_option autoImplicit false

namespace SourceOverlay

structure Project where
  settings : Settings
  resolver : Import.Resolver
  overlay : Overlay := {}
  memo : Import.Memo
  pluginReport : Option Plugin.Report := none

namespace Project

/-! ### Building -/

def addDeclared (disk : Disk) : List Command.Declaration → Registry → Registry × Option PluginError
  | [], registry => (registry, none)
  | d :: ds, registry =>
    match d.transpiler disk with
    | .ok t => addDeclared disk ds (registry.add t)
    | .error error => (registry, some error)

structure Plan where
  settings : Settings
  builtins : List Transpiler := []
  resolver : Import.Resolver := Import.native
  plugins : Bool := true

/-- Builds a project; `listing` is what the system lists of its plugin directory. -/
def Plan.build (disk : Disk) (plan : Plan) (listing : Disk.Listing) (registry : Registry) :
    Registry × Except ProjectError Project :=
  let settings := plan.settings
  match addDeclared disk settings.declarations registry with
  | (registry, some error) =>
    (registry, .error (.malformedFile (settings.file.getD settings.projectRoot) error.message))
  | (registry, none) =>
    let registry := registry.addAll plan.builtins
    let project : Project :=
      { settings, resolver := plan.resolver, memo := { root := settings.rootDir } }
    if plan.plugins then
      let (report, registry) := Plugin.loadDirectory disk listing settings.pluginDir registry
      (registry, .ok { project with pluginReport := some report })
    else (registry, .ok project)

def openAt (disk : Disk) (list : String → Disk.Listing) (root : String) (registry : Registry) :
    Registry × Except ProjectError Project :=
  match Settings.load disk root with
  | .ok settings => ({ settings } : Plan).build disk (list settings.pluginDir) registry
  | .error error => (registry, .error error)

/-! ### Operations -/

def register (registry : Registry) (p : Project) (path text : String) (version : Version) :
    Registration × Project :=
  let (registration, overlay) := p.overlay.register registry path text version
  (registration, { p with overlay })

def openDocument (registry : Registry) (p : Project) (uri text : String) (version : Version) :
    Except ProjectError (Registration × Project) :=
  match Uri.path? uri with
  | some path => .ok (p.register registry path text version)
  | none => .error (.foreignUri uri)

def serve (registry : Registry) (files : Files) (p : Project) (path : String) :
    Snapshot × Project :=
  let (s, overlay) := p.overlay.serve registry files path
  (s, { p with overlay })

def resolveAll (registry : Registry) (files : Files) (p : Project) (importer : String)
    (names : List String) : List (Option Import.Module) × Project :=
  let host := Import.hostOf p.overlay.store files
  let (ms, memo) :=
    Import.resolveAll registry p.resolver p.settings.options host importer names p.memo
  (ms, { p with memo })

def takePluginReport (p : Project) : Option Plugin.Report × Project :=
  (p.pluginReport, { p with pluginReport := none })

def handOver (p : Project) : List Failure × List Job × Project :=
  (p.overlay.reports, p.overlay.calls,
    { p with overlay := { p.overlay with reports := [], calls := [] } })

/-! ### Descriptions -/

def quoteChar (c : Char) : String :=
  match c with
  | '"' => "\\\""
  | '\\' => "\\\\"
  | '\n' => "\\n"
  | '\r' => "\\r"
  | '\t' => "\\t"
  | '\x00' => "\\0"
  | _ =>
    if c.toNat < 0x20 || c.toNat == 0x7F then
      "\\u\x7b" ++ String.ofList (Nat.toDigits 16 c.toNat) ++ "\x7d"
    else c.toString

def quoted (text : String) : String := "\"" ++ String.join (text.toList.map quoteChar) ++ "\""

def braced (name : String) (fields : List String) : String :=
  name ++ " \x7b " ++ ", ".intercalate fields ++ " \x7d"

def bracketed (items : List String) : String := "[" ++ ", ".intercalate items ++ "]"

def describeTranspiler (t : Transpiler) : String :=
  braced "TranspilerDescriptor"
    ["extension: " ++ quoted t.extension, "target_extension: " ++ quoted t.target, ".."]

def describeRegistry (registry : Registry) : String :=
  braced "TranspilerRegistry" ["extensions: " ++ bracketed (registry.extensions.map quoted)]

def describeStats (s : Stats) : String :=
  braced "ProjectStats"
    ["registrations: " ++ toString s.registrations, "compiles: " ++ toString s.compiles,
      "failures: " ++ toString s.failures, "snapshot_hits: " ++ toString s.hits,
      "snapshot_misses: " ++ toString s.misses]

def describe (registry : Registry) (p : Project) : String :=
  braced "Project"
    ["root_dir: " ++ quoted p.settings.rootDir, "registry: " ++ describeRegistry registry,
      "stats: " ++ describeStats p.overlay.stats, ".."]

end Project

end SourceOverlay
