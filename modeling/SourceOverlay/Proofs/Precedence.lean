import SourceOverlay.Proofs.Manifests

/-!
# Which transpiler wins

A project takes transpilers from five places: the registry it is built on, its configuration file,
its draft, the code that builds it, and the manifests of its plugin directory. All of them are added
to one registry, so the order of the places is the order of precedence. The manifests come in the
order of their names, however the system lists them.
-/

set_option autoImplicit false

namespace SourceOverlay

/-! ### Settings -/

namespace Settings.Draft

/-- Where settings come from: the draft alone, or the draft over a configuration file with certain
declarations. -/
inductive Gives (disk : Disk) (d : Draft) : List Command.Declaration → Settings → Prop
  | built {settings : Settings} (h : d.build disk = .ok settings) : Gives disk d [] settings
  | loaded {settings : Settings} {text : String} {content : Content}
      (htext : disk.readText (Disk.join d.root d.file) = .ok text)
      (hcontent : Content.read text = .ok content) (h : d.load disk = .ok settings) :
      Gives disk d content.declarations settings

theorem ok_of_bind {ε α β : Type} {x : Except ε α} {f : α → Except ε β} {b : β}
    (h : (x >>= f) = .ok b) : ∃ a, x = .ok a ∧ f a = .ok b := by
  cases x with
  | error e => cases h
  | ok a => exact ⟨a, rfl, h⟩

theorem declarations_of_finish {disk : Disk} {d : Draft} {file : Option String}
    {settings : Settings} (h : d.finish disk file = .ok settings) :
    settings.declarations = d.declarations := by
  obtain ⟨root, -, hroot⟩ := ok_of_bind h
  cases hdir : d.options.rootDir? with
  | none =>
    simp only [hdir] at hroot
    rw [← Except.ok.inj hroot]
  | some dir =>
    simp only [hdir] at hroot
    obtain ⟨seat, -, hseat⟩ := ok_of_bind hroot
    rw [← Except.ok.inj hseat]

theorem Gives.declarations {disk : Disk} {d : Draft} {declared : List Command.Declaration}
    {settings : Settings} (h : d.Gives disk declared settings) :
    settings.declarations = declared ++ d.declarations := by
  cases h with
  | built h => simpa using declarations_of_finish h
  | loaded htext hcontent h =>
    by_cases hfile : disk.isFile (Disk.join d.root d.file) = true
    · simp only [load, hfile, htext, hcontent] at h
      exact declarations_of_finish h
    · simp [load, hfile] at h

end Settings.Draft

namespace Project

theorem addDeclared_of_usable (disk : Disk) {ds : List Command.Declaration}
    (h : ds.all (·.isUsable) = true) (registry : Registry) :
    addDeclared disk ds registry = (registry.addAll (ds.map (·.made disk)), none) := by
  induction ds generalizing registry with
  | nil => rfl
  | cons d ds ih =>
    rw [List.all_cons, Bool.and_eq_true] at h
    rw [addDeclared, Command.Declaration.transpiler_of_usable h.1]
    exact ih h.2 _

theorem usable_of_addDeclared {disk : Disk} {ds : List Command.Declaration}
    {registry registry' : Registry} (h : addDeclared disk ds registry = (registry', none)) :
    ds.all (·.isUsable) = true := by
  induction ds generalizing registry with
  | nil => rfl
  | cons d ds ih =>
    cases hd : d.isUsable with
    | true =>
      rw [addDeclared, Command.Declaration.transpiler_of_usable hd] at h
      rw [List.all_cons, hd, ih h]
      rfl
    | false =>
      obtain ⟨e, he⟩ := Command.Declaration.transpiler_of_unusable hd disk
      simp [addDeclared, he] at h

namespace Plan

variable {disk : Disk} {plan : Plan} {listing : Disk.Listing} {registry registry' : Registry}
  {project : Project}

def base (disk : Disk) (plan : Plan) (registry : Registry) : Registry :=
  registry.addAll (plan.settings.declarations.map (·.made disk) ++ plan.builtins)

def opened (plan : Plan) (pluginReport : Option Plugin.Report) : Project where
  settings := plan.settings
  resolver := plan.resolver
  memo := { root := plan.settings.rootDir }
  pluginReport := pluginReport

theorem build_of_usable (disk : Disk) (listing : Disk.Listing) (registry : Registry)
    (h : plan.settings.declarations.all (·.isUsable) = true) :
    plan.build disk listing registry =
      if plan.plugins then
        let (report, registry') := Plugin.loadDirectory disk listing plan.settings.pluginDir
          (plan.base disk registry)
        (registry', .ok (plan.opened (some report)))
      else (plan.base disk registry, .ok (plan.opened none)) := by
  simp only [build, addDeclared_of_usable disk h, base, Registry.addAll_append]
  rfl

theorem usable_of_build (h : plan.build disk listing registry = (registry', .ok project)) :
    plan.settings.declarations.all (·.isUsable) = true := by
  unfold build at h
  cases hdeclared : addDeclared disk plan.settings.declarations registry with
  | mk added error? =>
    cases error? with
    | none => exact usable_of_addDeclared hdeclared
    | some error =>
      simp only [hdeclared] at h
      cases (Prod.mk.inj h).2

/-- The transpilers that are added to the registry of a project, in order: those declared in its
file, those declared in its draft, those given in code, and those of the manifests. -/
def sequence (disk : Disk) (plan : Plan) (inFile inDraft : List Command.Declaration)
    (files : List String) : List Transpiler :=
  inFile.map (·.made disk) ++ inDraft.map (·.made disk) ++ plan.builtins ++
    if plan.plugins then files.flatMap (Plugin.contribution disk plan.settings.pluginDir) else []

theorem base_eq {draft : Settings.Draft} {declared : List Command.Declaration}
    (hsettings : draft.Gives disk declared plan.settings) (registry : Registry) :
    plan.base disk registry = registry.addAll
      (declared.map (·.made disk) ++ draft.declarations.map (·.made disk) ++ plan.builtins) := by
  rw [base, hsettings.declarations, List.map_append]

def reported (disk : Disk) (plan : Plan) (registry : Registry) (files : List String) :
    Option Plugin.Report :=
  if plan.plugins then
    some (Plugin.loadAll (files.map (Plugin.atFile disk plan.settings.pluginDir))
      (plan.base disk registry)).1
  else none

/-- What is built depends on the manifests that are listed and not on the order of the listing. -/
theorem build_eq {files : List String} {draft : Settings.Draft}
    {declared : List Command.Declaration} (hsettings : draft.Gives disk declared plan.settings)
    (husable : plan.settings.declarations.all (·.isUsable) = true)
    (hfiles : Plugin.Manifests disk plan.settings.pluginDir listing.names files)
    (registry : Registry) :
    plan.build disk listing registry =
      (registry.addAll (plan.sequence disk declared draft.declarations files),
        .ok (plan.opened (plan.reported disk registry files))) := by
  rw [build_of_usable disk listing registry husable]
  by_cases hplugins : plan.plugins = true
  · simp only [hplugins, if_true, hfiles.loadDirectory, Plugin.loadAll_eq, List.flatMap_map,
      Plugin.transpilers_atFile, base_eq hsettings, sequence, reported, Registry.addAll_append]
  · simp only [hplugins, sequence, reported, base_eq hsettings]
    simp

theorem sequence_erase {files : List String} {file : String} (hfile : file ∈ files)
    (hfails : Plugin.declared? disk (Disk.join plan.settings.pluginDir file) = none)
    (inFile inDraft : List Command.Declaration) :
    plan.sequence disk inFile inDraft (files.erase file) =
      plan.sequence disk inFile inDraft files := by
  have hnone : Plugin.contribution disk plan.settings.pluginDir file = [] := by
    rw [Plugin.contribution, hfails]
    rfl
  obtain ⟨before, after, -, rfl, herase⟩ := List.exists_erase_eq hfile
  simp [sequence, herase, hnone]

/-- A project that was built finds for each extension the last transpiler for it: those declared in
its file come after those that were in the registry before, then come those declared in its draft,
those given in code, and those of the manifests in the order of their file names. The order in which
the system lists the directory makes no difference. A manifest that fails contributes nothing: if
the directory does not list it, the registry is the same, and so is the report but for its
failure. -/
theorem build_last {draft : Settings.Draft} {declared : List Command.Declaration}
    (hsettings : draft.Gives disk declared plan.settings)
    (hbuild : plan.build disk listing registry = (registry', .ok project))
    (hlisting : disk.Enumerates plan.settings.pluginDir listing) :
    (∀ other, disk.Enumerates plan.settings.pluginDir other →
      plan.build disk other registry = (registry', .ok project)) ∧
    ∃ files, Plugin.Manifests disk plan.settings.pluginDir
        (disk.entries plan.settings.pluginDir).names files ∧
      Plugin.discover disk listing plan.settings.pluginDir =
        files.map (Disk.join plan.settings.pluginDir) ∧
      (∀ ext, Name.isBare ext = false →
        registry'.find? ext = ((registry.find? ext).toList ++
          (plan.sequence disk declared draft.declarations files).filter
            (·.extension == Name.dotted ext)).getLast?) ∧
      (plan.plugins = true → ∃ report, project.pluginReport = some report ∧
        report.Covers disk plan.settings.pluginDir files ∧
        ∀ file ∈ files, Plugin.declared? disk (Disk.join plan.settings.pluginDir file) = none →
          ∀ rest : Disk.Listing, rest.names.Perm (listing.names.erase file) →
            Plugin.discover disk rest plan.settings.pluginDir =
                (files.erase file).map (Disk.join plan.settings.pluginDir) ∧
              ∃ project' report', plan.build disk rest registry = (registry', .ok project') ∧
                project'.pluginReport = some report' ∧
                report'.Covers disk plan.settings.pluginDir (files.erase file) ∧
                report'.loaded = report.loaded ∧ report'.registered = report.registered) := by
  obtain ⟨files, hlisted⟩ := Plugin.exists_manifests disk plan.settings.pluginDir hlisting.nodup
  have husable := usable_of_build hbuild
  rw [build_eq hsettings husable hlisted] at hbuild
  obtain ⟨rfl, hproject⟩ := Prod.mk.inj hbuild
  obtain rfl := Except.ok.inj hproject
  refine ⟨?_, files, hlisted.perm_names hlisting.perm.symm, hlisted.discover, ?_, ?_⟩
  · intro other hother
    exact build_eq hsettings husable
      (hlisted.perm_names (hother.perm.trans hlisting.perm.symm)) registry
  · intro ext hext
    exact Registry.find?_addAll _ _ hext
  · intro hplugins
    refine ⟨_, if_pos hplugins, hlisted.covers hlisting.slash_notMem _, ?_⟩
    intro file hfile hfails rest hrest
    have hrests := (hlisted.erase file).perm_names hrest
    have hslash : ∀ name ∈ rest.names, '/' ∉ name.toList := by
      intro name hname
      exact hlisting.slash_notMem name (List.mem_of_mem_erase (hrest.mem_iff.mp hname))
    obtain ⟨hloaded, hregistered⟩ := Plugin.loadAll_erase hfile hfails (plan.base disk registry)
    refine ⟨hrests.discover, plan.opened (plan.reported disk registry (files.erase file)), _, ?_,
      if_pos hplugins, hrests.covers hslash _, hloaded, hregistered⟩
    rw [build_eq hsettings husable hrests, sequence_erase hfile hfails]

def sampleText (extension target : String) : String :=
  "\x7b\"transpilers\": [\x7b\"extension\": \"" ++ extension ++ "\", \"targetExtension\": \"" ++
    target ++ "\", \"command\": \"cat\"\x7d]\x7d"

def sampleDisk : Disk where
  nodes := .ofList
    ([("/p", .directory), ("/p/plugins", .directory),
      ("/p/tsconfig.json", .file (Text.encode (sampleText "v" "a"))),
      ("/p/plugins/a.transpiler.json", .file (Text.encode "\x7b not json")),
      ("/p/plugins/b.transpiler.json", .file (Text.encode (sampleText "..v" "d"))),
      ("/p/plugins/c.transpiler.json", .file (Text.encode (sampleText "v" "e")))] :
      List (String × Disk.Node))

def sampleDraft : Settings.Draft where
  root := "/p"
  declarations := [⟨"w", "b", "cat", [], .text⟩]
  pluginDir := some "plugins"

theorem exists_of_toOption_map {ε α β : Type} {x : Except ε α} {f : α → β} {b : β}
    (h : x.toOption.map f = some b) : ∃ a, x = .ok a ∧ f a = b := by
  cases x with
  | error e => cases h
  | ok a => exact ⟨a, rfl, Option.some.inj h⟩

theorem sampleDraft_gives : ∃ settings,
    sampleDraft.Gives sampleDisk [⟨"v", "a", "cat", [], .text⟩] settings ∧
      settings.pluginDir = "/p/plugins" := by
  obtain ⟨settings, hload, hdir⟩ : ∃ settings, sampleDraft.load sampleDisk = .ok settings ∧
      settings.pluginDir = "/p/plugins" := exists_of_toOption_map (by decide +kernel)
  obtain ⟨text, htext, hread⟩ : ∃ text,
      sampleDisk.readText (Disk.join sampleDraft.root sampleDraft.file) = .ok text ∧
        (Settings.Content.read text).toOption.map (·.declarations) =
          some [⟨"v", "a", "cat", [], .text⟩] := exists_of_toOption_map (by decide +kernel)
  obtain ⟨content, hcontent, hdeclared⟩ := exists_of_toOption_map hread
  refine ⟨settings, ?_, hdir⟩
  rw [← hdeclared]
  exact .loaded htext hcontent hload

/-- The manifests as they are listed, out of order. -/
def sampleNames : List String := ["c.transpiler.json", "a.transpiler.json", "b.transpiler.json"]

def sampleFiles : List String := ["a.transpiler.json", "b.transpiler.json", "c.transpiler.json"]

theorem sampleDisk_enumerates : sampleDisk.Enumerates "/p/plugins" (.ok sampleNames) := by
  obtain ⟨names, hnames, hperm⟩ : ∃ names, sampleDisk.entries "/p/plugins" = .ok names ∧
      decide (sampleNames.Perm names) = true := exists_of_toOption_map (by decide +kernel)
  exact .listed hnames (of_decide_eq_true hperm)

theorem sampleDisk_manifests :
    Plugin.Manifests sampleDisk "/p/plugins" sampleNames sampleFiles :=
  ⟨by decide, by decide +kernel⟩

theorem sampleDisk_declared :
    Plugin.declared? sampleDisk (Disk.join "/p/plugins" "a.transpiler.json") = none ∧
      Plugin.declared? sampleDisk (Disk.join "/p/plugins" "b.transpiler.json") =
        some [⟨"..v", "d", "cat", [], .text⟩] ∧
      Plugin.declared? sampleDisk (Disk.join "/p/plugins" "c.transpiler.json") =
        some [⟨"v", "e", "cat", [], .text⟩] := by
  decide +kernel

/-- Two manifests declare transpilers for one extension, and the one that is listed first comes last.
If the manifest that fails is not listed, the same transpilers are found. -/
theorem build_last_sample : ∃ settings registry' project report project' report',
    let plan : Plan := { settings, builtins := [.make "w" "c" Registry.copy] }
    sampleDraft.Gives sampleDisk [⟨"v", "a", "cat", [], .text⟩] settings ∧
      plan.build sampleDisk (.ok sampleNames) .copying = (registry', .ok project) ∧
      (registry'.find? ".v").map (·.target) = some ".e" ∧
      (registry'.find? "w").map (·.target) = some ".c" ∧
      project.pluginReport = some report ∧ report.loaded = ["b", "c"] ∧ report.registered = 2 ∧
      report.failures.map (·.1) = ["a"] ∧
      plan.build sampleDisk (.ok ["c.transpiler.json", "b.transpiler.json"]) .copying =
        (registry', .ok project') ∧
      project'.pluginReport = some report' ∧ report'.loaded = ["b", "c"] ∧
      report'.failures = [] := by
  obtain ⟨settings, hsettings, hdir⟩ := sampleDraft_gives
  let plan : Plan := { settings, builtins := [.make "w" "c" Registry.copy] }
  have husable : plan.settings.declarations.all (·.isUsable) = true := by
    rw [hsettings.declarations]
    decide +kernel
  have hlisting : sampleDisk.Enumerates plan.settings.pluginDir (.ok sampleNames) := by
    rw [hdir]
    exact sampleDisk_enumerates
  have hmanifests : Plugin.Manifests sampleDisk plan.settings.pluginDir
      (Disk.Listing.names (.ok sampleNames)) sampleFiles := by
    rw [hdir]
    exact sampleDisk_manifests
  have hbuild := build_eq hsettings husable hmanifests .copying
  obtain ⟨-, files, hfiles, -, hfind, hplugins⟩ := build_last hsettings hbuild hlisting
  obtain rfl : files = sampleFiles :=
    (hfiles.perm_names hlisting.perm).mergeSort_eq.symm.trans hmanifests.mergeSort_eq
  obtain ⟨report, hreport, hcovers, hrest⟩ := hplugins rfl
  simp only [plan, hdir] at hfind hcovers hrest
  obtain ⟨ha, hb, hc⟩ := sampleDisk_declared
  have hperm : (Disk.Listing.names (.ok ["c.transpiler.json", "b.transpiler.json"])).Perm
      (sampleNames.erase "a.transpiler.json") := by decide
  obtain ⟨-, project', report', hbuild', hreport', hcovers', hloaded', -⟩ :=
    hrest "a.transpiler.json" (by simp [sampleFiles]) ha _ hperm
  have hloaded : report.loaded = ["b", "c"] := by
    simp only [hcovers.loaded, sampleFiles, List.filter_cons, ha, hb, hc]
    decide +kernel
  refine ⟨settings, _, _, report, project', report', hsettings, hbuild, ?_, ?_, hreport, hloaded,
    ?_, ?_, hbuild', hreport', hloaded'.trans hloaded, ?_⟩
  · rw [hfind ".v" (by decide), sequence]
    simp only [hdir, sampleFiles, List.flatMap_cons, Plugin.contribution, ha, hb, hc]
    decide +kernel
  · rw [hfind "w" (by decide), sequence]
    simp only [hdir, sampleFiles, List.flatMap_cons, Plugin.contribution, ha, hb, hc]
    decide +kernel
  · simp only [hcovers.registered, sampleFiles, List.filterMap_cons, ha, hb, hc]
    decide +kernel
  · simp only [hcovers.failed, sampleFiles, List.filter_cons, ha, hb, hc]
    decide +kernel
  · have herase : sampleFiles.erase "a.transpiler.json" =
        ["b.transpiler.json", "c.transpiler.json"] := by decide
    have hfailed := hcovers'.failed
    simp only [herase, List.filter_cons, hb, hc] at hfailed
    exact List.map_eq_nil_iff.mp hfailed

end Plan

end Project

end SourceOverlay
