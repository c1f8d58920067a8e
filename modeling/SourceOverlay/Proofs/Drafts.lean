import SourceOverlay.Proofs.Precedence

/-!
# Drafts over a configuration file

A draft is made choice by choice, and of several choices of the same thing the last one counts.
What a configuration file says is a list of choices too. To load a draft over a file is to make the
file's choices before those of the draft and to build without a file: the settings are the same, but
for the file that is noted in them. In either case the root directory and the forced flags are set
last, over whatever they were before.
-/

set_option autoImplicit false

namespace SourceOverlay

/-! ### The last value of a key -/

namespace Options

def lastValue? (members : List (String × Json)) (key : String) : Option Json :=
  (members.filter (·.1 == key)).getLast?.map (·.2)

theorem lastValue?_append (ms ns : List (String × Json)) (key : String) :
    lastValue? (ms ++ ns) key = (lastValue? ns key).or (lastValue? ms key) := by
  simp only [lastValue?, List.filter_append, List.getLast?_append]
  cases (ns.filter (·.1 == key)).getLast? <;> rfl

theorem lastValue?_singleton (m : String × Json) (key : String) :
    lastValue? [m] key = if m.1 = key then some m.2 else none := by
  by_cases h : m.1 = key
  · simp [lastValue?, h]
  · simp [lastValue?, h]

theorem get?_empty (key : String) : ({} : Options).get? key = none := by
  simp [get?]

theorem get?_set (o : Options) (key : String) (value : Json) (other : String) :
    (o.set key value).get? other = if key = other then some value else o.get? other := by
  simp [set, get?, Std.TreeMap.getElem?_insert]

theorem get?_setAll (o : Options) (members : List (String × Json)) (key : String) :
    (o.setAll members).get? key = (lastValue? members key).or (o.get? key) := by
  induction members using List.reverseRecOn with
  | nil => rfl
  | append_singleton members m ih =>
    have hset : o.setAll (members ++ [m]) = (o.setAll members).set m.1 m.2 := by simp [setAll]
    rw [hset, get?_set, ih, lastValue?_append, lastValue?_singleton]
    by_cases h : m.1 = key
    · simp [h]
    · simp [h]

theorem get?_ofList (members : List (String × Json)) (key : String) :
    (ofList members).get? key = lastValue? members key := by
  rw [ofList, get?_setAll, get?_empty, Option.or_none]

theorem lastValue?_toList (o : Options) (key : String) : lastValue? o.toList key = o.get? key := by
  have hmem : ∀ m : String × Json, m ∈ o.toList ↔ o.get? m.1 = some m.2 := by
    intro m
    exact Std.TreeMap.mem_toList_iff_getElem?_eq_some
  rw [lastValue?]
  cases hlast : (o.toList.filter (·.1 == key)).getLast? with
  | none =>
    have hnil : o.toList.filter (·.1 == key) = [] := List.getLast?_eq_none_iff.mp hlast
    cases hget : o.get? key with
    | none => rfl
    | some value =>
      have hin := List.filter_eq_nil_iff.mp hnil (key, value) ((hmem _).mpr hget)
      simp at hin
  | some m =>
    obtain ⟨hin, hkey⟩ := List.mem_filter.mp (List.mem_of_getLast? hlast)
    obtain rfl : m.1 = key := by simpa using hkey
    exact ((hmem m).mp hin).symm

theorem get?_force (o : Options) (key : String) :
    o.force.get? key =
      if key = "allowJs" ∨ key = "allowArbitraryExtensions" then some (.bool true)
      else o.get? key := by
  simp only [force, setAll, forcedFlags, List.map_cons, List.map_nil, List.foldl_cons,
    List.foldl_nil, get?_set, @eq_comm _ _ key]
  by_cases hjs : key = "allowJs"
  · simp [hjs]
  · simp [hjs]

theorem toList_congr {o o' : Options} (h : ∀ key, o.get? key = o'.get? key) :
    o.toList = o'.toList := by
  have hequiv : o.values.Equiv o'.values := .of_forall_constGet?_eq h
  exact hequiv.toList_eq

end Options

theorem Disk.isFile_of_readText {disk : Disk} {path text : String}
    (h : disk.readText path = .ok text) : disk.isFile path = true := by
  obtain ⟨bytes, hbytes, -⟩ := Settings.Draft.ok_of_bind h
  obtain ⟨⟨names, node⟩, hfind, hnode⟩ := Settings.Draft.ok_of_bind hbytes
  cases node with
  | file => rw [isFile, hfind]
  | directory => cases hnode
  | link => cases hnode

namespace Settings

/-! ### What was chosen -/

namespace Draft

namespace Choice

def option? : Choice → Option (String × Json)
  | .option key value => some (key, value)
  | _ => none

def declaration? : Choice → Option Command.Declaration
  | .declaration d => some d
  | _ => none

def pluginDir? : Choice → Option String
  | .pluginDir path => some path
  | _ => none

def options (choices : List Choice) : List (String × Json) := choices.filterMap option?

def declarations (choices : List Choice) : List Command.Declaration :=
  choices.filterMap declaration?

def lastPluginDir? (choices : List Choice) : Option String :=
  (choices.filterMap pluginDir?).getLast?

theorem options_append (choices more : List Choice) :
    options (choices ++ more) = options choices ++ options more :=
  List.filterMap_append

theorem declarations_append (choices more : List Choice) :
    declarations (choices ++ more) = declarations choices ++ declarations more :=
  List.filterMap_append

theorem lastPluginDir?_append (choices more : List Choice) :
    lastPluginDir? (choices ++ more) = (lastPluginDir? more).or (lastPluginDir? choices) := by
  simp only [lastPluginDir?, List.filterMap_append, List.getLast?_append]

end Choice

/-- A draft holds what was chosen: of options and plugin directories the last, of declarations
all. -/
structure Holds (d : Draft) (root : String) (choices : List Choice) : Prop where
  root : d.root = root
  options : ∀ key, d.options.get? key = Options.lastValue? (Choice.options choices) key
  declarations : d.declarations = Choice.declarations choices
  pluginDir : d.pluginDir = Choice.lastPluginDir? choices

section

variable {d : Draft} {root : String} {choices : List Choice}

theorem Holds.choose (h : d.Holds root choices) (choice : Choice) :
    (d.choose choice).Holds root (choices ++ [choice]) where
  root := by cases choice <;> exact h.root
  options key := by
    rw [Choice.options_append, Options.lastValue?_append, ← h.options]
    cases choice with
    | option name value =>
      rw [show Choice.options [.option name value] = [(name, value)] from rfl,
        Options.lastValue?_singleton, Draft.choose, Options.get?_set]
      by_cases hname : name = key
      · simp [hname]
      · simp [hname]
    | _ => rfl
  declarations := by
    rw [Choice.declarations_append, ← h.declarations]
    cases choice with
    | declaration => rfl
    | _ => exact (List.append_nil _).symm
  pluginDir := by
    rw [Choice.lastPluginDir?_append, ← h.pluginDir]
    cases choice <;> rfl

theorem ofChoices_holds (root : String) (choices : List Choice) :
    (ofChoices root choices).Holds root choices := by
  induction choices using List.reverseRecOn with
  | nil => exact ⟨rfl, Options.get?_empty, rfl, rfl⟩
  | append_singleton choices choice ih =>
    have hlast : ofChoices root (choices ++ [choice]) = (ofChoices root choices).choose choice := by
      simp [ofChoices]
    rw [hlast]
    exact ih.choose choice

end

end Draft

/-! ### A file beneath the choices -/

namespace Content

def given? (content : Content) (choices : List Draft.Choice) (key : String) : Option Json :=
  (Options.lastValue? (Draft.Choice.options choices) key).or
    (Options.lastValue? content.options key)

/-- Choices that give what a file says, its options in any order, and after that what other choices
give. -/
structure Merges (content : Content) (choices merged : List Draft.Choice) : Prop where
  options : ∃ members,
    (∀ key, Options.lastValue? members key = Options.lastValue? content.options key) ∧
      Draft.Choice.options merged = members ++ Draft.Choice.options choices
  declarations : Draft.Choice.declarations merged =
    content.declarations ++ Draft.Choice.declarations choices
  pluginDir : Draft.Choice.lastPluginDir? merged =
    (Draft.Choice.lastPluginDir? choices).or content.pluginDir

def choices (content : Content) : List Draft.Choice :=
  content.options.map (fun m => .option m.1 m.2) ++ content.declarations.map .declaration ++
    content.pluginDir.toList.map .pluginDir

theorem merges_append (content : Content) (choices : List Draft.Choice) :
    content.Merges choices (content.choices ++ choices) where
  options := by
    refine ⟨content.options, fun _ => rfl, ?_⟩
    simp [Draft.Choice.options, Content.choices, List.filterMap_map, Function.comp_def,
      Draft.Choice.option?]
  declarations := by
    simp [Draft.Choice.declarations, Content.choices, List.filterMap_map, Function.comp_def,
      Draft.Choice.declaration?]
  pluginDir := by
    rw [Draft.Choice.lastPluginDir?_append]
    congr 1
    cases hdir : content.pluginDir <;>
      simp [Draft.Choice.lastPluginDir?, Content.choices, hdir, List.filterMap_map,
        Function.comp_def, Draft.Choice.pluginDir?]

end Content

namespace Draft

variable {d : Draft} {root : String} {choices merged : List Choice} {content : Content}

structure Unites (d : Draft) (root : String) (content : Content) (choices : List Choice) :
    Prop where
  root : d.root = root
  options : ∀ key, d.options.get? key = content.given? choices key
  declarations : d.declarations = content.declarations ++ Choice.declarations choices
  pluginDir : d.pluginDir = (Choice.lastPluginDir? choices).or content.pluginDir

theorem Holds.onTopOf (h : d.Holds root choices) (content : Content) :
    (d.onTopOf content).Unites root content choices where
  root := h.root
  options key := by
    rw [Draft.onTopOf, Options.get?_setAll, Options.lastValue?_toList, Options.get?_ofList,
      h.options, Content.given?]
  declarations := by rw [Draft.onTopOf, h.declarations]
  pluginDir := by
    rw [Draft.onTopOf, h.pluginDir]
    exact Option.orElse_eq_or

theorem Holds.unites (h : d.Holds root merged) (hmerged : content.Merges choices merged) :
    d.Unites root content choices where
  root := h.root
  options key := by
    obtain ⟨members, hmembers, hoptions⟩ := hmerged.options
    rw [h.options, hoptions, Options.lastValue?_append, hmembers, Content.given?]
  declarations := h.declarations.trans hmerged.declarations
  pluginDir := h.pluginDir.trans hmerged.pluginDir

end Draft

/-! ### The settings that come of it -/

def sourceDirectory (disk : Disk) (root : String) : Option Json → String
  | some (.string dir) => disk.absolute (Disk.join (disk.absolute root) dir)
  | _ => disk.absolute root

theorem sourceDirectory_of_options (disk : Disk) (root : String) (options : Options) :
    sourceDirectory disk root (options.get? "rootDir") =
      match options.rootDir? with
      | some dir => disk.absolute (Disk.join (disk.absolute root) dir)
      | none => disk.absolute root := by
  rw [Options.rootDir?, Options.text?, Options.rootDirKey]
  cases options.get? "rootDir" with
  | none => rfl
  | some value => cases value <;> rfl

/-- Settings from a file and from choices over it. The root directory and the forced flags are what
they must be; of any other option the last value chosen counts, or else the file's. -/
structure Combines (disk : Disk) (root : String) (content : Content) (choices : List Draft.Choice)
    (settings : Settings) : Prop where
  projectRoot : settings.projectRoot = disk.absolute root
  rootDir : settings.rootDir =
    Name.slashed (sourceDirectory disk root (content.given? choices "rootDir"))
  options : ∀ key, settings.options.get? key =
    if key = "rootDir" then some (.string settings.rootDir)
    else if key = "allowJs" ∨ key = "allowArbitraryExtensions" then some (.bool true)
    else content.given? choices key
  declarations : settings.declarations =
    content.declarations ++ Draft.Choice.declarations choices
  pluginDir : settings.pluginDir = Disk.join (disk.absolute root)
    (((Draft.Choice.lastPluginDir? choices).or content.pluginDir).getD ".overlay/plugins")

/-- Settings that agree in everything but the file that was read. -/
structure Alike (s t : Settings) : Prop where
  projectRoot : s.projectRoot = t.projectRoot
  rootDir : s.rootDir = t.rootDir
  options : s.options.toList = t.options.toList
  declarations : s.declarations = t.declarations
  pluginDir : s.pluginDir = t.pluginDir

theorem Combines.alike {disk : Disk} {root : String} {content : Content}
    {choices : List Draft.Choice} {s t : Settings} (hs : s.Combines disk root content choices)
    (ht : t.Combines disk root content choices) : s.Alike t := by
  have hrootDir : s.rootDir = t.rootDir := hs.rootDir.trans ht.rootDir.symm
  refine ⟨hs.projectRoot.trans ht.projectRoot.symm, hrootDir, ?_,
    hs.declarations.trans ht.declarations.symm, hs.pluginDir.trans ht.pluginDir.symm⟩
  apply Options.toList_congr
  intro key
  rw [hs.options, ht.options, hrootDir]

inductive AlikeResults : Except ProjectError Settings → Except ProjectError Settings → Prop
  | settled {s t : Settings} (h : s.Alike t) : AlikeResults (.ok s) (.ok t)
  | missingRoot (path : String) :
    AlikeResults (.error (.missingRoot path)) (.error (.missingRoot path))

theorem AlikeResults.exists_alike {s : Settings} {result : Except ProjectError Settings}
    (h : AlikeResults (.ok s) result) : ∃ t, result = .ok t ∧ s.Alike t := by
  cases h with
  | settled h => exact ⟨_, rfl, h⟩

namespace Draft

variable {disk : Disk} {d d' : Draft} {root : String} {choices merged : List Choice}
  {content : Content} {settings : Settings}

def settled (d : Draft) (file : Option String) (project sources : String) : Settings where
  projectRoot := project
  file := file
  rootDir := Name.slashed sources
  options := (d.options.set Options.rootDirKey (.string (Name.slashed sources))).force
  declarations := d.declarations
  pluginDir := Disk.join project (d.pluginDir.getD defaultPluginDir)

theorem Unites.combines (h : d.Unites root content choices) (disk : Disk) (file : Option String) :
    Combines disk root content choices (d.settled file (disk.absolute root)
      (sourceDirectory disk root (content.given? choices "rootDir"))) where
  projectRoot := rfl
  rootDir := rfl
  options key := by
    rw [settled, Options.get?_force, Options.get?_set, h.options, Options.rootDirKey]
    by_cases hkey : key = "rootDir"
    · simp [hkey]
    · simp [hkey, Ne.symm hkey]
  declarations := h.declarations
  pluginDir := by rw [settled, h.pluginDir, defaultPluginDir]

theorem finish_of_project (hproject : disk.isDirectory (disk.absolute d.root) = true)
    (file : Option String) {sources : String}
    (hsources : sources = sourceDirectory disk d.root (d.options.get? "rootDir")) :
    d.finish disk file =
      if disk.isDirectory sources then .ok (d.settled file (disk.absolute d.root) sources)
      else .error (.missingRoot sources) := by
  have hdirectory : directory disk d.root = .ok (disk.absolute d.root) := if_pos hproject
  rw [sourceDirectory_of_options] at hsources
  cases hdir : d.options.rootDir? with
  | none =>
    -- The sources are in the project's own root then, which has just been found.
    obtain rfl : sources = disk.absolute d.root := by rw [hsources, hdir]
    rw [if_pos hproject, Draft.finish, hdirectory, hdir]
    rfl
  | some dir =>
    have hjoined : directory disk (Disk.join (disk.absolute d.root) dir) =
        if disk.isDirectory sources then .ok sources else .error (.missingRoot sources) := by
      rw [hsources, hdir]
      rfl
    simp only [Draft.finish, hdirectory, hdir, hjoined, bind, Except.bind]
    by_cases hfound : disk.isDirectory sources = true
    · rw [if_pos hfound, if_pos hfound]
      rfl
    · rw [if_neg hfound, if_neg hfound]

theorem Unites.finish (h : d.Unites root content choices) (disk : Disk) (file : Option String)
    {sources : String}
    (hsources : sources = sourceDirectory disk root (content.given? choices "rootDir")) :
    d.finish disk file =
      if disk.isDirectory (disk.absolute root) then
        if disk.isDirectory sources then .ok (d.settled file (disk.absolute root) sources)
        else .error (.missingRoot sources)
      else .error (.missingRoot (disk.absolute root)) := by
  have hroot := h.root
  subst hroot
  by_cases hproject : disk.isDirectory (disk.absolute d.root) = true
  · rw [if_pos hproject]
    apply finish_of_project hproject file
    rw [hsources, h.options]
  · have hdirectory : directory disk d.root = .error (.missingRoot (disk.absolute d.root)) :=
      if_neg hproject
    rw [if_neg hproject, Draft.finish, hdirectory]
    rfl

theorem Unites.finish_eq_ok_iff (h : d.Unites root content choices) (file : Option String) :
    d.finish disk file = .ok settings ↔
      (disk.isDirectory (disk.absolute root) = true ∧ disk.isDirectory
        (sourceDirectory disk root (content.given? choices "rootDir")) = true) ∧
      settings = d.settled file (disk.absolute root)
        (sourceDirectory disk root (content.given? choices "rootDir")) := by
  rw [h.finish disk file rfl]
  by_cases hproject : disk.isDirectory (disk.absolute root) = true
  · by_cases hsources :
        disk.isDirectory (sourceDirectory disk root (content.given? choices "rootDir")) = true
    · simp [hproject, hsources, @eq_comm _ settings]
    · simp [hproject, hsources]
  · simp [hproject]

theorem Unites.finish_alike (h : d.Unites root content choices)
    (h' : d'.Unites root content choices) (disk : Disk) (file file' : Option String) :
    AlikeResults (d.finish disk file) (d'.finish disk file') := by
  rw [h.finish disk file rfl, h'.finish disk file' rfl]
  split
  · split
    · exact .settled ((h.combines disk file).alike (h'.combines disk file'))
    · exact .missingRoot _
  · exact .missingRoot _

def Reads (disk : Disk) (d : Draft) (content : Content) : Prop :=
  ∃ text, disk.readText (Disk.join d.root d.file) = .ok text ∧ Content.read text = .ok content

theorem load_of_reads (h : d.Reads disk content) :
    d.load disk = (d.onTopOf content).finish disk (some (Disk.join d.root d.file)) := by
  obtain ⟨text, htext, hcontent⟩ := h
  simp [load, Disk.isFile_of_readText htext, htext, hcontent]

/-- A draft over a file that can be read comes to the same as the file's choices and then its own
without a file, but for the file that is noted: to settings that combine the two if both root
directories are there, and otherwise to the same missing root. -/
theorem load_merged (hfile : (ofChoices root choices).Reads disk content)
    (hmerged : content.Merges choices merged) :
    AlikeResults ((ofChoices root choices).load disk) ((ofChoices root merged).build disk) ∧
      ((∃ settings, (ofChoices root choices).load disk = .ok settings) ↔
        disk.isDirectory (disk.absolute root) = true ∧ disk.isDirectory
          (sourceDirectory disk root (content.given? choices "rootDir")) = true) ∧
      ∀ settings, (ofChoices root choices).load disk = .ok settings →
        settings.Combines disk root content choices ∧
          settings.file = some (Disk.join root (ofChoices root choices).file) := by
  have hholds := ofChoices_holds root choices
  have hunites := hholds.onTopOf content
  rw [load_of_reads hfile, hholds.root]
  refine ⟨?_, ?_, ?_⟩
  · exact hunites.finish_alike ((ofChoices_holds root merged).unites hmerged) disk _ none
  · simp only [hunites.finish_eq_ok_iff, exists_and_left, exists_eq, and_true]
  · intro settings hsettings
    obtain ⟨-, rfl⟩ := (hunites.finish_eq_ok_iff _).mp hsettings
    exact ⟨hunites.combines disk _, rfl⟩

/-- A file that gives one option twice, and others with types that the choices change. -/
def mixedText : String :=
  "\x7b\"compilerOptions\":\x7b\"strict\":1,\"rootDir\":\"src\",\"allowJs\":false,\"target\":0," ++
    "\"strict\":true\x7d,\"plugins\":[\"more\"]\x7d"

def mixedDisk : Disk where
  nodes := .ofList
    ([("/p", .directory), ("/p/src", .directory),
      ("/p/tsconfig.json", .file (Text.encode mixedText))] : List (String × Disk.Node))

def mixedChoices : List Choice :=
  [.option "target" (.string "es3"), .option "allowArbitraryExtensions" (.string "no"),
    .declaration ⟨"w", "b", "cat", [], .text⟩, .option "rootDir" (.bool false),
    .option "target" (.string "es2022")]

theorem load_merged_mixed : ∃ content settings settings',
    (ofChoices "/p" mixedChoices).Reads mixedDisk content ∧
      content.Merges mixedChoices (content.choices ++ mixedChoices) ∧
      (ofChoices "/p" mixedChoices).load mixedDisk = .ok settings ∧
      (ofChoices "/p" (content.choices ++ mixedChoices)).build mixedDisk = .ok settings' ∧
      settings.Alike settings' ∧ settings.rootDir = "/p" ∧ settings.pluginDir = "/p/more" ∧
      settings.options.text? "rootDir" = some "/p" ∧
      settings.options.bool? "allowJs" = some true ∧
      settings.options.bool? "allowArbitraryExtensions" = some true ∧
      settings.options.text? "target" = some "es2022" ∧
      settings.options.bool? "strict" = some true ∧ settings.options.get? "lib" = none := by
  obtain ⟨text, htext, hread⟩ : ∃ text,
      mixedDisk.readText (Disk.join (ofChoices "/p" mixedChoices).root
          (ofChoices "/p" mixedChoices).file) = .ok text ∧
        (Content.read text).toOption.map (fun content =>
          ((Options.lastValue? content.options "strict").bind Json.bool?,
            (Options.lastValue? content.options "lib").isNone, content.pluginDir)) =
          some (some true, true, some "more") :=
    Project.Plan.exists_of_toOption_map (by decide +kernel)
  obtain ⟨content, hcontent, hsaid⟩ := Project.Plan.exists_of_toOption_map hread
  obtain ⟨hstrict, hlib, hdir⟩ : _ ∧ _ ∧ _ := by simpa only [Prod.mk.injEq] using hsaid
  have hfile : (ofChoices "/p" mixedChoices).Reads mixedDisk content := ⟨text, htext, hcontent⟩
  have hmerged := content.merges_append mixedChoices
  obtain ⟨halike, hok, hload⟩ := load_merged hfile hmerged
  -- The root directory chosen is no text, so the one in the file does not count either.
  have hvalue : content.given? mixedChoices "rootDir" = some (.bool false) := rfl
  rw [hvalue] at hok
  obtain ⟨settings, hsettings⟩ := hok.mpr (by decide +kernel)
  rw [hsettings] at halike
  obtain ⟨settings', hbuild, halike⟩ := halike.exists_alike
  obtain ⟨hcombines, -⟩ := hload settings hsettings
  have hrootDir : settings.rootDir = "/p" := by
    rw [hcombines.rootDir, hvalue]
    decide +kernel
  refine ⟨content, settings, settings', hfile, hmerged, hsettings, hbuild, halike, hrootDir,
    ?_, ?_, ?_, ?_, ?_, ?_, ?_⟩
  · rw [hcombines.pluginDir, hdir]
    decide +kernel
  · rw [Options.text?, hcombines.options, hrootDir]
    rfl
  · rw [Options.bool?, hcombines.options]
    rfl
  · rw [Options.bool?, hcombines.options]
    rfl
  · rw [Options.text?, hcombines.options]
    rfl
  · rw [Options.bool?, hcombines.options]
    exact hstrict
  · rw [hcombines.options]
    exact Option.isNone_iff_eq_none.mp hlib

end Draft

end Settings

end SourceOverlay
