import Mathlib.Algebra.GroupWithZero.Nat
import Mathlib.Data.List.Induction
import Mathlib.Data.List.Nodup
import SourceOverlay.Project
import SourceOverlay.Proofs.Names

/-!
# The manifests of a directory

Transpilers are added to a registry one after the other, and the last one for an extension is found.
A manifest adds all of its transpilers or none, and a plugin that fails is noted and nothing more.
The names in a directory may be listed in any order: the manifests among them are sorted by name
before they are loaded, so what they come to does not depend on that order.
-/

set_option autoImplicit false

namespace SourceOverlay

/-! ### The last transpiler for an extension -/

namespace Registry

theorem entries_add (r : Registry) (t : Transpiler) (key : String) :
    (r.add t).entries[key]? = if t.extension = key then some t else r.entries[key]? := by
  simp [add, Std.TreeMap.getElem?_insert]

theorem find?_add (r : Registry) (t : Transpiler) {ext : String} (h : Name.isBare ext = false) :
    (r.add t).find? ext = if t.extension = Name.dotted ext then some t else r.find? ext := by
  simp [find?, h, entries_add]

theorem addAll_append (r : Registry) (ts us : List Transpiler) :
    r.addAll (ts ++ us) = (r.addAll ts).addAll us := by
  simp [addAll]

theorem entries_addAll (r : Registry) (ts : List Transpiler) (key : String) :
    (r.addAll ts).entries[key]? =
      ((r.entries[key]?).toList ++ ts.filter (·.extension == key)).getLast? := by
  induction ts using List.reverseRecOn with
  | nil => cases hr : r.entries[key]? <;> simp [addAll, hr]
  | append_singleton ts t ih =>
    rw [addAll_append]
    change ((r.addAll ts).add t).entries[key]? = _
    rw [entries_add, ih, List.filter_append]
    by_cases ht : t.extension = key
    · simp [ht]
    · simp [ht]

theorem find?_addAll (r : Registry) (ts : List Transpiler) {ext : String}
    (h : Name.isBare ext = false) :
    (r.addAll ts).find? ext =
      ((r.find? ext).toList ++ ts.filter (·.extension == Name.dotted ext)).getLast? := by
  simp [find?, h, entries_addAll]

end Registry

/-! ### Declared transpilers -/

namespace Command.Declaration

def isUsable (d : Declaration) : Bool := d.voidField?.isNone

def made (disk : Disk) (d : Declaration) : Transpiler :=
  .make d.extension d.target (compiler disk d.program d.args d.form)

theorem transpiler_of_usable {d : Declaration} (h : d.isUsable = true) (disk : Disk) :
    d.transpiler disk = .ok (d.made disk) := by
  simp only [isUsable, Option.isNone_iff_eq_none] at h
  simp [transpiler, h, made]

theorem transpiler_of_unusable {d : Declaration} (h : d.isUsable = false) (disk : Disk) :
    ∃ error, d.transpiler disk = .error error := by
  cases hd : d.voidField? with
  | none => simp [isUsable, hd] at h
  | some field => simp [transpiler, hd]

/-- A list of declarations gives all of its transpilers, or none if one is unusable. -/
theorem mapM_transpiler (disk : Disk) (ds : List Declaration) :
    (ds.mapM (transpiler disk)).toOption =
      if ds.all isUsable then some (ds.map (made disk)) else none := by
  induction ds with
  | nil => rfl
  | cons d ds ih =>
    rw [List.mapM_cons]
    cases hd : d.isUsable with
    | true =>
      rw [transpiler_of_usable hd]
      cases hds : ds.mapM (transpiler disk) with
      | ok ts =>
        rw [hds] at ih
        simp only [Except.toOption] at ih
        by_cases hall : ds.all isUsable = true
        · rw [if_pos hall, Option.some.injEq] at ih
          rw [List.all_cons, hd, hall, ih]
          rfl
        · simp [hall] at ih
      | error e =>
        rw [hds] at ih
        by_cases hall : ds.all isUsable = true
        · simp [hall, Except.toOption] at ih
        · rw [List.all_cons, hd, Bool.eq_false_iff.mpr hall]
          rfl
    | false =>
      obtain ⟨e, he⟩ := transpiler_of_unusable hd disk
      rw [he, List.all_cons, hd]
      rfl

end Command.Declaration

/-! ### Plugins -/

namespace Plugin

def transpilers (p : Plugin) : List Transpiler := p.content.toOption.getD []

def isSound (p : Plugin) : Bool := p.content.toOption.isSome

def failure? (p : Plugin) : Option (String × PluginError) :=
  match p.content with
  | .ok _ => none
  | .error error => some (p.name, error)

theorem load_eq (s : Report × Registry) (p : Plugin) :
    load s p =
      (⟨s.1.loaded ++ ([p].filter isSound).map (·.name), s.1.registered + p.transpilers.length,
          s.1.failures ++ p.failure?.toList⟩,
        s.2.addAll p.transpilers) := by
  cases h : p.content <;>
    simp [load, h, isSound, transpilers, failure?, Except.toOption, Registry.addAll]

/-- Loading plugins one after the other: each one adds to the report and to the registry on its
own. -/
theorem foldl_load (plugins : List Plugin) (s : Report × Registry) :
    plugins.foldl load s =
      (⟨s.1.loaded ++ (plugins.filter isSound).map (·.name),
          s.1.registered + (plugins.map (·.transpilers.length)).sum,
          s.1.failures ++ plugins.filterMap failure?⟩,
        s.2.addAll (plugins.flatMap transpilers)) := by
  induction plugins generalizing s with
  | nil => simp [Registry.addAll]
  | cons p plugins ih =>
    rw [List.foldl_cons, ih, load_eq, List.flatMap_cons, Registry.addAll_append]
    cases hp : p.failure? <;> cases hs : p.isSound <;> simp [hp, hs, Nat.add_assoc]

theorem loadAll_eq (plugins : List Plugin) (registry : Registry) :
    loadAll plugins registry =
      (⟨(plugins.filter isSound).map (·.name), (plugins.map (·.transpilers.length)).sum,
          plugins.filterMap failure?⟩,
        registry.addAll (plugins.flatMap transpilers)) := by
  simp [loadAll, foldl_load]

theorem failure?_of_sound {p : Plugin} (h : p.isSound = true) : p.failure? = none := by
  cases hp : p.content with
  | ok ts => simp [failure?, hp]
  | error e => simp [isSound, hp, Except.toOption] at h

theorem transpilers_of_unsound {p : Plugin} (h : p.isSound = false) : p.transpilers = [] := by
  simp only [isSound, Option.isSome_eq_false_iff, Option.isNone_iff_eq_none] at h
  simp [transpilers, h]

theorem failure?_of_unsound {p : Plugin} (h : p.isSound = false) :
    ∃ error, p.failure? = some (p.name, error) := by
  cases hp : p.content with
  | ok ts => simp [isSound, hp, Except.toOption] at h
  | error e => exact ⟨e, by simp [failure?, hp]⟩

theorem failures_names (plugins : List Plugin) :
    (plugins.filterMap failure?).map (·.1) =
      (plugins.filter fun p => !p.isSound).map (·.name) := by
  induction plugins with
  | nil => rfl
  | cons p plugins ih =>
    cases hp : p.isSound with
    | true => simp [hp, failure?_of_sound hp, ih]
    | false =>
      obtain ⟨e, he⟩ := failure?_of_unsound hp
      simp [hp, he, ih]

end Plugin

/-! ### Manifests -/

namespace Plugin

/-- The declarations of a manifest that can be read, is well-formed and has no unusable one. -/
def declared? (disk : Disk) (path : String) : Option (List Command.Declaration) :=
  match disk.readText path with
  | .error _ => none
  | .ok text =>
    match readManifest text with
    | .error _ => none
    | .ok ds => if ds.all (·.isUsable) then some ds else none

theorem loadManifest_toOption (disk : Disk) (path : String) :
    (loadManifest disk path).toOption = (declared? disk path).map (·.map (·.made disk)) := by
  unfold loadManifest declared?
  cases disk.readText path with
  | error e => rfl
  | ok text =>
    simp only
    cases readManifest text with
    | error e => rfl
    | ok ds =>
      simp only [Command.Declaration.mapM_transpiler]
      by_cases h : ds.all (·.isUsable) = true
      · simp [h]
      · simp [h]

def atFile (disk : Disk) (directory file : String) : Plugin :=
  ofManifest disk (Disk.join directory file)

theorem isSound_atFile (disk : Disk) (directory file : String) :
    (atFile disk directory file).isSound = (declared? disk (Disk.join directory file)).isSome := by
  simp [isSound, atFile, ofManifest, loadManifest_toOption]

def contribution (disk : Disk) (directory file : String) : List Transpiler :=
  ((declared? disk (Disk.join directory file)).getD []).map (·.made disk)

theorem transpilers_atFile (disk : Disk) (directory file : String) :
    (atFile disk directory file).transpilers = contribution disk directory file := by
  simp only [transpilers, atFile, ofManifest, loadManifest_toOption, contribution]
  cases declared? disk (Disk.join directory file) <;> rfl

/-! ### Names of files -/

theorem parts_join (directory : String) {file : String} (h : '/' ∉ file.toList) :
    ∃ front, Disk.parts (Disk.join directory file) = front ++ [file] := by
  have hfile : (file.toList.splitOnP (· == '/')) = [file.toList] := by
    apply List.splitOnP_eq_singleton
    intro c hc
    simp only [beq_eq_false_iff_ne]
    rintro rfl
    exact h hc
  have hsplit : ∀ base : List Char, ((base ++ '/' :: file.toList).splitOnP (· == '/')) =
      base.splitOnP (· == '/') ++ [file.toList] := by
    intro base
    rw [List.splitOnP_append_cons base file.toList (by rfl), hfile]
  have hroot : Disk.isRooted file = false := by
    cases hcs : file.toList with
    | nil => simp [Disk.isRooted, hcs]
    | cons c cs =>
      rw [hcs] at h
      simp only [List.mem_cons, not_or] at h
      simp [Disk.isRooted, hcs, Ne.symm h.1]
  unfold Disk.join
  rw [hroot]
  simp only [Bool.false_eq_true, if_false]
  cases hlast : directory.toList.getLast? with
  | none => exact ⟨[], by simp [Disk.parts, hfile]⟩
  | some last =>
    simp only
    obtain ⟨base, hbase⟩ := List.getLast?_eq_some_iff.mp hlast
    by_cases hslash : last = '/'
    · subst hslash
      simp only [beq_self_eq_true, if_true]
      refine ⟨(base.splitOnP (· == '/')).map String.ofList, ?_⟩
      rw [Disk.parts, String.toList_append, hbase, List.append_assoc, List.singleton_append, hsplit]
      simp
    · rw [if_neg (by simpa using hslash)]
      refine ⟨(directory.toList.splitOnP (· == '/')).map String.ofList, ?_⟩
      have htext : (directory ++ "/" ++ file).toList = directory.toList ++ '/' :: file.toList := by
        simp
      rw [Disk.parts, htext, hsplit]
      simp

theorem length_lt_of_isManifestName {file : String} (h : isManifestName file = true) :
    manifestEnding.length < file.length := by
  simp only [isManifestName, Bool.and_eq_true, decide_eq_true_eq] at h
  exact h.2

theorem fileName?_join (directory : String) {file : String} (h : '/' ∉ file.toList)
    (hname : isManifestName file = true) :
    Disk.fileName? (Disk.join directory file) = some file := by
  have hlen := length_lt_of_isManifestName hname
  have hne : ∀ other : String, other.length ≤ manifestEnding.length → file ≠ other := by
    intro other hother heq
    rw [heq] at hlen
    omega
  have hempty := hne "" (by decide)
  have hdot := hne "." (by decide)
  have hdots := hne ".." (by decide)
  obtain ⟨front, hparts⟩ := parts_join directory h
  simp [Disk.fileName?, Disk.components, hparts, hempty, hdot, hdots]

theorem name_atFile (disk : Disk) (directory : String) {file : String} (h : '/' ∉ file.toList)
    (hname : isManifestName file = true) :
    (atFile disk directory file).name = nameOfFile file := by
  simp [atFile, ofManifest, fileName?_join directory h hname]

/-- Plugins are told apart by their names. -/
theorem nameOfFile_injective {file file' : String} (h : isManifestName file = true)
    (h' : isManifestName file' = true) (heq : nameOfFile file = nameOfFile file') :
    file = file' := by
  have hcut : ∀ {file : String}, isManifestName file = true →
      (nameOfFile file).toList ++ manifestEnding.toList = file.toList := by
    intro file h
    simp only [isManifestName, Bool.and_eq_true] at h
    obtain ⟨front, hfront⟩ := List.isSuffixOf_iff_suffix.mp h.1
    have hlen : front.length = file.length - manifestEnding.length := by
      rw [← String.length_toList, ← hfront, List.length_append, String.length_toList]
      omega
    rw [nameOfFile, if_pos h.1, String.toList_ofList, ← hfront, ← hlen, List.take_left]
  apply String.toList_inj.mp
  rw [← hcut h, ← hcut h', heq]

end Plugin

/-! ### Directories -/

namespace Disk

/-- What the system may answer when a directory is enumerated: its names in any order, or why it
refuses. -/
inductive Enumerates (disk : Disk) (directory : String) : Listing → Prop
  | listed {names listed : List String} (h : disk.entries directory = .ok names)
      (hperm : listed.Perm names) : Enumerates disk directory (.ok listed)
  | refused {refusal : Refusal} (h : disk.entries directory = .error refusal) :
      Enumerates disk directory (.error refusal)

theorem entries_eq {disk : Disk} {directory : String} {names : List String}
    (h : disk.entries directory = .ok names) :
    ∃ start : List Char, names = disk.nodes.keys.filterMap fun key =>
      let name := key.toList.drop start.length
      if start.isPrefixOf key.toList && !name.contains '/' && !name.isEmpty then
        some (String.ofList name)
      else none := by
  unfold entries at h
  cases hfind : disk.find directory with
  | error e =>
    rw [hfind] at h
    cases h
  | ok found =>
    obtain ⟨names, node⟩ := found
    rw [hfind] at h
    cases node with
    | directory => exact ⟨_, (Except.ok.inj h).symm⟩
    | file bytes => cases h
    | link target => cases h

theorem nodup_entries {disk : Disk} {directory : String} {names : List String}
    (h : disk.entries directory = .ok names) : names.Nodup := by
  obtain ⟨start, rfl⟩ := entries_eq h
  apply List.Nodup.filterMap _ Std.TreeMap.nodup_keys
  intro key key' name hname hname'
  simp only [Option.mem_def, Option.ite_none_right_eq_some, Bool.and_eq_true,
    Option.some.injEq] at hname hname'
  obtain ⟨⟨⟨hstart, -⟩, -⟩, hdrop⟩ := hname
  obtain ⟨⟨⟨hstart', -⟩, -⟩, hdrop'⟩ := hname'
  have hrest : key.toList.drop start.length = key'.toList.drop start.length :=
    String.ofList_injective (hdrop.trans hdrop'.symm)
  apply String.toList_inj.mp
  rw [← List.prefix_iff_eq_append.mp (List.isPrefixOf_iff_prefix.mp hstart),
    ← List.prefix_iff_eq_append.mp (List.isPrefixOf_iff_prefix.mp hstart'), hrest]

theorem slash_notMem_entries {disk : Disk} {directory name : String} {names : List String}
    (h : disk.entries directory = .ok names) (hname : name ∈ names) : '/' ∉ name.toList := by
  obtain ⟨start, rfl⟩ := entries_eq h
  obtain ⟨key, -, hkey⟩ := List.mem_filterMap.mp hname
  simp only [Option.ite_none_right_eq_some, Bool.and_eq_true, Bool.not_eq_true',
    Option.some.injEq] at hkey
  obtain ⟨⟨⟨-, hslash⟩, -⟩, rfl⟩ := hkey
  simpa using hslash

variable {disk : Disk} {directory : String} {listing : Listing}

theorem Enumerates.perm (h : disk.Enumerates directory listing) :
    listing.names.Perm (disk.entries directory).names := by
  cases h with
  | listed h hperm =>
    rw [h]
    exact hperm
  | refused h =>
    rw [h]

theorem Enumerates.nodup (h : disk.Enumerates directory listing) : listing.names.Nodup := by
  cases h with
  | listed h hperm => exact hperm.nodup_iff.mpr (nodup_entries h)
  | refused => exact List.nodup_nil

theorem Enumerates.slash_notMem (h : disk.Enumerates directory listing) :
    ∀ name ∈ listing.names, '/' ∉ name.toList := by
  intro name hname
  cases h with
  | listed h hperm => exact slash_notMem_entries h (hperm.mem_iff.mp hname)
  | refused => cases hname

end Disk

namespace Plugin

/-- The manifests among the names of a directory, by file name. -/
structure Manifests (disk : Disk) (directory : String) (names files : List String) : Prop where
  ascending : files.Pairwise (· < ·)
  perm : files.Perm (names.filter (isManifest disk directory))

variable {disk : Disk} {directory : String} {names files : List String} {listing : Disk.Listing}

theorem pairwise_mergeSort_le (names : List String) :
    (names.mergeSort (· ≤ ·)).Pairwise (· ≤ ·) := by
  have htrans : ∀ a b c : String, decide (a ≤ b) = true → decide (b ≤ c) = true →
      decide (a ≤ c) = true := by
    intro a b c hab hbc
    exact decide_eq_true (String.le_trans (of_decide_eq_true hab) (of_decide_eq_true hbc))
  have htotal : ∀ a b : String, (decide (a ≤ b) || decide (b ≤ a)) = true := by
    intro a b
    simpa using String.le_total a b
  apply (List.pairwise_mergeSort htrans htotal names).imp
  intro a b hab
  exact of_decide_eq_true hab

theorem exists_manifests (disk : Disk) (directory : String) (h : names.Nodup) :
    ∃ files, Manifests disk directory names files := by
  have hperm := List.mergeSort_perm (names.filter (isManifest disk directory)) (· ≤ ·)
  refine ⟨_, ?_, hperm⟩
  apply (pairwise_mergeSort_le _).imp₂ _ (hperm.nodup_iff.mpr (h.filter _))
  intro a b hle hne
  apply String.not_le.mp
  intro hge
  exact hne (String.le_antisymm hle hge)

theorem Manifests.perm_names {names' : List String} (h : Manifests disk directory names files)
    (hnames : names'.Perm names) : Manifests disk directory names' files :=
  ⟨h.ascending, h.perm.trans (hnames.symm.filter _)⟩

/-- In whatever order the names are listed, sorting brings the manifests into the one they have. -/
theorem Manifests.mergeSort_eq (h : Manifests disk directory names files) :
    (names.filter (isManifest disk directory)).mergeSort (· ≤ ·) = files := by
  have hordered : files.Pairwise (· ≤ ·) :=
    h.ascending.imp fun hlt => String.not_lt.mp (String.lt_asymm hlt)
  have hperm : ((names.filter (isManifest disk directory)).mergeSort (· ≤ ·)).Perm files :=
    (List.mergeSort_perm _ _).trans h.perm.symm
  apply hperm.eq_of_pairwise _ (pairwise_mergeSort_le _) hordered
  intro a b _ _ hab hba
  exact String.le_antisymm hab hba

theorem Manifests.discover (h : Manifests disk directory listing.names files) :
    discover disk listing directory = files.map (Disk.join directory) := by
  cases listing with
  | ok names => exact congrArg (List.map (Disk.join directory)) h.mergeSort_eq
  | error refusal =>
    obtain rfl : files = [] := h.perm.eq_nil
    rfl

theorem Manifests.loadDirectory (h : Manifests disk directory listing.names files)
    (registry : Registry) :
    loadDirectory disk listing directory registry =
      loadAll (files.map (atFile disk directory)) registry := by
  rw [Plugin.loadDirectory, h.discover, List.map_map]
  rfl

theorem Manifests.erase (h : Manifests disk directory names files) (file : String) :
    Manifests disk directory (names.erase file) (files.erase file) := by
  constructor
  · exact h.ascending.sublist List.erase_sublist
  · rw [← List.erase_filter]
    exact h.perm.erase file

theorem Manifests.mem (h : Manifests disk directory names files) {file : String}
    (hfile : file ∈ files) : file ∈ names ∧ isManifestName file = true := by
  have hmem := List.mem_filter.mp (h.perm.mem_iff.mp hfile)
  rw [isManifest, Bool.and_eq_true] at hmem
  exact ⟨hmem.1, hmem.2.1⟩

theorem Manifests.map_name (h : Manifests disk directory names files)
    (hslash : ∀ name ∈ names, '/' ∉ name.toList) {kept : List String}
    (hkept : ∀ file ∈ kept, file ∈ files) :
    kept.map (fun file => (atFile disk directory file).name) = kept.map nameOfFile := by
  apply List.map_congr_left
  intro file hfile
  have hmem := h.mem (hkept file hfile)
  exact name_atFile disk directory (hslash file hmem.1) hmem.2

/-- What the report on a directory says: which of its manifests were loaded and which failed, each
by the name of its file, and how many transpilers came from those that were loaded. -/
structure Report.Covers (disk : Disk) (directory : String) (files : List String)
    (report : Report) : Prop where
  loaded : report.loaded =
    (files.filter fun file => (declared? disk (Disk.join directory file)).isSome).map nameOfFile
  failed : report.failures.map (·.1) =
    (files.filter fun file => (declared? disk (Disk.join directory file)).isNone).map nameOfFile
  once : (report.loaded ++ report.failures.map (·.1)).Perm (files.map nameOfFile)
  distinct : (files.map nameOfFile).Nodup
  registered : report.registered =
    ((files.filterMap fun file => declared? disk (Disk.join directory file)).map List.length).sum

theorem sum_contribution (disk : Disk) (directory : String) (files : List String) :
    (files.map fun file => (contribution disk directory file).length).sum =
      ((files.filterMap fun file => declared? disk (Disk.join directory file)).map
        List.length).sum := by
  induction files with
  | nil => rfl
  | cons file files ih =>
    rw [List.map_cons, List.sum_cons, ih]
    cases h : declared? disk (Disk.join directory file) <;> simp [contribution, h]

theorem Manifests.covers (h : Manifests disk directory names files)
    (hslash : ∀ name ∈ names, '/' ∉ name.toList) (registry : Registry) :
    (loadAll (files.map (atFile disk directory)) registry).1.Covers disk directory files := by
  have hloaded : (loadAll (files.map (atFile disk directory)) registry).1.loaded =
      (files.filter fun file => (declared? disk (Disk.join directory file)).isSome).map
        nameOfFile := by
    rw [loadAll_eq, List.filter_map, List.map_map]
    rw [← h.map_name hslash fun f hf => (List.mem_filter.mp hf).1]
    simp only [Function.comp_def, isSound_atFile]
  have hfailed : (loadAll (files.map (atFile disk directory)) registry).1.failures.map (·.1) =
      (files.filter fun file => (declared? disk (Disk.join directory file)).isNone).map
        nameOfFile := by
    rw [loadAll_eq, failures_names, List.filter_map, List.map_map]
    rw [← h.map_name hslash fun f hf => (List.mem_filter.mp hf).1]
    simp only [Function.comp_def, isSound_atFile, Option.not_isSome]
  constructor
  · exact hloaded
  · exact hfailed
  · rw [hloaded, hfailed, ← List.map_append]
    apply List.Perm.map
    have hperm := List.filter_append_perm
      (fun file => (declared? disk (Disk.join directory file)).isSome) files
    simpa only [Option.not_isSome] using hperm
  · apply List.Nodup.map_on
    · intro file hfile file' hfile' heq
      exact nameOfFile_injective (h.mem hfile).2 (h.mem hfile').2 heq
    · exact h.ascending.imp fun hlt => String.ne_of_lt hlt
  · rw [loadAll_eq]
    simp only [List.map_map, Function.comp_def, transpilers_atFile]
    exact sum_contribution disk directory files

/-- A plugin that fails leaves no trace in the report but the note on its failure. -/
theorem loadAll_erase {file : String} (hfile : file ∈ files)
    (hfails : declared? disk (Disk.join directory file) = none) (registry : Registry) :
    let all := loadAll (files.map (atFile disk directory)) registry
    let rest := loadAll ((files.erase file).map (atFile disk directory)) registry
    rest.1.loaded = all.1.loaded ∧ rest.1.registered = all.1.registered := by
  have hsound : (atFile disk directory file).isSound = false := by
    rw [isSound_atFile, hfails]
    rfl
  have hnone := transpilers_of_unsound hsound
  obtain ⟨before, after, -, rfl, herase⟩ := List.exists_erase_eq hfile
  simp only [loadAll_eq, herase, List.map_append, List.map_cons, List.flatMap_append,
    List.flatMap_cons, List.filter_append, List.filter_cons, hsound, hnone]
  simp

end Plugin

end SourceOverlay
