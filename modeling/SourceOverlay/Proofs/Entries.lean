import SourceOverlay.Proofs.Builds
import SourceOverlay.Proofs.Imports

/-!
# What a registry was given

Transpilers are added one by one, under extensions that are spelled with or without their dots. What
a registry answers depends on nothing but the last transpiler for each extension: not on the order
in which extensions came up, nor on what was replaced. It lists its transpilers in the order of
their extensions, so an import without an extension of its own is led to the least extension under
which there is a file.
-/

set_option autoImplicit false

namespace SourceOverlay

namespace Name

theorem dotted_dotted (ext : String) : dotted (dotted ext) = dotted ext := by
  have hhead := List.head?_dropWhile_not isDot ext.toList
  simp only [dotted, Chars.dotted, Chars.undotted, String.toList_ofList]
  cases hcs : ext.toList.dropWhile isDot with
  | nil => simp [isDot]
  | cons c cs =>
    have hc : isDot c = false := by simpa [hcs] using hhead
    simp [hc, show isDot '.' = true from rfl]

end Name

namespace Registry

/-! ### Lists in order -/

section Lists

variable {r : Registry} {t : Transpiler} {ext : String}

theorem extensions_ascending (r : Registry) : r.extensions.Pairwise (· < ·) := by
  refine List.Pairwise.imp ?_ Std.TreeMap.ordered_keys
  intro a b h
  exact compareOfLessAndEq_eq_lt.mp h

theorem mem_extensions : ext ∈ r.extensions ↔ r.entries[ext]? ≠ none := by
  rw [extensions, Std.TreeMap.mem_keys, ← Std.TreeMap.isSome_getElem?_iff_mem]
  exact Option.isSome_iff_ne_none

theorem Keyed.map_extension_toList (hr : r.Keyed) : r.toList.map (·.extension) = r.extensions := by
  rw [toList, TreeMap.values_eq_map_snd, extensions, ← Std.TreeMap.map_fst_toList_eq_keys,
    List.map_map]
  apply List.map_congr_left
  rintro ⟨ext, t⟩ hmem
  exact hr ext t (Std.TreeMap.mem_toList_iff_getElem?_eq_some.mp hmem)

theorem Keyed.mem_toList (hr : r.Keyed) : t ∈ r.toList ↔ r.entries[t.extension]? = some t := by
  rw [toList, TreeMap.values_eq_map_snd, List.mem_map]
  constructor
  · rintro ⟨⟨ext, u⟩, hmem, rfl⟩
    have hentry := Std.TreeMap.mem_toList_iff_getElem?_eq_some.mp hmem
    rwa [hr ext u hentry]
  · intro h
    exact ⟨_, Std.TreeMap.mem_toList_iff_getElem?_eq_some.mpr h, rfl⟩

theorem Keyed.toList_ascending (hr : r.Keyed) :
    r.toList.Pairwise fun t u => t.extension < u.extension := by
  rw [← List.pairwise_map (f := Transpiler.extension), hr.map_extension_toList]
  exact r.extensions_ascending

/-- Trying the transpilers in turn finds the least extension that will do. -/
theorem Keyed.findSome?_eq_some_iff (hr : r.Keyed) {α : Type} {f : Transpiler → Option α} {a : α} :
    r.toList.findSome? f = some a ↔
      ∃ t ∈ r.toList, f t = some a ∧ ∀ u ∈ r.toList, f u ≠ none → t.extension ≤ u.extension := by
  have hleast : ∀ a, r.toList.findSome? f = some a →
      ∃ t ∈ r.toList, f t = some a ∧ ∀ u ∈ r.toList, f u ≠ none → t.extension ≤ u.extension := by
    intro a h
    obtain ⟨before, t, after, hcut, ht, hbefore⟩ := List.findSome?_eq_some_iff.mp h
    refine ⟨t, by simp [hcut], ht, ?_⟩
    intro u hu hfound
    have hascending := hr.toList_ascending
    rw [hcut] at hu hascending
    rcases List.mem_append.mp hu with hu | hu
    · exact absurd (hbefore u hu) hfound
    · rcases List.mem_cons.mp hu with rfl | hu
      · exact String.le_refl _
      · exact Std.le_of_lt (List.rel_of_pairwise_cons (List.pairwise_append.mp hascending).2.1 hu)
  -- The extension that is found is the least as well, and under it there is one transpiler only.
  refine ⟨hleast a, ?_⟩
  rintro ⟨t, ht, hfound, hle⟩
  cases h : r.toList.findSome? f with
  | none => simp [List.findSome?_eq_none_iff.mp h t ht] at hfound
  | some b =>
    obtain ⟨u, hu, hufound, hule⟩ := hleast b h
    have hext : t.extension = u.extension :=
      String.le_antisymm (hle u hu (by simp [hufound])) (hule t ht (by simp [hfound]))
    have heq : some t = some u := by
      rw [← hr.mem_toList.mp ht, hext, hr.mem_toList.mp hu]
    rw [← hufound, ← hfound, Option.some.inj heq]

end Lists

/-! ### The last transpiler for each extension -/

structure Entry where
  extension : String
  target : String
  compiler : Compiler

def Entry.transpiler (e : Entry) : Transpiler := .make e.extension e.target e.compiler

def ofEntries (es : List Entry) : Registry := .ofList (es.map Entry.transpiler)

def last? (es : List Entry) (key : String) : Option Transpiler :=
  ((es.map Entry.transpiler).filter (·.extension == key)).getLast?

variable {es es' : List Entry} {key : String} {t : Transpiler}

theorem entries_ofEntries (es : List Entry) (key : String) :
    (ofEntries es).entries[key]? = last? es key := by
  simp [ofEntries, ofList, entries_addAll, last?]

theorem keyed_ofEntries (es : List Entry) : (ofEntries es).Keyed := keyed_ofList _

theorem last?_ne_none_iff : last? es key ≠ none ↔ ∃ e ∈ es, Name.dotted e.extension = key := by
  simp [last?, Entry.transpiler, Transpiler.make]

theorem last?_congr (h : ∀ ext, last? es (Name.dotted ext) = last? es' (Name.dotted ext))
    (key : String) : last? es key = last? es' key := by
  by_cases hkey : Name.dotted key = key
  · rw [← hkey]
    exact h key
  · have hnone : ∀ es : List Entry, last? es key = none := by
      intro es
      by_contra hsome
      obtain ⟨e, -, rfl⟩ := last?_ne_none_iff.mp hsome
      exact hkey (Name.dotted_dotted e.extension)
    rw [hnone es, hnone es']

/-- A registry answers by what it was given last for each extension. -/
structure Reflects (r : Registry) (es : List Entry) : Prop where
  find : ∀ ext, r.find? ext = if Name.isBare ext then none else last? es (Name.dotted ext)
  replaced : ∀ e : Entry, r.replaced? e.transpiler = last? es (Name.dotted e.extension)
  ascending : r.extensions.Pairwise (· < ·)
  listed : ∀ ext, ext ∈ r.extensions ↔ ∃ e ∈ es, Name.dotted e.extension = ext
  ordered : r.toList.map (·.extension) = r.extensions
  transpilers : ∀ t, t ∈ r.toList ↔ last? es t.extension = some t
  size : r.size = r.extensions.length

theorem ofEntries_reflects (es : List Entry) : (ofEntries es).Reflects es where
  find ext := by rw [find?, entries_ofEntries]
  replaced e := entries_ofEntries es _
  ascending := extensions_ascending _
  listed ext := by rw [mem_extensions, entries_ofEntries, last?_ne_none_iff]
  ordered := (keyed_ofEntries es).map_extension_toList
  transpilers t := by rw [(keyed_ofEntries es).mem_toList, entries_ofEntries]
  size := Std.TreeMap.length_keys.symm

end Registry

/-! ### Imports without an extension -/

namespace Import

variable {r : Registry} {host : Host} {importer name base : String}

theorem synthesize?_of_none (hbase : Name.locate? importer name = some base)
    (hext : r.find? (Name.extension base) = none) :
    synthesize? r host importer name = r.toList.findSome? fun t =>
      if host.has (base ++ t.extension) then some (compiledModule t (base ++ t.extension))
      else none := by
  simp [synthesize?, hbase, hext]

theorem synthesize?_eq_some_iff_least (hr : r.Keyed)
    (hbase : Name.locate? importer name = some base)
    (hext : r.find? (Name.extension base) = none) (m : Module) :
    synthesize? r host importer name = some m ↔
      ∃ t ∈ r.toList, host.has (base ++ t.extension) = true ∧
        m = compiledModule t (base ++ t.extension) ∧
        ∀ ext ∈ r.extensions, host.has (base ++ ext) = true → t.extension ≤ ext := by
  have hfound : ∀ t : Transpiler,
      (if host.has (base ++ t.extension) then some (compiledModule t (base ++ t.extension))
        else none) ≠ none ↔ host.has (base ++ t.extension) = true := by
    intro t
    simp
  rw [synthesize?_of_none hbase hext, hr.findSome?_eq_some_iff, ← hr.map_extension_toList]
  simp only [hfound, Option.ite_none_right_eq_some, Option.some.injEq, and_assoc,
    List.forall_mem_map, @eq_comm _ m]

theorem synthesize?_eq_none_iff_extensions (hr : r.Keyed)
    (hbase : Name.locate? importer name = some base)
    (hext : r.find? (Name.extension base) = none) :
    synthesize? r host importer name = none ↔
      ∀ ext ∈ r.extensions, host.has (base ++ ext) = false := by
  rw [synthesize?_of_none hbase hext, List.findSome?_eq_none_iff, ← hr.map_extension_toList]
  simp

end Import

namespace Registry

variable {es es' : List Entry}

/-- Two registries that were given the same last transpiler for each extension answer alike and lead
imports alike, and each reflects what it was given. An import whose base has no registered extension
is led to the least of the extensions under which there is a file. -/
theorem ofEntries_alike (h : ∀ ext, last? es (Name.dotted ext) = last? es' (Name.dotted ext)) :
    (ofEntries es).Alike (ofEntries es') ∧ (ofEntries es).size = (ofEntries es').size ∧
      (∀ host importer name, Import.synthesize? (ofEntries es) host importer name =
        Import.synthesize? (ofEntries es') host importer name) ∧
      (ofEntries es).Reflects es ∧ (ofEntries es').Reflects es' ∧
      ∀ (host : Import.Host) (importer name base : String),
        Name.locate? importer name = some base →
        (ofEntries es).find? (Name.extension base) = none →
        (∀ m, Import.synthesize? (ofEntries es) host importer name = some m ↔
          ∃ t ∈ (ofEntries es).toList, host.has (base ++ t.extension) = true ∧
            m = Import.compiledModule t (base ++ t.extension) ∧
            ∀ ext ∈ (ofEntries es).extensions, host.has (base ++ ext) = true →
              t.extension ≤ ext) ∧
        (Import.synthesize? (ofEntries es) host importer name = none ↔
          ∀ ext ∈ (ofEntries es).extensions, host.has (base ++ ext) = false) := by
  have halike : (ofEntries es).Alike (ofEntries es') := by
    apply alike_of_entries
    intro key
    rw [entries_ofEntries, entries_ofEntries, last?_congr h]
  refine ⟨halike, ?_, ?_, ofEntries_reflects es, ofEntries_reflects es', ?_⟩
  · rw [(ofEntries_reflects es).size, (ofEntries_reflects es').size, halike.extensions]
  · intro host importer name
    simp only [Import.synthesize?, halike.find, halike.toList]
  · intro host importer name base hbase hext
    exact ⟨Import.synthesize?_eq_some_iff_least (keyed_ofEntries es) hbase hext,
      Import.synthesize?_eq_none_iff_extensions (keyed_ofEntries es) hbase hext⟩

/-- Other dots, another order, and one transpiler that is replaced. -/
theorem ofEntries_alike_reordered :
    let es : List Entry := [⟨"v", "ts", copy⟩, ⟨".w", "ts", copy⟩]
    let es' : List Entry := [⟨"..w", ".js", copy⟩, ⟨".w", ".ts", copy⟩, ⟨".v", "..ts", copy⟩]
    (∀ ext, last? es (Name.dotted ext) = last? es' (Name.dotted ext)) ∧
      (ofEntries es).toList = (ofEntries es').toList ∧ (ofEntries es).extensions = [".v", ".w"] ∧
      ∀ host : Import.Host, host.has "/p/a.v" = true →
        Import.synthesize? (ofEntries es) host "/p/main.ts" "./a" =
          some ⟨"/p/a.v.ts", ".ts", false⟩ := by
  intro es es'
  have hes : es.map Entry.transpiler = [⟨".v", ".ts", copy⟩, ⟨".w", ".ts", copy⟩] := by rfl
  have hes' : es'.map Entry.transpiler =
      [⟨".w", ".js", copy⟩, ⟨".w", ".ts", copy⟩, ⟨".v", ".ts", copy⟩] := by rfl
  have hlast : ∀ key, last? es key = last? es' key := by
    intro key
    rw [last?, last?, hes, hes']
    by_cases hv : ".v" = key
    · subst hv
      rfl
    · by_cases hw : ".w" = key
      · subst hw
        rfl
      · simp [hv, hw]
  obtain ⟨halike, -, -, hreflects, -, hfallback⟩ :=
    ofEntries_alike fun ext => hlast (Name.dotted ext)
  have hextensions : (ofEntries es).extensions = [".v", ".w"] := by decide +kernel
  refine ⟨fun ext => hlast (Name.dotted ext), halike.toList, hextensions, ?_⟩
  intro host hv
  obtain ⟨hsome, -⟩ := hfallback host "/p/main.ts" "./a" "/p/a" (by decide +kernel)
    (by decide +kernel)
  refine (hsome _).mpr ⟨⟨".v", ".ts", copy⟩, ?_, hv, rfl, ?_⟩
  · rw [hreflects.transpilers, last?, hes]
    rfl
  · rw [hextensions]
    intro ext hext _
    rcases List.mem_pair.mp hext with rfl | rfl
    · decide
    · decide

end Registry

end SourceOverlay
