import Mathlib.Data.List.TakeWhile
import SourceOverlay.Registry

/-!
# Names of compiled files

A compiled name is written by appending the target extension to the name of a source, and it is
read back from the right. Where every target is a single extension the two agree: the transpiler
that gave the name owns it, and what is left without the last extension is the source. Whatever the
registry, an owned name is the compiled name of its remainder.
-/

set_option autoImplicit false

namespace SourceOverlay

theorem TreeMap.values_eq_map_snd {α β : Type} {cmp : α → α → Ordering}
    (m : Std.TreeMap α β cmp) : m.values = m.toList.map (·.2) := by
  rw [Std.TreeMap.values, Std.DTreeMap.values, Std.DTreeMap.Internal.Impl.values_eq_map_snd,
    Std.TreeMap.toList, Std.DTreeMap.Const.toList,
    Std.DTreeMap.Internal.Impl.Const.toList_eq_toListModel_map]
  simp

namespace Name

namespace Chars

theorem lastRun_append_free (p : Char → Bool) (us vs : List Char) (h : ∀ c ∈ vs, p c = false) :
    lastRun p (us ++ vs) = lastRun p us ++ vs := by
  have hv : ∀ c ∈ vs.reverse, (!p c) = true := by
    intro c hc
    simp [h c (List.mem_reverse.mp hc)]
  rw [lastRun, List.reverse_append, List.takeWhile_append_of_pos hv]
  simp [lastRun]

theorem lastRun_append_cons (p : Char → Bool) (us vs : List Char) (a : Char) (ha : p a = true)
    (h : ∀ c ∈ vs, p c = false) : lastRun p (us ++ a :: vs) = vs := by
  rw [List.append_cons, lastRun_append_free p _ vs h]
  simp [lastRun, ha]

theorem lastRun_cut (p : Char → Bool) (cs : List Char) :
    (cs.reverse.dropWhile fun c => !p c).reverse ++ lastRun p cs = cs := by
  rw [lastRun, ← List.reverse_append, List.takeWhile_append_dropWhile, List.reverse_reverse]

theorem exists_lastRun (p : Char → Bool) (cs : List Char) (h : cs.any p = true) :
    ∃ us a, p a = true ∧ cs = us ++ a :: lastRun p cs := by
  have hcut := lastRun_cut p cs
  cases hd : cs.reverse.dropWhile fun c => !p c with
  | nil =>
    obtain ⟨a, ha, hpa⟩ := List.any_eq_true.mp h
    have := List.dropWhile_eq_nil_iff.mp hd a (List.mem_reverse.mpr ha)
    simp [hpa] at this
  | cons a us =>
    refine ⟨us.reverse, a, ?_, ?_⟩
    · have := List.head?_dropWhile_not (fun c => !p c) cs.reverse
      simpa [hd] using this
    · simpa [hd] using hcut.symm

theorem component_cut (cs : List Char) :
    (cs.reverse.dropWhile fun c => !isSeparator c).reverse ++ component cs = cs :=
  lastRun_cut isSeparator cs

theorem extension_suffix (cs : List Char) : extension cs <:+ cs := by
  simp only [extension]
  split
  · next h =>
    obtain ⟨us, a, ha, hs⟩ := exists_lastRun isDot _ h
    have hdot : a = '.' := by simpa [isDot] using ha
    subst hdot
    have hrun : '.' :: lastRun isDot ((component cs).dropWhile isDot) <:+
        (component cs).dropWhile isDot := ⟨us, hs.symm⟩
    exact hrun.trans ((List.dropWhile_suffix isDot).trans ⟨_, component_cut cs⟩)
  · exact List.nil_suffix

theorem dropEnd_append (cs ext : List Char) : dropEnd (cs ++ ext) ext = cs := by
  simp [dropEnd]

theorem dropEnd_append_extension (cs : List Char) :
    dropEnd cs (extension cs) ++ extension cs = cs := by
  obtain ⟨us, hus⟩ := extension_suffix cs
  have hd := dropEnd_append us (extension cs)
  rw [hus] at hd
  rw [hd, hus]

def isSingle : List Char → Bool
  | '.' :: cs => !cs.isEmpty && cs.all fun c => !isDot c && !isSeparator c
  | _ => false

theorem isSingle_cases {ext : List Char} (h : isSingle ext = true) :
    ∃ cs, ext = '.' :: cs ∧ cs ≠ [] ∧ (∀ c ∈ cs, isDot c = false) ∧
      ∀ c ∈ cs, isSeparator c = false := by
  unfold isSingle at h
  split at h
  · next cs =>
    simp only [Bool.and_eq_true, List.all_eq_true, Bool.not_eq_true', List.isEmpty_eq_false_iff]
      at h
    exact ⟨cs, rfl, h.1, fun c hc => (h.2 c hc).1, fun c hc => (h.2 c hc).2⟩
  · simp at h

theorem extension_append_of_stem (cs ext : List Char) (hcs : (component cs).dropWhile isDot ≠ [])
    (hext : isSingle ext = true) : extension (cs ++ ext) = ext := by
  obtain ⟨tail, rfl, -, hdots, hseps⟩ := isSingle_cases hext
  have hcomp : component (cs ++ '.' :: tail) = component cs ++ '.' :: tail := by
    apply lastRun_append_free
    intro c hc
    rcases List.mem_cons.mp hc with rfl | hc
    · rfl
    · exact hseps c hc
  have hstem : ((component cs).dropWhile isDot).isEmpty = false := by simpa using hcs
  simp only [extension, hcomp, List.dropWhile_append, hstem, Bool.false_eq_true, if_false]
  rw [lastRun_append_cons isDot _ tail '.' rfl hdots]
  simp [isDot]

theorem extension_append_single (cs ext : List Char) (hcs : extension cs ≠ [])
    (hext : isSingle ext = true) : extension (cs ++ ext) = ext := by
  apply extension_append_of_stem cs ext _ hext
  intro hd
  simp [extension, hd] at hcs

end Chars

/-- Whether a text is one extension, as `.ts` is and `.d.ts` is not. -/
def isSingle (ext : String) : Bool := Chars.isSingle ext.toList

theorem extension_append_single (name ext : String) (hname : extension name ≠ "")
    (hext : isSingle ext = true) : extension (name ++ ext) = ext := by
  have hne : Chars.extension name.toList ≠ [] := by
    intro h
    simp [extension, h] at hname
  simp [extension, Chars.extension_append_single _ _ hne hext]

theorem isProper_of_isSingle {ext : List Char} (h : Chars.isSingle ext = true) :
    Chars.isProper ext = true := by
  obtain ⟨cs, rfl, hne, -⟩ := Chars.isSingle_cases h
  cases cs with
  | nil => exact absurd rfl hne
  | cons => simp [Chars.isProper]

theorem withoutExtension_append_single (name ext : String) (hname : extension name ≠ "")
    (hext : isSingle ext = true) : withoutExtension (name ++ ext) = name := by
  have hne : Chars.extension name.toList ≠ [] := by
    intro h
    simp [extension, h] at hname
  simp [withoutExtension, Chars.withoutExtension, Chars.extension_append_single _ _ hne hext,
    isProper_of_isSingle hext, Chars.dropEnd_append]

theorem withoutExtension_append_extension (name : String)
    (h : Chars.isProper (Chars.extension name.toList) = true) :
    withoutExtension name ++ extension name = name := by
  apply String.toList_inj.mp
  simp [withoutExtension, extension, Chars.withoutExtension, h, Chars.dropEnd_append_extension]

theorem isProper_of_not_isBare {name : String} (h : isBare (extension name) = false) :
    Chars.isProper (Chars.extension name.toList) = true := by
  simp only [isBare, extension, String.toList_ofList] at h
  simp only [Chars.extension] at h ⊢
  split at h
  · next hdot =>
    rw [if_pos hdot]
    cases hrun : lastRun isDot (List.dropWhile isDot (Chars.component name.toList)) with
    | nil => simp [hrun, Chars.undotted, isDot] at h
    | cons => simp [Chars.isProper]
  · simp [Chars.undotted] at h

namespace Layered

theorem split?_cases {name : String} {n : Layered} (h : split? name = some n) :
    n.inner = extension (withoutExtension name) ∧ n.outer = extension name ∧
      withoutExtension name ++ n.outer = name ∧ withoutExtension name ≠ name := by
  simp only [split?] at h
  split at h
  · next hp =>
    simp only [Bool.and_eq_true] at hp
    obtain rfl := Option.some.inj h
    have hw : withoutExtension name =
        String.ofList (Chars.dropEnd name.toList (Chars.extension name.toList)) := by
      simp [withoutExtension, Chars.withoutExtension, hp.1]
    have happ := withoutExtension_append_extension name hp.1
    refine ⟨by simp [hw, extension], rfl, happ, ?_⟩
    intro heq
    have hlen := congrArg String.length happ
    rw [heq, String.length_append] at hlen
    have : 1 < (extension name).length := by simpa [extension, Chars.isProper] using hp.1
    omega
  · simp at h

theorem source_of_split? {name : String} {n : Layered} (h : split? name = some n) :
    n.source = withoutExtension name := by
  simp only [split?] at h
  split at h
  · next hp =>
    obtain rfl := Option.some.inj h
    apply String.toList_inj.mp
    simp only [Bool.and_eq_true] at hp
    simp [source, withoutExtension, Chars.withoutExtension, hp.1, Chars.dropEnd_append_extension]
  · simp at h

theorem split?_append_single (name ext : String) (hname : isBare (extension name) = false)
    (hext : isSingle ext = true) :
    split? (name ++ ext) = some ⟨withoutExtension name, extension name, ext⟩ := by
  have hp := isProper_of_not_isBare hname
  have hne : Chars.extension name.toList ≠ [] := by
    intro h
    simp [h, Chars.isProper] at hp
  simp [split?, Chars.extension_append_single _ _ hne hext, Chars.dropEnd_append,
    isProper_of_isSingle hext, hp, withoutExtension, Chars.withoutExtension, extension]

end Layered

end Name

/-! ### Owners -/

namespace Registry

theorem not_isBare_of_find? {r : Registry} {ext : String} {t : Transpiler}
    (h : r.find? ext = some t) : Name.isBare ext = false := by
  cases hb : Name.isBare ext with
  | false => rfl
  | true => simp [find?, hb] at h

theorem extension_ne_of_find? {r : Registry} {name : String} {t : Transpiler}
    (h : r.find? (Name.extension name) = some t) : Name.extension name ≠ "" := by
  intro hext
  simpa [hext, Name.isBare, Name.Chars.undotted] using not_isBare_of_find? h

theorem mem_toList_of_find? {r : Registry} {ext : String} {t : Transpiler}
    (h : r.find? ext = some t) : t ∈ r.toList := by
  rw [find?, if_neg (by simp [not_isBare_of_find? h])] at h
  rw [toList, TreeMap.values_eq_map_snd]
  exact List.mem_map.mpr ⟨_, Std.TreeMap.mem_toList_iff_getElem?_eq_some.mpr h, rfl⟩

/-- An owned name is the compiled name of what is left without its last extension. -/
theorem owner?_cases {r : Registry} {name : String} {t : Transpiler}
    (h : r.owner? name = some t) :
    r.find? (Name.extension (Name.withoutExtension name)) = some t ∧
      t.compiledName (Name.withoutExtension name) = name ∧ Name.withoutExtension name ≠ name := by
  obtain ⟨n, hn, hfind⟩ := Option.bind_eq_some_iff.mp h
  obtain ⟨hinner, -, hname, hne⟩ := Name.Layered.split?_cases hn
  obtain ⟨hfind, htarget⟩ := Option.filter_eq_some_iff.mp hfind
  rw [hinner] at hfind
  have htarget : t.target = n.outer := by simpa using htarget
  exact ⟨hfind, by rw [Transpiler.compiledName, Name.compiled, htarget, hname], hne⟩

theorem owner?_compiledName {r : Registry} {source : String} {t : Transpiler}
    (h : r.find? (Name.extension source) = some t) (ht : Name.isSingle t.target = true) :
    r.owner? (t.compiledName source) = some t := by
  have hsplit := Name.Layered.split?_append_single source t.target (not_isBare_of_find? h) ht
  simp [owner?, Transpiler.compiledName, Name.compiled, hsplit, h]

theorem withoutExtension_compiledName {r : Registry} {source : String} {t : Transpiler}
    (h : r.find? (Name.extension source) = some t) (ht : Name.isSingle t.target = true) :
    Name.withoutExtension (t.compiledName source) = source :=
  Name.withoutExtension_append_single _ _ (extension_ne_of_find? h) ht

/-! ### Registries without ambiguous names -/

def Compiles (r : Registry) (name : String) : Prop :=
  ∃ source t, r.find? (Name.extension source) = some t ∧ t.compiledName source = name

theorem compiledName_ne {r : Registry} {source name : String} {t : Transpiler}
    (hname : ¬ r.Compiles name) (h : r.find? (Name.extension source) = some t) :
    t.compiledName source ≠ name := fun heq => hname ⟨source, t, h, heq⟩

theorem not_compiles_of_suffix {r : Registry} {name : String}
    (h : ∀ t ∈ r.toList, t.target.toList.isSuffixOf name.toList = false) : ¬ r.Compiles name := by
  rintro ⟨source, t, hfind, rfl⟩
  have hsuffix : t.target.toList <:+ (t.compiledName source).toList := by
    simp [Transpiler.compiledName, Name.compiled]
  simpa [List.isSuffixOf_iff_suffix.mpr hsuffix] using h t (mem_toList_of_find? hfind)

theorem compiles_of_owner? {r : Registry} {name : String} {t : Transpiler}
    (h : r.owner? name = some t) : r.Compiles name :=
  ⟨_, t, (owner?_cases h).1, (owner?_cases h).2.1⟩

def Unambiguous (r : Registry) : Prop :=
  ∀ s t s' t', r.find? (Name.extension s) = some t → r.find? (Name.extension s') = some t' →
    t.compiledName s = t'.compiledName s' → s = s'

/-- All extensions are single ones, and no target is the extension of a source. -/
structure Flat (r : Registry) : Prop where
  single : ∀ t ∈ r.toList, Name.isSingle t.extension = true ∧ Name.isSingle t.target = true
  apart : ∀ t ∈ r.toList, r.find? t.target = none

namespace Flat

variable {r : Registry} {source name : String} {t : Transpiler}

theorem target_single (hr : r.Flat) (h : r.find? (Name.extension source) = some t) :
    Name.isSingle t.target = true :=
  (hr.single t (mem_toList_of_find? h)).2

theorem owner?_compiledName (hr : r.Flat) (h : r.find? (Name.extension source) = some t) :
    r.owner? (t.compiledName source) = some t :=
  Registry.owner?_compiledName h (hr.target_single h)

theorem withoutExtension_compiledName (hr : r.Flat)
    (h : r.find? (Name.extension source) = some t) :
    Name.withoutExtension (t.compiledName source) = source :=
  Registry.withoutExtension_compiledName h (hr.target_single h)

theorem unambiguous (hr : r.Flat) : r.Unambiguous := by
  intro s t s' t' h h' heq
  rw [← hr.withoutExtension_compiledName h, heq, hr.withoutExtension_compiledName h']

theorem not_compiles_source (hr : r.Flat) (h : r.find? (Name.extension source) = some t) :
    ¬ r.Compiles source := by
  rintro ⟨origin, u, hu, rfl⟩
  rw [Transpiler.compiledName, Name.compiled,
    Name.extension_append_single _ _ (extension_ne_of_find? hu) (hr.target_single hu),
    hr.apart u (mem_toList_of_find? hu)] at h
  simp at h

theorem compiles_iff (hr : r.Flat) : r.Compiles name ↔ r.owner? name ≠ none := by
  constructor
  · rintro ⟨source, t, h, rfl⟩
    simp [hr.owner?_compiledName h]
  · intro h
    obtain ⟨t, ht⟩ := Option.ne_none_iff_exists'.mp h
    exact compiles_of_owner? ht

end Flat

/-- A compiler that refuses the text `bad` and copies any other. -/
def copy : Compiler where
  call _ text := if text == "bad" then .failed (.rejected text) else .done ⟨text, none⟩

def copying : Registry := .ofList [.make ".v" ".ts" copy]

theorem flat_copying : copying.Flat := ⟨by decide +kernel, by decide +kernel⟩

end Registry

end SourceOverlay
