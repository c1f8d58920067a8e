import SourceOverlay.Project
import SourceOverlay.Proofs.Moves

/-!
# Imports that are synthesized

An import that does not resolve natively is led to a compiled name, which is put together by
appending extensions to a base path. Serving takes the name apart again, from the right, and looks
for the source in other ways than the import did. The two agree on every path whose last component
is more than dots: the name is owned by the transpiler it was made for, what is left of it is the
source that the import found, and serving finds it too.
-/

set_option autoImplicit false

namespace SourceOverlay

/-! ### Extensions as keys -/

namespace Name

theorem lastRun_free (p : Char → Bool) (cs : List Char) : ∀ c ∈ lastRun p cs, p c = false := by
  intro c hc
  have hfree := List.mem_takeWhile_imp (List.mem_reverse.mp hc)
  simpa using hfree

theorem Chars.dotted_cons {cs : List Char} (h : ∀ c ∈ cs, isDot c = false) :
    dotted ('.' :: cs) = '.' :: cs := by
  have hhead : undotted ('.' :: cs) = cs.dropWhile isDot := by simp [undotted, isDot]
  rw [dotted, hhead]
  cases cs with
  | nil => rfl
  | cons c cs => simp [h c List.mem_cons_self]

theorem dotted_of_isSingle {ext : String} (h : isSingle ext = true) : dotted ext = ext := by
  obtain ⟨cs, hcs, -, hdots, -⟩ := Chars.isSingle_cases h
  rw [dotted, hcs, Chars.dotted_cons hdots, ← hcs, String.ofList_toList]

theorem not_isBare_of_isSingle {ext : String} (h : isSingle ext = true) : isBare ext = false := by
  obtain ⟨cs, hcs, hne, hdots, -⟩ := Chars.isSingle_cases h
  cases cs with
  | nil => exact absurd rfl hne
  | cons c cs =>
    have hc : c ≠ '.' := by simpa [isDot] using hdots c List.mem_cons_self
    simp [isBare, hcs, Chars.undotted, isDot, hc]

theorem dotted_extension {name : String} (h : extension name ≠ "") :
    dotted (extension name) = extension name := by
  simp only [extension, dotted, Chars.extension] at h ⊢
  split at h
  · next hdot =>
    rw [if_pos hdot, String.toList_ofList, Chars.dotted_cons (lastRun_free isDot _)]
  · exact absurd rfl h

theorem extension_append_of_stem {base ext : String}
    (hbase : ∃ c ∈ Chars.component base.toList, isDot c = false) (hext : isSingle ext = true) :
    extension (base ++ ext) = ext := by
  have hstem : (Chars.component base.toList).dropWhile isDot ≠ [] := by
    obtain ⟨c, hc, hdot⟩ := hbase
    intro hnil
    simpa [hdot] using List.dropWhile_eq_nil_iff.mp hnil c hc
  rw [extension, String.toList_append, Chars.extension_append_of_stem _ _ hstem hext,
    String.ofList_toList]

end Name

namespace Registry

def Keyed (r : Registry) : Prop :=
  ∀ (ext : String) (t : Transpiler), r.entries[ext]? = some t → t.extension = ext

theorem keyed_empty : ({} : Registry).Keyed := by
  intro ext t h
  simp at h

theorem Keyed.add {r : Registry} (h : r.Keyed) (t : Transpiler) : (r.add t).Keyed := by
  intro ext u hu
  simp only [Registry.add, Std.TreeMap.getElem?_insert] at hu
  split at hu
  · next heq =>
    rw [← Option.some.inj hu]
    simpa using heq
  · exact h ext u hu

theorem Keyed.addAll {r : Registry} (h : r.Keyed) (ts : List Transpiler) : (r.addAll ts).Keyed := by
  induction ts generalizing r with
  | nil => exact h
  | cons t ts ih => exact ih (h.add t)

theorem keyed_ofList (ts : List Transpiler) : (ofList ts).Keyed := keyed_empty.addAll ts

variable {r : Registry} {name source : String} {t : Transpiler}

theorem Keyed.extension_eq (hr : r.Keyed) (h : r.find? (Name.extension name) = some t) :
    t.extension = Name.extension name := by
  have hne := extension_ne_of_find? h
  rw [find?, if_neg (by simp [not_isBare_of_find? h]), Name.dotted_extension hne] at h
  exact hr _ t h

theorem Keyed.find?_extension (hr : r.Keyed) (ht : t ∈ r.toList)
    (hsingle : Name.isSingle t.extension = true) : r.find? t.extension = some t := by
  rw [toList, TreeMap.values_eq_map_snd] at ht
  obtain ⟨⟨ext, u⟩, hmem, rfl⟩ := List.mem_map.mp ht
  have hentry := Std.TreeMap.mem_toList_iff_getElem?_eq_some.mp hmem
  rw [find?, if_neg (by simp [Name.not_isBare_of_isSingle hsingle]),
    Name.dotted_of_isSingle hsingle, hr ext u hentry]
  exact hentry

theorem shownName_compiledName (h : r.find? (Name.extension source) = some t)
    (ht : Name.isSingle t.target = true) : r.shownName (t.compiledName source) = source := by
  have hbare := not_isBare_of_find? h
  have howner := owner?_compiledName h ht
  rw [Transpiler.compiledName, Name.compiled] at howner ⊢
  simp only [shownName, Name.Layered.split?_append_single source t.target hbare ht, howner,
    Option.isSome_some, if_true, Name.Layered.source]
  exact Name.withoutExtension_append_extension source (Name.isProper_of_not_isBare hbare)

end Registry

/-! ### Serving what has a source -/

namespace Overlay

variable {r : Registry} {f : Files} {o : Overlay}

def lookups (o : Overlay) : Nat := o.stats.hits + o.stats.misses

theorem sourceText_isSome {source : String}
    (h : (o.store.source? source).isSome = true ∨ (f.read? source).isSome = true) :
    ∃ buffer version, (o.sourceText f source).1 = some (buffer, version) := by
  cases hd : o.store.find? source with
  | some d => exact ⟨d.buffer, d.version, by rw [sourceText_of_some hd]⟩
  | none =>
    have hread : (f.read? source).isSome = true := by simpa [Store.source?, hd] using h
    obtain ⟨text, htext⟩ := Option.isSome_iff_exists.mp hread
    exact ⟨_, _, by rw [sourceText_of_read hd htext]⟩

theorem serve_of_sourceText {path : String} {t : Transpiler} {buffer : Buffer} {version : Version}
    (howner : r.owner? path = some t)
    (h : (o.sourceText f (Name.withoutExtension path)).1 = some (buffer, version)) :
    o.serve r f path = (o.sourceText f (Name.withoutExtension path)).2.serveFound
      ⟨t, Name.withoutExtension path, path, buffer, version⟩ := by
  have hpair : o.sourceText f (Name.withoutExtension path) =
      (some (buffer, version), (o.sourceText f (Name.withoutExtension path)).2) := by rw [← h]
  rw [serve, howner]
  simp only [serveCompiled_eq]
  rw [hpair]

theorem sourceText_lookups (f : Files) (o : Overlay) (source : String) :
    (o.sourceText f source).2.lookups = o.lookups := by
  unfold sourceText
  split
  · rfl
  · split <;> rfl

theorem settle_lookups (o : Overlay) (j : Job) (result : Result) :
    (o.settle j result).2.lookups = o.lookups := by
  unfold settle
  split
  · rfl
  · simp only
    split
    · rfl
    · cases result <;> rfl

theorem bringUp_lookups (o : Overlay) (j : Job) (d : Document) :
    (o.bringUp j d).lookups = o.lookups := by
  unfold bringUp
  split
  · exact settle_lookups _ j j.run
  · rfl

/-- A source that was found is looked up in the cache, which is counted; serving a compiled path
without a source counts nothing. -/
theorem serveFound_lookups (o : Overlay) (j : Job) :
    (o.serveFound j).2.lookups = o.lookups + 1 := by
  unfold serveFound
  split
  · simp only [lookups, countHit]
    omega
  · have hstale : (o.serveStale j).2.lookups = o.countMiss.lookups :=
      bringUp_lookups { o.countMiss with store := (o.store.reserve j.compiled j.source).2 } j _
    rw [hstale]
    rfl

end Overlay

/-! ### Synthesized modules -/

namespace Import

variable {r : Registry} {f : Files} {o : Overlay} {base source : String} {t : Transpiler}

/-- The source that an import with this base path may be led to: the base itself if its extension is
registered, and otherwise the base with a registered extension. -/
def Probed (r : Registry) (base source : String) (t : Transpiler) : Prop :=
  (r.find? (Name.extension base) = some t ∧ source = base) ∨
    (r.find? (Name.extension base) = none ∧ t ∈ r.toList ∧ source = base ++ t.extension)

theorem synthesize?_cases {host : Host} {importer name : String} {m : Module}
    (hbase : Name.locate? importer name = some base)
    (h : synthesize? r host importer name = some m) :
    ∃ t source, Probed r base source t ∧ host.has source = true ∧ m = compiledModule t source := by
  simp only [synthesize?, hbase, Option.bind_eq_bind, Option.bind_some] at h
  cases hfind : r.find? (Name.extension base) with
  | some t =>
    simp only [hfind, Option.ite_none_right_eq_some, Option.some.injEq] at h
    exact ⟨t, base, .inl ⟨hfind, rfl⟩, h.1, h.2.symm⟩
  | none =>
    simp only [hfind] at h
    obtain ⟨t, ht, h⟩ := List.exists_of_findSome?_eq_some h
    simp only [Option.ite_none_right_eq_some, Option.some.injEq] at h
    exact ⟨t, base ++ t.extension, .inr ⟨hfind, ht, rfl⟩, h.1, h.2.symm⟩

theorem Probed.find? (h : Probed r base source t) (hr : r.Keyed)
    (hsingle : ∀ t ∈ r.toList, Name.isSingle t.extension = true)
    (hstem : ∃ c ∈ Name.Chars.component base.toList, Name.isDot c = false) :
    Name.extension source = t.extension ∧ r.find? (Name.extension source) = some t := by
  rcases h with ⟨hfind, rfl⟩ | ⟨-, ht, rfl⟩
  · exact ⟨(hr.extension_eq hfind).symm, hfind⟩
  · have hext := Name.extension_append_of_stem hstem (hsingle t ht)
    rw [hext]
    exact ⟨rfl, hr.find?_extension ht (hsingle t ht)⟩

/-- The module is the compiled form of a source, and the overlay as it is serves it from there. -/
structure Servable (r : Registry) (f : Files) (o : Overlay) (m : Module) (t : Transpiler)
    (source : String) : Prop where
  owner : r.owner? m.file = some t
  target : m.extension = t.target
  inner : m.external = false
  stripped : Name.withoutExtension m.file = source
  shown : r.shownName m.file = source
  extension : Name.extension source = t.extension
  there : (o.store.source? source).isSome = true ∨ (f.read? source).isSome = true
  found : ∃ buffer version, (o.sourceText f source).1 = some (buffer, version) ∧
    o.serve r f m.file =
      (o.sourceText f source).2.serveFound ⟨t, source, m.file, buffer, version⟩
  counted : (o.serve r f m.file).2.lookups = o.lookups + 1

theorem servable_compiledModule (hext : Name.extension source = t.extension)
    (hfind : r.find? (Name.extension source) = some t) (ht : Name.isSingle t.target = true)
    (hthere : (o.store.source? source).isSome = true ∨ (f.read? source).isSome = true) :
    Servable r f o (compiledModule t source) t source := by
  have howner := Registry.owner?_compiledName hfind ht
  have hstrip := Registry.withoutExtension_compiledName hfind ht
  obtain ⟨buffer, version, hsource⟩ := Overlay.sourceText_isSome hthere
  have hserve := Overlay.serve_of_sourceText (o := o) howner (hstrip.symm ▸ hsource)
  rw [hstrip] at hserve
  refine ⟨howner, rfl, rfl, hstrip, Registry.shownName_compiledName hfind ht, hext, hthere,
    ⟨buffer, version, hsource, hserve⟩, ?_⟩
  rw [compiledModule, hserve, Overlay.serveFound_lookups, Overlay.sourceText_lookups]

/-- Whatever an import is led to when it does not resolve natively is served from the very source
that the import found. -/
theorem resolve_servable (ts : List Transpiler)
    (hsingle : ∀ t ∈ (Registry.ofList ts).toList,
      Name.isSingle t.extension = true ∧ Name.isSingle t.target = true)
    (f : Files) (hfiles : ∀ path, f.has path = (f.read? path).isSome) (o : Overlay)
    (resolver : Resolver) (options : Options) (memo : Memo) (importer name base : String)
    (m : Module)
    (hnative : (resolver options (hostOf o.store f) memo importer name).1 = none)
    (hresolve : (resolve (.ofList ts) resolver options (hostOf o.store f) importer memo name).1 =
      some m)
    (hbase : Name.locate? importer name = some base)
    (hstem : ∃ c ∈ Name.Chars.component base.toList, Name.isDot c = false) :
    ∃ t source, Probed (.ofList ts) base source t ∧ Servable (.ofList ts) f o m t source := by
  have hsynthesize : synthesize? (.ofList ts) (hostOf o.store f) importer name = some m := by
    unfold resolve at hresolve
    split at hresolve
    · next hsome => simp [hsome] at hnative
    · exact hresolve
  obtain ⟨t, source, hprobed, hhas, rfl⟩ := synthesize?_cases hbase hsynthesize
  obtain ⟨hext, hfind⟩ := hprobed.find? (Registry.keyed_ofList ts) (fun t ht => (hsingle t ht).1)
    hstem
  have hthere : (o.store.source? source).isSome = true ∨ (f.read? source).isSome = true := by
    simpa [hostOf, hfiles] using hhas
  exact ⟨t, source, hprobed,
    servable_compiledModule hext hfind (hsingle t (Registry.mem_toList_of_find? hfind)).2 hthere⟩

/-- The base path opens with a dot, in a directory that has dots too. -/
theorem resolve_servable_copying :
    let f : Files := .ofRead fun p => if p = "/p/v1.2/.a.v" then some "one" else none
    let m : Module := ⟨"/p/v1.2/.a.v.ts", ".ts", false⟩
    (resolve .copying native {} (hostOf {} f) "/p/v1.2/main.ts" { root := "/p" } "./.a").1 =
        some m ∧
      ∃ t source, Probed .copying "/p/v1.2/.a" source t ∧ Servable .copying f {} m t source := by
  intro f m
  have hresolve : (resolve .copying native {} (hostOf {} f) "/p/v1.2/main.ts" { root := "/p" }
      "./.a").1 = some m := by decide +kernel
  refine ⟨hresolve, ?_⟩
  exact resolve_servable [.make ".v" ".ts" Registry.copy] (by decide +kernel) f (fun _ => rfl) {}
    native {} { root := "/p" } "/p/v1.2/main.ts" "./.a" "/p/v1.2/.a" m (by decide +kernel) hresolve
    (by decide +kernel) ⟨'a', by decide +kernel, rfl⟩

end Import

end SourceOverlay
