import SourceOverlay.Proofs.Builds
import SourceOverlay.Proofs.Layers

/-!
# Declarations that can be used

A declaration is accepted if its fields say something. Whether its transpiler ever runs depends on
more: names are taken apart at single extensions, and an accepted extension may have further dots
or separators in it. Then a source with that extension is registered as a native file, or its
compiled name is owned by nobody and served empty. The transpiler works exactly if both of its
extensions are plain ones.
-/

set_option autoImplicit false

namespace SourceOverlay

namespace Name

def isPlain (ext : String) : Bool :=
  (Chars.undotted ext.toList).all fun c => !isDot c && !isSeparator c

theorem isSingle_dotted (ext : String) :
    isSingle (dotted ext) = (!isBare ext && isPlain ext) := by
  simp [isSingle, dotted, Chars.dotted, Chars.isSingle, isBare, isPlain]

end Name

/-! ### One transpiler alone -/

namespace Registry

variable {t u : Transpiler}

theorem find?_single (t : Transpiler) {ext : String} (h : Name.isBare ext = false) :
    (ofList [t]).find? ext = if t.extension = Name.dotted ext then some t else none := by
  have hempty : ({} : Registry).find? ext = none := by simp [find?]
  rw [← hempty]
  exact find?_add {} t h

theorem eq_of_find?_single {ext : String} (h : (ofList [t]).find? ext = some u) : u = t := by
  rw [find?_single t (not_isBare_of_find? h), Option.ite_none_right_eq_some] at h
  exact (Option.some.inj h.2).symm

theorem isSingle_of_find? {r : Registry} (hr : r.Keyed) {name : String}
    (h : r.find? (Name.extension name) = some t) : Name.isSingle t.extension = true := by
  have hproper := Name.isProper_of_not_isBare (not_isBare_of_find? h)
  rw [hr.extension_eq h]
  simpa [Name.isSingle, Name.extension] using Name.Chars.isSingle_extension hproper

theorem isSingle_of_owner? {r : Registry} {name : String} (h : r.owner? name = some t) :
    Name.isSingle t.target = true := by
  obtain ⟨n, hn, hfind⟩ := Option.bind_eq_some_iff.mp h
  have htarget : t.target = n.outer := by
    simpa using (Option.filter_eq_some_iff.mp hfind).2
  rw [htarget]
  exact (Name.Layered.writes_of_split? hn).outer

end Registry

/-! ### Serving what was registered -/

theorem Registry.compiledName_ne_source {r : Registry} {source : String} {t : Transpiler}
    (h : r.find? (Name.extension source) = some t) (ht : Name.isSingle t.target = true) :
    t.compiledName source ≠ source := by
  have hne := (owner?_cases (owner?_compiledName h ht)).2.2
  rw [withoutExtension_compiledName h ht] at hne
  exact hne.symm

namespace Overlay

variable {r : Registry} {o : Overlay} {t : Transpiler} {source : String}

/-- Serving the compiled path of a source calls the transpiler with the source as it is, unless the
compiled document is as new. -/
structure ServesCompiled (r : Registry) (f : Files) (o : Overlay) (t : Transpiler) (source : String)
    (d e : Document) : Prop where
  given : o.store.find? source = some d
  paired : o.store.find? (t.compiledName source) = some e
  calls : (o.serve r f (t.compiledName source)).2.calls = o.calls ++
    if e.version < d.version then [⟨t, source, t.compiledName source, d.buffer, d.version⟩] else []
  snapshot : d.source? = none → (o.serve r f (t.compiledName source)).1 = .ofDocument
    (if e.version < d.version then e.settled d.version (t.run source d.text) else e)

theorem servesCompiled_of_dropped {d e : Document} (ho : o.store.Tidy)
    (hfind : r.find? (Name.extension source) = some t) (ht : Name.isSingle t.target = true)
    (hd : o.store.find? source = some d) (he : o.store.find? (t.compiledName source) = some e)
    (hdropped : o.cache.kept? (t.compiledName source) = none) (f : Files) :
    o.ServesCompiled r f t source d e := by
  have howner := Registry.owner?_compiledName hfind ht
  have hstrip := Registry.withoutExtension_compiledName hfind ht
  have hne : source ≠ t.compiledName source := (Registry.compiledName_ne_source hfind ht).symm
  let j : Job := ⟨t, source, t.compiledName source, d.buffer, d.version⟩
  have hserve : o.serve r f (t.compiledName source) = o.serveStale j := by
    have hsource : (o.sourceText f (Name.withoutExtension (t.compiledName source))).1 =
        some (d.buffer, d.version) := by
      rw [hstrip, sourceText_of_some hd]
    rw [serve_of_sourceText howner hsource, hstrip, sourceText_of_some hd]
    unfold serveFound
    split
    · next hkept =>
      obtain ⟨v, -, hkept⟩ := SnapshotCache.findFor?_eq_some hkept
      simp [hdropped] at hkept
    · rfl
  have hmissed : (o.missed j).store.find? j.compiled = some e := by
    rw [(missed_tidy (j := j) ho hd hne).2.2.2, he]
    rfl
  -- In the second case the source is itself a compiled document: the transpiler is called for it,
  -- but the result is not taken.
  obtain ⟨hlt, -, -, heq⟩ | ⟨hlt, hsource, heq⟩ | ⟨hle, heq⟩ :=
    serveStale_cases (j := j) ho hd rfl hne hmissed
  · refine ⟨hd, he, ?_, ?_⟩
    · rw [hserve, if_pos hlt, heq]
      exact committed_calls _ j e j.run
    · intro _
      rw [hserve, if_pos hlt, heq]
      rfl
  · refine ⟨hd, he, ?_, fun hnone => absurd hnone hsource⟩
    rw [hserve, if_pos hlt, heq]
    rfl
  · have hlt := Int.not_lt.mpr hle
    refine ⟨hd, he, ?_, ?_⟩
    · rw [hserve, if_neg hlt, heq]
      exact (List.append_nil _).symm
    · intro _
      rw [hserve, if_neg hlt, heq]

theorem servesCompiled_register (ho : o.store.Tidy)
    (hfind : r.find? (Name.extension source) = some t) (ht : Name.isSingle t.target = true)
    (text : String) (version : Version) (f : Files) :
    (o.register r source text version).2.ServesCompiled r f t source
      (.received (o.store.find? source) source text version)
      (Store.paired
        ((o.store.find? (t.compiledName source)).getD (.ofSource (t.compiledName source) source))
        ((o.store.find? source).any (·.isDisk))) := by
  have hne := Registry.compiledName_ne_source hfind ht
  have hdocuments := Store.find?_register_alternate ho hfind hne text version
  apply servesCompiled_of_dropped
  · rw [register_store]
    exact (ho.register r source text version).1
  · exact hfind
  · exact ht
  · rw [register_store, hdocuments, if_neg hne, if_pos rfl]
  · rw [register_store, hdocuments, if_pos rfl]
  · rw [register_cache, SnapshotCache.kept?_dropAll, Store.register_alternate hfind]
    simp [Registration.invalidated]

end Overlay

/-! ### Transpilers that work -/

/-- With no other transpiler, a source is registered as one, its compiled name leads back to it, and
serving that name compiles it. -/
structure Transpiler.Works (t : Transpiler) (source : String) : Prop where
  registered : ∀ (s : Store) (text : String) (version : Version),
    (s.register (.ofList [t]) source text version).1 = .alternate source (t.compiledName source)
  owner : (Registry.ofList [t]).owner? (t.compiledName source) = some t
  shown : (Registry.ofList [t]).shownName (t.compiledName source) = source
  served : ∀ (o : Overlay) (f : Files) (text : String) (version : Version), o.store.Tidy →
    (o.register (.ofList [t]) source text version).2.ServesCompiled (.ofList [t]) f t source
      (.received (o.store.find? source) source text version)
      (Store.paired
        ((o.store.find? (t.compiledName source)).getD (.ofSource (t.compiledName source) source))
        ((o.store.find? source).any (·.isDisk)))

namespace Command.Declaration

variable {d : Declaration} {disk : Disk} {t : Transpiler}

theorem eq_made_of_transpiler (h : d.transpiler disk = .ok t) :
    d.isUsable = true ∧ t = d.made disk := by
  cases hd : d.isUsable with
  | true =>
    rw [transpiler_of_usable hd] at h
    exact ⟨rfl, (Except.ok.inj h).symm⟩
  | false =>
    obtain ⟨error, herror⟩ := transpiler_of_unusable hd disk
    rw [herror] at h
    cases h

theorem isSingle_of_transpiler (h : d.transpiler disk = .ok t) :
    (Name.isSingle t.extension = true ↔ Name.isPlain d.extension = true) ∧
      (Name.isSingle t.target = true ↔ Name.isPlain d.target = true) := by
  obtain ⟨husable, rfl⟩ := eq_made_of_transpiler h
  obtain ⟨hextension, htarget, -⟩ := not_isVoid_of_isUsable husable
  constructor
  · simp [made, Transpiler.make, Name.isSingle_dotted, not_isBare_of_not_isVoid hextension]
  · simp [made, Transpiler.make, Name.isSingle_dotted, not_isBare_of_not_isVoid htarget]

/-- The transpiler of an accepted declaration works exactly if its two extensions are plain,
whatever the stem of the source is. -/
theorem works_iff_isPlain (h : d.transpiler disk = .ok t) {stem : String}
    (hstem : Name.HasStem stem.toList) :
    t.Works (stem ++ t.extension) ↔
      Name.isPlain d.extension = true ∧ Name.isPlain d.target = true := by
  obtain ⟨hextension, htarget⟩ := isSingle_of_transpiler h
  rw [← hextension, ← htarget]
  constructor
  · intro hworks
    refine ⟨?_, Registry.isSingle_of_owner? hworks.owner⟩
    -- The extension of a name is a single one, so the source is registered as native if its
    -- transpiler stands under another.
    have hregistered := hworks.registered {} "" 0
    cases hfind : (Registry.ofList [t]).find? (Name.extension (stem ++ t.extension)) with
    | none =>
      rw [Store.register_native hfind] at hregistered
      cases hregistered
    | some u =>
      obtain rfl := Registry.eq_of_find?_single hfind
      exact Registry.isSingle_of_find? (Registry.keyed_ofList [u]) hfind
  · rintro ⟨hextension, htarget⟩
    have hfind : (Registry.ofList [t]).find? (Name.extension (stem ++ t.extension)) = some t := by
      rw [Name.extension_append_of_stem ((Name.hasStem_iff _).mp hstem) hextension,
        Registry.find?_single t (Name.not_isBare_of_isSingle hextension),
        Name.dotted_of_isSingle hextension, if_pos rfl]
    constructor
    · intro s text version
      rw [Store.register_alternate hfind]
    · exact Registry.owner?_compiledName hfind htarget
    · exact Registry.shownName_compiledName hfind htarget
    · intro o f text version ho
      exact Overlay.servesCompiled_register ho hfind htarget text version f

theorem works_iff_isPlain_hidden :
    ∃ t, transpiler {} ⟨"v", "..ts", "cat", [], .text⟩ = .ok t ∧
      t.Works ("/v1.2/.a" ++ t.extension) ∧
      t.compiledName ("/v1.2/.a" ++ t.extension) = "/v1.2/.a.v.ts" := by
  have haccepted : transpiler {} ⟨"v", "..ts", "cat", [], .text⟩ =
      .ok (made {} ⟨"v", "..ts", "cat", [], .text⟩) := rfl
  refine ⟨_, haccepted, ?_, by decide +kernel⟩
  have hstem : Name.HasStem "/v1.2/.a".toList :=
    (Name.hasStem_iff _).mpr ⟨'a', by decide +kernel, rfl⟩
  exact (works_iff_isPlain haccepted hstem).mpr ⟨by decide, by decide⟩

/-- Both declarations are accepted. The first one's compiled files are owned by nobody and served
empty, without a call; the second one's sources are registered as native files. -/
theorem accepted_fail :
    let t : Transpiler := made {} ⟨".v", ".d.ts", "cat", [], .text⟩
    let o := (({} : Overlay).register (.ofList [t]) "/p/a.v" "one" 1).2
    let served := o.serve (.ofList [t]) (.ofRead fun _ => none) "/p/a.v.d.ts"
    let u : Transpiler := made {} ⟨".tar.gz", ".ts", "cat", [], .text⟩
    Name.HasStem "/p/a".toList ∧
      (transpiler {} ⟨".v", ".d.ts", "cat", [], .text⟩ = .ok t ∧ t.extension = ".v" ∧
        (({} : Store).register (.ofList [t]) "/p/a.v" "one" 1).1 =
          .alternate "/p/a.v" "/p/a.v.d.ts" ∧
        (Registry.ofList [t]).owner? "/p/a.v.d.ts" = none ∧
        (Registry.ofList [t]).shownName "/p/a.v.d.ts" = "/p/a.v.d.ts" ∧
        served.1.text = "" ∧ served.2.calls = []) ∧
      transpiler {} ⟨".tar.gz", ".ts", "cat", [], .text⟩ = .ok u ∧ u.extension = ".tar.gz" ∧
        (({} : Store).register (.ofList [u]) "/p/a.tar.gz" "one" 1).1 = .native "/p/a.tar.gz" := by
  intro t o served u
  have howner : (Registry.ofList [t]).owner? "/p/a.v.d.ts" = none := by
    apply Option.isNone_iff_eq_none.mp
    decide +kernel
  have hcalls : served.2.calls = [] := by
    apply List.isEmpty_iff.mp
    decide +kernel
  refine ⟨(Name.hasStem_iff _).mpr ⟨'a', ?_, rfl⟩, ⟨rfl, ?_, ?_, howner, ?_, ?_, hcalls⟩, rfl,
    ?_, ?_⟩
  all_goals decide +kernel

end Command.Declaration

end SourceOverlay
