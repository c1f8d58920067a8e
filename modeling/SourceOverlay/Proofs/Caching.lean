import SourceOverlay.Proofs.Sessions

/-!
# The cache is disposable

What a cached snapshot shows is what would be served without it. For a compiled path that takes an
invariant: the snapshot is that of the document as it is, and the source version it was kept for is
no newer than the document, unless the source is itself a compiled document and never compiled. So
an overlay serves the same with its cache as with an empty one, and two sessions that differ only in
what was forgotten give the same answers.
-/

set_option autoImplicit false

namespace SourceOverlay

namespace Overlay

variable {r : Registry} {f : Files} {jobs : List Job} {o o' : Overlay}

/-! ### Overlays that agree -/

/-- The overlays hold the same documents, known paths, records and reports, and have counted the
same, cache lookups and calls of compilers apart. -/
structure Agree (o o' : Overlay) : Prop where
  store : o.store = o'.store
  records : o.records = o'.records
  reports : o.reports = o'.reports
  registrations : o.stats.registrations = o'.stats.registrations
  compiles : o.stats.compiles = o'.stats.compiles
  failures : o.stats.failures = o'.stats.failures

theorem Agree.refl (o : Overlay) : o.Agree o := ⟨rfl, rfl, rfl, rfl, rfl, rfl⟩

theorem Agree.symm (h : o.Agree o') : o'.Agree o :=
  ⟨h.1.symm, h.2.symm, h.3.symm, h.4.symm, h.5.symm, h.6.symm⟩

theorem Agree.trans {o'' : Overlay} (h : o.Agree o') (h' : o'.Agree o'') : o.Agree o'' :=
  ⟨h.1.trans h'.1, h.2.trans h'.2, h.3.trans h'.3, h.4.trans h'.4, h.5.trans h'.5,
    h.6.trans h'.6⟩

theorem Agree.register (h : o.Agree o') (path text : String) (version : Version) :
    (o.register r path text version).1 = (o'.register r path text version).1 ∧
      (o.register r path text version).2.Agree (o'.register r path text version).2 := by
  simp only [Overlay.register, h.store, h.registrations]
  exact ⟨trivial, rfl, h.records, h.reports, rfl, h.compiles, h.failures⟩

theorem Agree.holds (h : o.Agree o') (j : Job) : o.holds j = o'.holds j := by
  simp only [Overlay.holds, h.store]

theorem Agree.committed (h : o.Agree o') (j : Job) (d : Document) (result : Result) :
    (o.committed j d result).Agree (o'.committed j d result) := by
  cases result with
  | ok output =>
    refine ⟨?_, ?_, h.reports, h.registrations, congrArg (· + 1) h.compiles, h.failures⟩
    · exact congrArg (·.put (d.write output.code j.version)) h.store
    · exact congrArg (·.note ⟨j.source, j.compiled, output.map, j.version⟩) h.records
  | error error =>
    refine ⟨?_, h.records, ?_, h.registrations, congrArg (· + 1) h.compiles,
      congrArg (· + 1) h.failures⟩
    · exact congrArg (·.put (d.setVersion j.version)) h.store
    · exact congrArg (· ++ [Failure.mk j.source j.compiled j.transpiler.extension j.version error
        none]) h.reports

theorem Agree.withStore (h : o.Agree o') (store : Store) :
    Agree { o with store } { o' with store } :=
  ⟨rfl, h.records, h.reports, h.registrations, h.compiles, h.failures⟩

theorem settle_eq (o : Overlay) (j : Job) (result : Result) :
    o.settle j result =
      if !o.holds j then (false, o)
      else
        if j.version ≤ (o.store.reserve j.compiled j.source).1.version then
          (false, { o with store := (o.store.reserve j.compiled j.source).2 })
        else
          (true, { o with store := (o.store.reserve j.compiled j.source).2 }.committed j
            (o.store.reserve j.compiled j.source).1 result) := by
  unfold settle committed
  rfl

theorem Agree.settle (h : o.Agree o') (j : Job) (result : Result) :
    (o.settle j result).1 = (o'.settle j result).1 ∧
      (o.settle j result).2.Agree (o'.settle j result).2 := by
  rw [settle_eq, settle_eq, h.holds j, h.store]
  split
  · exact ⟨rfl, h⟩
  · split
    · exact ⟨rfl, h.withStore _⟩
    · exact ⟨rfl, (h.withStore _).committed j _ result⟩

theorem Agree.sourceText (h : o.Agree o') (source : String) :
    (o.sourceText f source).1 = (o'.sourceText f source).1 ∧
      (o.sourceText f source).2.Agree (o'.sourceText f source).2 := by
  simp only [Overlay.sourceText, h.store]
  split
  · exact ⟨rfl, h⟩
  · split
    · exact ⟨rfl, h.withStore _⟩
    · exact ⟨rfl, h⟩

theorem Agree.staleJob (h : o.Agree o') (compiled source : String) :
    (o.staleJob r f compiled source).1 = (o'.staleJob r f compiled source).1 ∧
      (o.staleJob r f compiled source).2.Agree (o'.staleJob r f compiled source).2 := by
  obtain ⟨hfst, hsnd⟩ := h.sourceText (f := f) source
  unfold Overlay.staleJob
  split
  · exact ⟨rfl, h⟩
  · generalize o.sourceText f source = a at hfst hsnd
    generalize o'.sourceText f source = a' at hfst hsnd
    obtain ⟨found, o₁⟩ := a
    obtain ⟨found', o₂⟩ := a'
    obtain rfl : found = found' := hfst
    replace hsnd : o₁.Agree o₂ := hsnd
    cases found with
    | none => exact ⟨rfl, hsnd⟩
    | some found =>
      simp only [hsnd.store]
      exact ⟨trivial, hsnd.withStore _⟩

theorem Agree.collectFrom (h : o.Agree o') (pairs : List (String × String)) :
    (collectFrom r f pairs o).1 = (Overlay.collectFrom r f pairs o').1 ∧
      (Overlay.collectFrom r f pairs o).2.Agree (Overlay.collectFrom r f pairs o').2 := by
  induction pairs generalizing o o' with
  | nil => exact ⟨rfl, h⟩
  | cons pair pairs ih =>
    obtain ⟨hjob, hstale⟩ := h.staleJob (r := r) (f := f) pair.1 pair.2
    obtain ⟨hjobs, hrest⟩ := ih hstale
    simp only [Overlay.collectFrom]
    exact ⟨by rw [hjob, hjobs], hrest⟩

theorem Agree.collect (h : o.Agree o') :
    (o.collect r f).1 = (o'.collect r f).1 ∧ (o.collect r f).2.Agree (o'.collect r f).2 := by
  simp only [Overlay.collect, h.store]
  exact h.collectFrom _

theorem Agree.serveDocument (h : o.Agree o') (j : Job) :
    (o.serveDocument j).1 = (o'.serveDocument j).1 ∧
      (o.serveDocument j).2.Agree (o'.serveDocument j).2 := by
  simp only [Overlay.serveDocument, h.store]
  exact ⟨trivial, rfl, h.records, h.reports, h.registrations, h.compiles, h.failures⟩

theorem Agree.bringUp (h : o.Agree o') (j : Job) (d : Document) :
    (o.bringUp j d).Agree (o'.bringUp j d) := by
  unfold Overlay.bringUp
  split
  · have hcall : (o.call [j]).Agree (o'.call [j]) := ⟨h.1, h.2, h.3, h.4, h.5, h.6⟩
    exact (hcall.settle j j.run).2
  · exact h

theorem Agree.serveStale (h : o.Agree o') (j : Job) :
    (o.serveStale j).1 = (o'.serveStale j).1 ∧
      (o.serveStale j).2.Agree (o'.serveStale j).2 := by
  have hmissed : (o.missed j).Agree (o'.missed j) := by
    refine ⟨?_, h.records, h.reports, h.registrations, h.compiles, h.failures⟩
    simp only [missed, h.store]
  have hdocument : o.store.reserve j.compiled j.source = o'.store.reserve j.compiled j.source := by
    rw [h.store]
  have heq : ∀ o : Overlay, o.serveStale j =
      ((o.missed j).bringUp j (o.store.reserve j.compiled j.source).1).serveDocument j :=
    fun _ => rfl
  rw [heq, heq, hdocument]
  exact (hmissed.bringUp j _).serveDocument j

theorem Agree.serveFound (h : o.Agree o') (hcache : o.cache = o'.cache) (j : Job) :
    (o.serveFound j).1 = (o'.serveFound j).1 ∧
      (o.serveFound j).2.Agree (o'.serveFound j).2 := by
  unfold Overlay.serveFound
  rw [hcache]
  split
  · exact ⟨rfl, h.1, h.2, h.3, h.4, h.5, h.6⟩
  · exact h.serveStale j

theorem sourceText_cache (f : Files) (o : Overlay) (source : String) :
    (o.sourceText f source).2.cache = o.cache := by
  unfold sourceText
  split
  · rfl
  · split <;> rfl

def serveFile (f : Files) (o : Overlay) (path : String) : Snapshot × Overlay :=
  let o := o.countMiss
  match o.store.find? path with
  | some d => o.remember path (.ofDocument d)
  | none =>
    match f.read? path with
    | some text =>
      let (origin, o) := o.freshOrigin
      o.remember path ⟨⟨origin, text⟩, storedVersion⟩
    | none => o.serveMissing

theorem serveNative_eq (f : Files) (o : Overlay) (path : String) :
    o.serveNative f path =
      match o.cache.find? path with
      | some s => (s, o.countHit)
      | none => o.serveFile f path := rfl

theorem Agree.serveFile (h : o.Agree o') (path : String) :
    (o.serveFile f path).1.text = (o'.serveFile f path).1.text ∧
      (o.serveFile f path).1.version = (o'.serveFile f path).1.version ∧
      (o.serveFile f path).2.Agree (o'.serveFile f path).2 := by
  simp only [Overlay.serveFile, countMiss, h.store]
  split
  · exact ⟨rfl, rfl, rfl, h.2, h.3, h.4, h.5, h.6⟩
  · split <;> exact ⟨rfl, rfl, rfl, h.2, h.3, h.4, h.5, h.6⟩

theorem Agree.serveNative (h : o.Agree o') (hcache : o.cache = o'.cache) (path : String) :
    (o.serveNative f path).1.text = (o'.serveNative f path).1.text ∧
      (o.serveNative f path).1.version = (o'.serveNative f path).1.version ∧
      (o.serveNative f path).2.Agree (o'.serveNative f path).2 := by
  rw [serveNative_eq, serveNative_eq, hcache]
  split
  · exact ⟨rfl, rfl, h.1, h.2, h.3, h.4, h.5, h.6⟩
  · exact h.serveFile path

theorem Agree.serve (h : o.Agree o') (hcache : o.cache = o'.cache) (path : String) :
    (o.serve r f path).1.text = (o'.serve r f path).1.text ∧
      (o.serve r f path).1.version = (o'.serve r f path).1.version ∧
      (o.serve r f path).2.Agree (o'.serve r f path).2 := by
  unfold Overlay.serve
  split
  · next t howner =>
    rw [serveCompiled_eq, serveCompiled_eq]
    obtain ⟨hfst, hsnd⟩ := h.sourceText (f := f) (Name.withoutExtension path)
    have hcache' := (sourceText_cache f o (Name.withoutExtension path)).trans
      (hcache.trans (sourceText_cache f o' (Name.withoutExtension path)).symm)
    generalize o.sourceText f (Name.withoutExtension path) = a at hfst hsnd hcache'
    generalize o'.sourceText f (Name.withoutExtension path) = a' at hfst hsnd hcache'
    obtain ⟨found, o₁⟩ := a
    obtain ⟨found', o₂⟩ := a'
    obtain rfl : found = found' := hfst
    replace hsnd : o₁.Agree o₂ := hsnd
    cases found with
    | none => exact ⟨rfl, rfl, hsnd.1, hsnd.2, hsnd.3, hsnd.4, hsnd.5, hsnd.6⟩
    | some found =>
      obtain ⟨heq, hagree⟩ := hsnd.serveFound hcache'
        ⟨t, Name.withoutExtension path, path, found.1, found.2⟩
      exact ⟨congrArg Snapshot.text heq, congrArg Snapshot.version heq, hagree⟩
  · exact h.serveNative hcache path

/-! ### Caches that agree with the documents -/

def CachedCompiled (r : Registry) (o : Overlay) : Prop :=
  ∀ c t e, r.owner? c = some t → o.cache.kept? c = some e →
    ∃ d source v, o.store.find? c = some d ∧ e.snapshot = .ofDocument d ∧
      o.store.find? (Name.withoutExtension c) = some source ∧ e.sourceVersion = some v ∧
      (v ≤ d.version ∨ source.source? ≠ none)

def CachedNative (r : Registry) (f : Files) (o : Overlay) : Prop :=
  ∀ p e, r.owner? p = none → o.cache.kept? p = some e →
    Shows f o p e.snapshot.text e.snapshot.version

theorem cachedCompiled_empty (r : Registry) : ({} : Overlay).CachedCompiled r := by
  intro c t e _ he
  simp [SnapshotCache.kept?] at he

theorem cachedNative_empty (r : Registry) (f : Files) : ({} : Overlay).CachedNative r f := by
  intro p e _ he
  simp [SnapshotCache.kept?] at he

theorem CachedCompiled.mono (h : o.CachedCompiled r) (hext : o.store.Extends o'.store)
    (hsame : ∀ c t e, r.owner? c = some t → o'.cache.kept? c = some e →
      o.cache.kept? c = some e ∧ ∀ d, o.store.find? c = some d → o'.store.find? c = some d) :
    o'.CachedCompiled r := by
  intro c t e howner he
  obtain ⟨he, hdoc⟩ := hsame c t e howner he
  obtain ⟨d, source, v, hd, hsnapshot, hsource, hv, hserved⟩ := h c t e howner he
  obtain ⟨source', hsource', hlater⟩ := hext _ source hsource
  refine ⟨d, source', v, hdoc d hd, hsnapshot, hsource', hv, ?_⟩
  rw [hlater.source?]
  exact hserved

theorem CachedCompiled.register (h : o.CachedCompiled r) (ho : o.store.Tidy) (path text : String)
    (version : Version) : (o.register r path text version).2.CachedCompiled r := by
  refine h.mono ?_ ?_
  · rw [register_store]
    exact (ho.register r path text version).2
  · intro c t e _ he
    rw [register_cache, SnapshotCache.kept?_dropAll] at he
    split at he
    · simp at he
    · next hc =>
      rw [register_store, Store.find?_register_of_not_invalidated ho hc]
      exact ⟨he, fun _ hd => hd⟩

theorem CachedCompiled.move {js : List Job} (h : o.CachedCompiled r) (ho : o.store.Tidy)
    (m : Move r f jobs o js o') : o'.CachedCompiled r := by
  have hext := (m.tidy ho).2
  have hstay := fun c d hd => m.find?_of_some (p := c) (d := d) ho hd
  cases m with
  | count => exact h
  | materialize | reserve =>
    exact h.mono hext fun c t e _ he => ⟨he, fun d hd => hstay c d hd (by simp)⟩
  | commit _ _ hd _ =>
    refine h.mono hext fun c t e _ he => ?_
    rw [committed_cache, SnapshotCache.kept?_drop] at he
    split at he
    · simp at he
    · next hc => exact ⟨he, fun d' hd' => hstay c d' hd' (by simpa using hc)⟩
  | @keep path _ hnone _ =>
    refine h.mono hext fun c t e howner he => ?_
    rw [SnapshotCache.kept?_insert] at he
    split at he
    · next hc => simp [← hc, hnone] at howner
    · exact ⟨he, fun _ hd => hd⟩
  | @keepFor compiled _ d source _ hd hsource hserved =>
    intro c t e howner he
    rw [SnapshotCache.kept?_insertFor] at he
    split at he
    · next hc =>
      subst hc
      obtain rfl := Option.some.inj he
      exact ⟨d, source, source.version, hd, rfl, hsource, rfl, hserved⟩
    · exact h c t e howner he
  | forget hsub => exact h.mono hext fun c t e _ he => ⟨hsub c e he, fun _ hd => hd⟩

theorem CachedNative.mono (h : o.CachedNative r f)
    (hsame : ∀ p e, r.owner? p = none → o'.cache.kept? p = some e →
      o.cache.kept? p = some e ∧ ∀ text version, Shows f o p text version →
        Shows f o' p text version) :
    o'.CachedNative r f := by
  intro p e howner he
  obtain ⟨he, hshows⟩ := hsame p e howner he
  exact hshows _ _ (h p e howner he)

theorem Shows.congr {p text : String} {version : Version}
    (hfind : o'.store.find? p = o.store.find? p) (h : Shows f o p text version) :
    Shows f o' p text version := by
  rw [Shows, hfind]
  exact h

theorem CachedNative.register (h : o.CachedNative r f) (ho : o.store.Tidy) (path text : String)
    (version : Version) : (o.register r path text version).2.CachedNative r f := by
  refine h.mono ?_
  intro p e _ he
  rw [register_cache, SnapshotCache.kept?_dropAll] at he
  split at he
  · simp at he
  · next hp =>
    refine ⟨he, fun text' version' hshows => ?_⟩
    rw [Shows, register_store, Store.find?_register_of_not_invalidated ho hp]
    exact hshows

theorem CachedNative.move {js : List Job} (h : o.CachedNative r f) (ho : o.store.Tidy)
    (m : Move r f jobs o js o') : o'.CachedNative r f := by
  cases m with
  | count => exact h
  | @materialize source text _ _ hnone hread =>
    refine h.mono fun p e _ he => ⟨he, fun text' version hshows => ?_⟩
    have hfind := (ho.materialize hnone text).2.2 p
    by_cases hp : source = p
    · subst hp
      simp only [Shows, hnone, hread, Option.some.injEq] at hshows
      rw [if_pos rfl] at hfind
      simp only [Shows, hfind]
      exact ⟨hshows.1.symm, hshows.2⟩
    · exact hshows.congr (hfind.trans (if_neg hp))
  | @reserve compiled _ howner hsource =>
    refine h.mono fun p e hp he => ⟨he, fun _ _ hshows => hshows.congr ?_⟩
    refine ((ho.reserve hsource _).2.2 p).trans (if_neg ?_)
    rintro rfl
    simp [hp] at howner
  | commit _ _ hd _ =>
    refine h.mono fun p e _ he => ?_
    rw [committed_cache, SnapshotCache.kept?_drop] at he
    split at he
    · simp at he
    · next hp =>
      refine ⟨he, fun _ _ hshows => hshows.congr ?_⟩
      rw [(committed_tidy ho hd _).2.2, if_neg hp]
  | @keep path s howner hshows =>
    intro p e hp he
    rw [SnapshotCache.kept?_insert] at he
    split at he
    · next heq =>
      subst heq
      obtain rfl := Option.some.inj he
      exact hshows
    · exact h p e hp he
  | keepFor howner _ _ _ =>
    refine h.mono fun p e hp he => ?_
    rw [SnapshotCache.kept?_insertFor] at he
    split at he
    · next heq => simp [heq, hp] at howner
    · exact ⟨he, fun _ _ hshows => hshows⟩
  | forget hsub => exact h.mono fun p e _ he => ⟨hsub p e he, fun _ _ hshows => hshows⟩

/-! ### Serving with and without the cache -/

def uncached (o : Overlay) : Overlay := { o with cache := {} }

theorem agree_uncached (o : Overlay) : o.Agree o.uncached := ⟨rfl, rfl, rfl, rfl, rfl, rfl⟩

theorem agree_keptFor (o : Overlay) (j : Job) (d : Document) : o.Agree (o.keptFor j d) :=
  ⟨rfl, rfl, rfl, rfl, rfl, rfl⟩

theorem find?_uncached (o : Overlay) (path : String) : o.uncached.cache.find? path = none := by
  simp [uncached, SnapshotCache.find?]

theorem findFor?_uncached (o : Overlay) (path : String) (version : Version) :
    o.uncached.cache.findFor? path version = none := by
  simp [uncached, SnapshotCache.findFor?]

theorem serveFound_eq_serveStale {j : Job} (ho : o.store.Tidy) (hc : o.CachedCompiled r)
    (hj : o.Current r j) :
    (o.serveFound j).1 = (o.serveStale j).1 ∧ (o.serveFound j).2.Agree (o.serveStale j).2 := by
  unfold serveFound
  cases hfound : o.cache.findFor? j.compiled j.version with
  | none => exact ⟨rfl, .refl _⟩
  | some s =>
    obtain ⟨hfits, source, hs, hbuffer, hversion⟩ := hj
    obtain ⟨v, hle, hkept⟩ := SnapshotCache.findFor?_eq_some hfound
    obtain ⟨d, source', v', hd, hsnapshot, hs', hv, hserved⟩ := hc _ _ _ hfits.owner hkept
    rw [← hfits.source, hs] at hs'
    obtain rfl := Option.some.inj hs'
    obtain rfl := Option.some.inj hv
    obtain rfl : s = .ofDocument d := hsnapshot
    have hreserve : o.store.reserve j.compiled j.source = (d, o.store) :=
      Store.reserve_of_some j.source hd
    have hstore : o.store = (o.missed j).store := congrArg Prod.snd hreserve.symm
    have hd' : (o.missed j).store.find? j.compiled = some d := by
      rw [← hstore, hd]
    -- Had the document been older than its source, no snapshot would be kept for that version.
    obtain ⟨hlt, hkind, -⟩ | ⟨-, -, heq⟩ | ⟨-, heq⟩ :=
      serveStale_cases ho hs hbuffer hfits.ne hd'
    · rcases hserved with hserved | hserved
      · exact absurd hlt (Int.not_lt.mpr (Int.le_trans hle hserved))
      · exact absurd hkind hserved
    · rw [heq]
      exact ⟨rfl, hstore, rfl, rfl, rfl, rfl, rfl⟩
    · rw [heq]
      exact ⟨rfl, hstore, rfl, rfl, rfl, rfl, rfl⟩

theorem serveFound_uncached {j : Job} (ho : o.store.Tidy) (hc : o.CachedCompiled r)
    (hj : o.Current r j) :
    (o.serveFound j).1 = (o.uncached.serveFound j).1 ∧
      (o.serveFound j).2.Agree (o.uncached.serveFound j).2 := by
  have heq : o.uncached.serveFound j = o.uncached.serveStale j := by
    rw [serveFound, findFor?_uncached]
  obtain ⟨hfst, hsnd⟩ := serveFound_eq_serveStale ho hc hj
  obtain ⟨hfst', hsnd'⟩ := o.agree_uncached.serveStale j
  rw [heq]
  exact ⟨hfst.trans hfst', hsnd.trans hsnd'⟩

theorem serveCompiled_uncached {path : String} {t : Transpiler} (ho : o.store.Tidy)
    (hc : o.CachedCompiled r) (howner : r.owner? path = some t) :
    (o.serveCompiled f path t).1.text = (o.uncached.serveCompiled f path t).1.text ∧
      (o.serveCompiled f path t).1.version = (o.uncached.serveCompiled f path t).1.version ∧
      (o.serveCompiled f path t).2.Agree (o.uncached.serveCompiled f path t).2 := by
  rw [serveCompiled_eq, serveCompiled_eq]
  cases hs : o.store.find? (Name.withoutExtension path) with
  | some source =>
    rw [sourceText_of_some hs, sourceText_of_some (o := o.uncached) hs]
    obtain ⟨heq, hagree⟩ := serveFound_uncached
      (j := ⟨t, Name.withoutExtension path, path, source.buffer, source.version⟩)
      ho hc ⟨⟨howner, rfl⟩, source, hs, rfl, rfl⟩
    exact ⟨congrArg Snapshot.text heq, congrArg Snapshot.version heq, hagree⟩
  | none =>
    cases hread : f.read? (Name.withoutExtension path) with
    | none =>
      rw [sourceText_of_none hs hread, sourceText_of_none (o := o.uncached) hs hread]
      exact ⟨rfl, rfl, rfl, rfl, rfl, rfl, rfl, rfl⟩
    | some text =>
      rw [sourceText_of_read hs hread, sourceText_of_read (o := o.uncached) hs hread]
      obtain ⟨htidy, -, hfind⟩ := ho.materialize hs text
      have hmat : Move r f [] o [] _ := .materialize (Registry.owner?_cases howner).1 hs hread
      have hc' := hc.move ho hmat
      obtain ⟨heq, hagree⟩ := serveFound_uncached
        (j := ⟨t, Name.withoutExtension path, path, _, storedVersion⟩)
        htidy hc' ⟨⟨howner, rfl⟩, _, (hfind _).trans (if_pos rfl), rfl, rfl⟩
      exact ⟨congrArg Snapshot.text heq, congrArg Snapshot.version heq, hagree⟩

theorem serveFile_of_shows {path text : String} {version : Version}
    (h : Shows f o path text version) :
    (o.serveFile f path).1.text = text ∧ (o.serveFile f path).1.version = version ∧
      o.Agree (o.serveFile f path).2 := by
  simp only [serveFile, show o.countMiss.store = o.store from rfl]
  cases hd : o.store.find? path with
  | some d =>
    simp only [Shows, hd] at h
    exact ⟨h.1.symm, h.2.symm, rfl, rfl, rfl, rfl, rfl, rfl⟩
  | none =>
    simp only [Shows, hd] at h
    simp only [h.1]
    exact ⟨rfl, h.2.symm, rfl, rfl, rfl, rfl, rfl, rfl⟩

theorem serveNative_uncached {path : String} (hc : o.CachedNative r f)
    (howner : r.owner? path = none) :
    (o.serveNative f path).1.text = (o.uncached.serveNative f path).1.text ∧
      (o.serveNative f path).1.version = (o.uncached.serveNative f path).1.version ∧
      (o.serveNative f path).2.Agree (o.uncached.serveNative f path).2 := by
  rw [serveNative_eq, serveNative_eq, find?_uncached]
  cases hfound : o.cache.find? path with
  | none => exact o.agree_uncached.serveFile path
  | some s =>
    obtain ⟨e, he, rfl⟩ := Option.map_eq_some_iff.mp hfound
    obtain ⟨htext, hversion, hagree⟩ := serveFile_of_shows (o := o.uncached) (hc path e howner he)
    exact ⟨htext.symm, hversion.symm, hagree.1, hagree.2, hagree.3, hagree.4, hagree.5, hagree.6⟩

/-- What is served, and what becomes of the overlay, does not depend on the cache. -/
theorem serve_uncached (ho : o.store.Tidy) (hc : o.CachedCompiled r) (hn : o.CachedNative r f)
    (path : String) :
    (o.serve r f path).1.text = (o.uncached.serve r f path).1.text ∧
      (o.serve r f path).1.version = (o.uncached.serve r f path).1.version ∧
      (o.serve r f path).2.Agree (o.uncached.serve r f path).2 := by
  unfold serve
  split
  · next t howner => exact serveCompiled_uncached ho hc howner
  · next howner => exact serveNative_uncached hn howner

end Overlay

-- A registration is used through its laws; unfolded it would make every comparison run lookups.
attribute [local irreducible] Store.register

/-! ### Sessions that forget -/

def Request.isForget : Request → Bool
  | .forget _ | .forgetAll => true
  | _ => false

namespace Session

variable {r : Registry} {f : Files} {s s' : Session} {request : Request}

structure Agree (s s' : Session) : Prop where
  overlay : s.overlay.Agree s'.overlay
  jobs : s.jobs = s'.jobs
  memo : s.project.memo = s'.project.memo
  settings : s.project.settings = s'.project.settings
  resolver : s.project.resolver = s'.project.resolver

theorem Agree.refl (s : Session) : s.Agree s := ⟨.refl _, rfl, rfl, rfl, rfl⟩

theorem Agree.trans {s'' : Session} (h : s.Agree s') (h' : s'.Agree s'') : s.Agree s'' :=
  ⟨h.1.trans h'.1, h.2.trans h'.2, h.3.trans h'.3, h.4.trans h'.4, h.5.trans h'.5⟩

theorem keeps_cachedCompiled (turn : Turn) :
    Keeps turn fun _ _ o => o.CachedCompiled turn.registry where
  register _ _ _ path text version _ ho h := h.register ho path text version
  collect _ _ _ _ _ _ h := h
  move _ _ _ _ _ ho m h := h.move ho m

/-- Snapshots of compiled paths stay good whatever becomes of the backing store. -/
theorem run_cachedCompiled (project : Project) {turns : List Turn}
    (hregistry : ∀ turn ∈ turns, turn.registry = r) :
    (run turns (opened project)).overlay.CachedCompiled r :=
  Keeps.run (s := opened project) (motive := fun _ _ o => o.CachedCompiled r)
    (fun turn hturn => hregistry turn hturn ▸ keeps_cachedCompiled turn) (steady_opened project)
    (Overlay.cachedCompiled_empty r)

theorem keeps_cachedNative (turn : Turn) :
    Keeps turn fun _ _ o => o.CachedNative turn.registry turn.files where
  register _ _ _ path text version _ ho h := h.register ho path text version
  collect _ _ _ _ _ _ h := h
  move _ _ _ _ _ ho m h := h.move ho m

/-- The session is steady and its snapshots are those that would be served without a cache. -/
structure Cached (r : Registry) (f : Files) (s : Session) : Prop where
  steady : s.Steady
  compiled : s.overlay.CachedCompiled r
  native : s.overlay.CachedNative r f

theorem cached_opened (r : Registry) (f : Files) (project : Project) :
    (opened project).Cached r f :=
  ⟨steady_opened project, Overlay.cachedCompiled_empty r, Overlay.cachedNative_empty r f⟩

theorem Cached.step (h : s.Cached r f) (request : Request) :
    (step ⟨r, f, request⟩ s).2.Cached r f :=
  ⟨h.steady.step _, (keeps_cachedCompiled ⟨r, f, request⟩).step h.steady h.compiled,
    (keeps_cachedNative ⟨r, f, request⟩).step h.steady h.native⟩

theorem Cached.run (h : s.Cached r f) (requests : List Request) :
    (run (requests.map (Turn.mk r f)) s).Cached r f := by
  induction requests generalizing s with
  | nil => exact h
  | cons request requests ih => exact ih (h.step request)

theorem step_forget (h : request.isForget = true) (s : Session) :
    (step ⟨r, f, request⟩ s).1 = .forgotten ∧ (step ⟨r, f, request⟩ s).2.Agree s := by
  cases request with
  | forget | forgetAll => exact ⟨rfl, ⟨rfl, rfl, rfl, rfl, rfl, rfl⟩, rfl, rfl, rfl, rfl⟩
  | _ => simp [Request.isForget] at h

theorem step_ne_forgotten (h : request.isForget = false) (s : Session) :
    (step ⟨r, f, request⟩ s).1 ≠ .forgotten := by
  cases request with
  | forget | forgetAll => simp [Request.isForget] at h
  | settle number =>
    simp only [step]
    split <;> simp
  | _ => simp [step]

theorem Agree.serve (h : s.Agree s') (hs : s.Cached r f) (hs' : s'.Cached r f) (path : String) :
    (step ⟨r, f, .serve path⟩ s).1 = (step ⟨r, f, .serve path⟩ s').1 ∧
      (step ⟨r, f, .serve path⟩ s).2.Agree (step ⟨r, f, .serve path⟩ s').2 := by
  obtain ⟨htext, hversion, hcold⟩ :=
    Overlay.serve_uncached hs.steady.tidy hs.compiled hs.native path
  obtain ⟨htext', hversion', hcold'⟩ :=
    Overlay.serve_uncached hs'.steady.tidy hs'.compiled hs'.native path
  have hbare : s.overlay.uncached.Agree s'.overlay.uncached :=
    s.overlay.agree_uncached.symm.trans (h.overlay.trans s'.overlay.agree_uncached)
  obtain ⟨htext'', hversion'', hcold''⟩ := hbare.serve (r := r) (f := f) rfl path
  have hserved := hcold.trans (hcold''.trans hcold'.symm)
  have htexts := htext.trans (htext''.trans htext'.symm)
  have hversions := hversion.trans (hversion''.trans hversion'.symm)
  simp only [Session.overlay] at hserved htexts hversions
  simp only [Session.step, Project.serve]
  refine ⟨?_, hserved, h.jobs, h.memo, h.settings, h.resolver⟩
  exact congrArg₂ Answer.snapshot htexts hversions

theorem Agree.step (h : s.Agree s') (hs : s.Cached r f) (hs' : s'.Cached r f)
    (hrequest : request.isForget = false) :
    (step ⟨r, f, request⟩ s).1 = (step ⟨r, f, request⟩ s').1 ∧
      (step ⟨r, f, request⟩ s).2.Agree (step ⟨r, f, request⟩ s').2 := by
  cases request with
  | register path text version =>
    obtain ⟨hfst, hsnd⟩ := h.overlay.register (r := r) path text version
    simp only [Session.step, Project.register]
    exact ⟨congrArg Answer.registered hfst, hsnd, h.jobs, h.memo, h.settings, h.resolver⟩
  | serve path => exact h.serve hs hs' path
  | collect =>
    obtain ⟨hfst, hsnd⟩ := h.overlay.collect (r := r) (f := f)
    refine ⟨congrArg (fun js : List Job => Answer.collected js.length) hfst, ?_,
      congrArg₂ (· ++ ·) h.jobs hfst, h.memo, h.settings, h.resolver⟩
    exact ⟨hsnd.1, hsnd.2, hsnd.3, hsnd.4, hsnd.5, hsnd.6⟩
  | settle number =>
    simp only [Session.step, h.jobs]
    cases s'.jobs[number]? with
    | none => exact ⟨rfl, h⟩
    | some j =>
      obtain ⟨hfst, hsnd⟩ := h.overlay.settle j j.run
      exact ⟨congrArg Answer.settled hfst, hsnd, h.jobs, h.memo, h.settings, h.resolver⟩
  | version path =>
    refine ⟨congrArg Answer.version ?_, h⟩
    simp only [Overlay.versionText, h.overlay.store]
  | provenance source =>
    refine ⟨congrArg Answer.provenance ?_, h⟩
    simp only [h.overlay.records]
  | position path line column =>
    refine ⟨congrArg Answer.position ?_, h⟩
    simp only [Overlay.sourcePosition?, h.overlay.records]
  | resolve importer names =>
    have hstore : s.project.overlay.store = s'.project.overlay.store := h.overlay.store
    simp only [Session.step, Project.resolveAll, hstore, h.memo, h.settings, h.resolver]
    exact ⟨trivial, h.overlay, h.jobs, rfl, rfl, rfl⟩
  | forget | forgetAll => simp [Request.isForget] at hrequest

theorem Agree.run (h : s.Agree s') (hs : s.Cached r f) (hs' : s'.Cached r f)
    (requests : List Request) :
    (answers (requests.map (Turn.mk r f)) s).filter (· ≠ .forgotten) =
        answers ((requests.filter fun q => !q.isForget).map (Turn.mk r f)) s' ∧
      (run (requests.map (Turn.mk r f)) s).Agree
        (run ((requests.filter fun q => !q.isForget).map (Turn.mk r f)) s') := by
  induction requests generalizing s s' with
  | nil => exact ⟨rfl, h⟩
  | cons request requests ih =>
    cases hrequest : request.isForget with
    | true =>
      obtain ⟨hanswer, hstep⟩ := step_forget (r := r) (f := f) hrequest s
      rw [List.filter_cons_of_neg (by simp [hrequest])]
      obtain ⟨hanswers, hrun⟩ := ih (hstep.trans h) (hs.step request) hs'
      simp only [List.map_cons, answers, Session.run]
      rw [List.filter_cons_of_neg (by simp [hanswer])]
      exact ⟨hanswers, hrun⟩
    | false =>
      obtain ⟨hanswer, hstep⟩ := h.step hs hs' hrequest
      rw [List.filter_cons_of_pos (by simp [hrequest])]
      obtain ⟨hanswers, hrun⟩ := ih hstep (hs.step request) (hs'.step request)
      have hne := step_ne_forgotten (r := r) (f := f) hrequest s
      simp only [List.map_cons, answers, Session.run]
      rw [List.filter_cons_of_pos (by simpa using hne), hanswer, hanswers]
      exact ⟨rfl, hrun⟩

/-- Forgetting snapshots between requests changes no other answer and nothing that lasts. -/
theorem run_forget (r : Registry) (f : Files) (project : Project) (requests : List Request) :
    let kept := requests.filter fun q => !q.isForget
    answers (kept.map (Turn.mk r f)) (opened project) =
        (answers (requests.map (Turn.mk r f)) (opened project)).filter (· ≠ .forgotten) ∧
      (run (requests.map (Turn.mk r f)) (opened project)).Agree
        (run (kept.map (Turn.mk r f)) (opened project)) := by
  have hopened := cached_opened r f project
  obtain ⟨hanswers, hrun⟩ := (Agree.refl _).run hopened hopened requests
  exact ⟨hanswers.symm, hrun⟩

end Session

end SourceOverlay
