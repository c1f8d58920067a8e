import SourceOverlay.Overlay
import SourceOverlay.Proofs.Documents

/-!
# Moves of an overlay

Registrations apart, whatever an overlay does it does by a few kinds of moves: it takes a source
from the backing store, reserves a compiled document, commits the result of a job, keeps or forgets
snapshots, and counts. What every move keeps is kept by every call, so an invariant has one case for
each kind. The moves of a call name the jobs whose results they took, so that statements about past
compiles need no record in the overlay itself.
-/

set_option autoImplicit false

namespace SourceOverlay

structure Job.Fits (r : Registry) (j : Job) : Prop where
  owner : r.owner? j.compiled = some j.transpiler
  source : j.source = Name.withoutExtension j.compiled

namespace Job.Fits

variable {r : Registry} {j : Job}

theorem find? (h : j.Fits r) : r.find? (Name.extension j.source) = some j.transpiler := by
  rw [h.source]
  exact (Registry.owner?_cases h.owner).1

theorem compiledName (h : j.Fits r) : j.transpiler.compiledName j.source = j.compiled := by
  rw [h.source]
  exact (Registry.owner?_cases h.owner).2.1

theorem ne (h : j.Fits r) : j.source ≠ j.compiled := by
  rw [h.source]
  exact (Registry.owner?_cases h.owner).2.2

theorem compiles (h : j.Fits r) : r.Compiles j.compiled :=
  ⟨j.source, j.transpiler, h.find?, h.compiledName⟩

theorem compiled_ne {name : String} (h : j.Fits r) (hname : ¬ r.Compiles name) :
    j.compiled ≠ name := fun heq => hname (heq ▸ h.compiles)

end Job.Fits

def Document.settled (d : Document) (version : Version) : Result → Document
  | .ok output => d.write output.code version
  | .error _ => d.setVersion version

@[simp] theorem Document.settled_version (d : Document) (version : Version) (result : Result) :
    (d.settled version result).version = version := by
  cases result <;> rfl

@[simp] theorem Document.settled_kind (d : Document) (version : Version) (result : Result) :
    (d.settled version result).kind = d.kind := by
  cases result <;> rfl

theorem Document.precedes_settled (d : Document) (version : Version) (result : Result) :
    d.Precedes (d.settled version result) := by
  cases result with
  | ok output => exact precedes_write d output.code version
  | error => exact precedes_setVersion d version

/-! ### The cache -/

namespace SnapshotCache

def kept? (c : SnapshotCache) (path : String) : Option Entry := c.entries[path]?

theorem kept?_insert (c : SnapshotCache) (path : String) (s : Snapshot) (p : String) :
    (c.insert path s).kept? p = if path = p then some ⟨s, none⟩ else c.kept? p := by
  simp [insert, kept?, Std.TreeMap.getElem?_insert]

theorem kept?_insertFor (c : SnapshotCache) (path : String) (s : Snapshot) (version : Version)
    (p : String) :
    (c.insertFor path s version).kept? p =
      if path = p then some ⟨s, some version⟩ else c.kept? p := by
  simp [insertFor, kept?, Std.TreeMap.getElem?_insert]

theorem kept?_drop (c : SnapshotCache) (path p : String) :
    (c.drop path).kept? p = if path = p then none else c.kept? p := by
  simp [drop, kept?, Std.TreeMap.getElem?_erase]

theorem kept?_dropAll (c : SnapshotCache) (paths : List String) (p : String) :
    (c.dropAll paths).kept? p = if p ∈ paths then none else c.kept? p := by
  induction paths generalizing c with
  | nil => simp [dropAll]
  | cons path paths ih =>
    rw [show c.dropAll (path :: paths) = (c.drop path).dropAll paths from rfl, ih, kept?_drop]
    by_cases hp : p ∈ paths
    · simp [hp]
    · by_cases heq : path = p <;> simp [hp, heq, eq_comm (a := p)]

theorem findFor?_eq_some {c : SnapshotCache} {path : String} {version : Version} {s : Snapshot}
    (h : c.findFor? path version = some s) :
    ∃ v, version ≤ v ∧ c.kept? path = some ⟨s, some v⟩ := by
  obtain ⟨e, he, rfl⟩ := Option.map_eq_some_iff.mp h
  obtain ⟨he, hv⟩ := Option.filter_eq_some_iff.mp he
  obtain ⟨v, hv, hle⟩ := (Option.any_eq_true _ _).mp hv
  refine ⟨v, by simpa using hle, ?_⟩
  rw [← hv]
  exact he

end SnapshotCache

namespace Overlay

variable {r : Registry} {f : Files} {jobs : List Job} {o : Overlay}

@[simp] theorem register_store (r : Registry) (o : Overlay) (path text : String)
    (version : Version) :
    (o.register r path text version).2.store = (o.store.register r path text version).2 := by
  simp only [register]

@[simp] theorem register_cache (r : Registry) (o : Overlay) (path text : String)
    (version : Version) :
    (o.register r path text version).2.cache =
      o.cache.dropAll (o.store.register r path text version).1.invalidated := by
  simp only [register]

/-! ### Settling -/

def committed (o : Overlay) (j : Job) (d : Document) (result : Result) : Overlay :=
  let o := { o with stats := { o.stats with compiles := o.stats.compiles + 1 } }
  let o :=
    match result with
    | .ok output => o.accept j d output
    | .error error => o.decline j d error
  { o with cache := o.cache.drop j.compiled }

@[simp] theorem committed_store (o : Overlay) (j : Job) (d : Document) (result : Result) :
    (o.committed j d result).store = o.store.put (d.settled j.version result) := by
  cases result <;> rfl

@[simp] theorem committed_cache (o : Overlay) (j : Job) (d : Document) (result : Result) :
    (o.committed j d result).cache = o.cache.drop j.compiled := by
  cases result <;> rfl

@[simp] theorem committed_calls (o : Overlay) (j : Job) (d : Document) (result : Result) :
    (o.committed j d result).calls = o.calls := by
  cases result <;> rfl

@[simp] theorem committed_compiles (o : Overlay) (j : Job) (d : Document) (result : Result) :
    (o.committed j d result).stats.compiles = o.stats.compiles + 1 := by
  cases result <;> rfl

theorem settle_of_not_holds {j : Job} (h : o.holds j = false) (result : Result) :
    o.settle j result = (false, o) := by
  simp [settle, h]

theorem settle_of_le {j : Job} {d : Document} (hd : o.store.find? j.compiled = some d)
    (h : j.version ≤ d.version) (result : Result) : o.settle j result = (false, o) := by
  simp [settle, Store.reserve_of_some _ hd, h]

theorem settle_of_lt {j : Job} {d : Document} (hj : o.holds j = true)
    (hd : o.store.find? j.compiled = some d) (h : d.version < j.version) (result : Result) :
    o.settle j result = (true, o.committed j d result) := by
  have hle : ¬ j.version ≤ d.version := Int.not_le.mpr h
  simp only [settle, hj, Store.reserve_of_some _ hd, if_neg hle]
  rfl

/-- A job whose document is there is either committed or leaves everything as it was. -/
theorem settle_cases {j : Job} {d : Document} (hd : o.store.find? j.compiled = some d)
    (result : Result) :
    (o.holds j = true ∧ d.version < j.version ∧
      o.settle j result = (true, o.committed j d result)) ∨
    (¬ (o.holds j = true ∧ d.version < j.version) ∧ o.settle j result = (false, o)) := by
  by_cases hj : o.holds j = true
  · by_cases h : d.version < j.version
    · exact .inl ⟨hj, h, settle_of_lt hj hd h result⟩
    · exact .inr ⟨fun hboth => h hboth.2, settle_of_le hd (Int.not_lt.mp h) result⟩
  · exact .inr ⟨fun hboth => hj hboth.1, settle_of_not_holds (by simpa using hj) result⟩

theorem holds_of_buffer {j : Job} {d : Document} (hd : o.store.find? j.source = some d)
    (h : j.buffer = d.buffer) : o.holds j = d.source?.isNone := by
  cases hs : d.source? with
  | none => simp [holds, Store.source?, hd, hs, h, Buffer.same]
  | some => simp [holds, Store.source?, hd, hs]

/-! ### Sources -/

theorem sourceText_of_some {source : String} {d : Document}
    (h : o.store.find? source = some d) (f : Files) :
    o.sourceText f source = (some (d.buffer, d.version), o) := by
  simp [sourceText, h]

theorem sourceText_of_read {source text : String} (h : o.store.find? source = none)
    (hf : f.read? source = some text) :
    o.sourceText f source =
      (some ((Document.ofDisk source text).buffer, storedVersion),
        { o with store := (o.store.materialize source text).2 }) := by
  simp only [sourceText, h, hf, Store.materialize, Store.ensure_of_none _ h]
  rfl

theorem sourceText_of_none {source : String} (h : o.store.find? source = none)
    (hf : f.read? source = none) : o.sourceText f source = (none, o) := by
  simp [sourceText, h, hf]

/-! ### Serving a compiled path -/

def serveStale (o : Overlay) (j : Job) : Snapshot × Overlay :=
  let (d, store) := o.countMiss.store.reserve j.compiled j.source
  ({ o.countMiss with store }.bringUp j d).serveDocument j

def serveFound (o : Overlay) (j : Job) : Snapshot × Overlay :=
  match o.cache.findFor? j.compiled j.version with
  | some s => (s, o.countHit)
  | none => o.serveStale j

theorem serveCompiled_eq (f : Files) (o : Overlay) (path : String) (t : Transpiler) :
    o.serveCompiled f path t =
      match o.sourceText f (Name.withoutExtension path) with
      | (none, o) => o.serveMissing
      | (some (buffer, version), o) =>
        o.serveFound ⟨t, Name.withoutExtension path, path, buffer, version⟩ := rfl

def missed (o : Overlay) (j : Job) : Overlay :=
  { o.countMiss with store := (o.store.reserve j.compiled j.source).2 }

def keptFor (o : Overlay) (j : Job) (d : Document) : Overlay :=
  { o with cache := o.cache.insertFor j.compiled (.ofDocument d) j.version }

theorem serveDocument_of_some {j : Job} {d : Document}
    (hd : o.store.find? j.compiled = some d) :
    o.serveDocument j = (.ofDocument d, o.keptFor j d) := by
  simp [serveDocument, Store.reserve_of_some _ hd, keptFor]

section Stale

variable {j : Job} {source : Document}

theorem missed_tidy (ho : o.store.Tidy) (hs : o.store.find? j.source = some source)
    (hne : j.source ≠ j.compiled) :
    (o.missed j).store.Tidy ∧ o.store.Extends (o.missed j).store ∧
      (o.missed j).store.find? j.source = some source ∧
      (o.missed j).store.find? j.compiled =
        some ((o.store.find? j.compiled).getD (.ofSource j.compiled j.source)) := by
  have hsource : (o.store.find? j.source).isSome = true := by simp [hs]
  obtain ⟨htidy, hext, hfind⟩ := ho.reserve hsource j.compiled
  refine ⟨htidy, hext, ?_, ?_⟩
  · exact (hfind j.source).trans (by rw [if_neg (Ne.symm hne), hs])
  · exact (hfind j.compiled).trans (by rw [if_pos rfl, Store.reserve_fst])

/-- How a compiled path is served when the cache missed: the source may be newer and the result
taken, or newer and the result refused because the source is itself a compiled document, or not
newer. -/
theorem serveStale_cases {d : Document} (ho : o.store.Tidy)
    (hs : o.store.find? j.source = some source) (hbuffer : j.buffer = source.buffer)
    (hne : j.source ≠ j.compiled) (hd : (o.missed j).store.find? j.compiled = some d) :
    (d.version < j.version ∧ source.source? = none ∧ ((o.missed j).call [j]).holds j = true ∧
      o.serveStale j = (.ofDocument (d.settled j.version j.run),
        (((o.missed j).call [j]).committed j d j.run).keptFor j (d.settled j.version j.run))) ∨
    (d.version < j.version ∧ source.source? ≠ none ∧
      o.serveStale j = (.ofDocument d, ((o.missed j).call [j]).keptFor j d)) ∨
    (j.version ≤ d.version ∧ o.serveStale j = (.ofDocument d, (o.missed j).keptFor j d)) := by
  obtain ⟨htidy, -, hsource, hd'⟩ := missed_tidy ho hs hne
  have heq : o.serveStale j = ((o.missed j).bringUp j d).serveDocument j := by
    rw [hd', ← Store.reserve_fst] at hd
    rw [← Option.some.inj hd]
    rfl
  have hholds : ((o.missed j).call [j]).holds j = source.source?.isNone :=
    holds_of_buffer (o := (o.missed j).call [j]) hsource hbuffer
  by_cases hlt : d.version < j.version
  · cases hkind : source.source? with
    | none =>
      rw [hkind] at hholds
      refine .inl ⟨hlt, rfl, hholds, ?_⟩
      rw [heq, bringUp, if_pos hlt, settle_of_lt (o := (o.missed j).call [j]) hholds hd hlt]
      apply serveDocument_of_some
      rw [committed_store]
      exact (htidy.replace hd (Document.precedes_settled d j.version j.run)).2.2 _ |>.trans
        (if_pos rfl)
    | some =>
      rw [hkind] at hholds
      refine .inr (.inl ⟨hlt, by simp, ?_⟩)
      rw [heq, bringUp, if_pos hlt, settle_of_not_holds hholds]
      exact serveDocument_of_some (o := (o.missed j).call [j]) hd
  · refine .inr (.inr ⟨Int.not_lt.mp hlt, ?_⟩)
    rw [heq, bringUp, if_neg hlt]
    exact serveDocument_of_some hd

end Stale

/-! ### Moves -/

def Shows (f : Files) (o : Overlay) (path text : String) (version : Version) : Prop :=
  match o.store.find? path with
  | some d => text = d.text ∧ version = d.version
  | none => f.read? path = some text ∧ version = storedVersion

structure Current (r : Registry) (o : Overlay) (j : Job) : Prop where
  fits : j.Fits r
  taken : ∃ d, o.store.find? j.source = some d ∧ j.buffer = d.buffer ∧ j.version = d.version

/-- One change of an overlay, with the jobs whose results it takes. Such a job is one of `jobs`,
which were collected before, or is current. -/
inductive Move (r : Registry) (f : Files) (jobs : List Job) (o : Overlay) :
    List Job → Overlay → Prop
  | count (hits misses loose : Nat) (calls : List Job) :
      Move r f jobs o [] { o with stats := { o.stats with hits, misses }, loose, calls }
  | materialize {source text : String} {t : Transpiler}
      (hsource : r.find? (Name.extension source) = some t)
      (hnone : o.store.find? source = none) (hread : f.read? source = some text) :
      Move r f jobs o [] { o with store := (o.store.materialize source text).2 }
  | reserve {compiled : String} {t : Transpiler} (howner : r.owner? compiled = some t)
      (hsource : (o.store.find? (Name.withoutExtension compiled)).isSome = true) :
      Move r f jobs o []
        { o with store := (o.store.reserve compiled (Name.withoutExtension compiled)).2 }
  | commit {j : Job} {d : Document} (hjob : j ∈ jobs ∨ o.Current r j) (hholds : o.holds j = true)
      (hd : o.store.find? j.compiled = some d) (hlt : d.version < j.version) :
      Move r f jobs o [j] (o.committed j d j.run)
  | keep {path : String} {s : Snapshot} (howner : r.owner? path = none)
      (hshows : Shows f o path s.text s.version) :
      Move r f jobs o [] { o with cache := o.cache.insert path s }
  | keepFor {compiled : String} {t : Transpiler} {d source : Document}
      (howner : r.owner? compiled = some t) (hd : o.store.find? compiled = some d)
      (hsource : o.store.find? (Name.withoutExtension compiled) = some source)
      (hserved : source.version ≤ d.version ∨ source.source? ≠ none) :
      Move r f jobs o []
        { o with cache := o.cache.insertFor compiled (.ofDocument d) source.version }
  | forget {cache : SnapshotCache}
      (hsub : ∀ p e, cache.kept? p = some e → o.cache.kept? p = some e) :
      Move r f jobs o [] { o with cache }

inductive Moves (r : Registry) (f : Files) (jobs : List Job) (o : Overlay) :
    List Job → Overlay → Prop
  | refl : Moves r f jobs o [] o
  | tail {js js' : List Job} {o' o'' : Overlay} (h : Moves r f jobs o js o')
      (m : Move r f jobs o' js' o'') : Moves r f jobs o (js' ++ js) o''

theorem Moves.quiet {js : List Job} {o' o'' : Overlay} (h : Moves r f jobs o js o')
    (m : Move r f jobs o' [] o'') : Moves r f jobs o js o'' := h.tail m

theorem Move.moves {js : List Job} {o' : Overlay} (m : Move r f jobs o js o') :
    Moves r f jobs o js o' := by
  have h : Moves r f jobs o (js ++ []) o' := .tail .refl m
  rwa [List.append_nil] at h

theorem Moves.trans {js js' : List Job} {o' o'' : Overlay} (h : Moves r f jobs o js o')
    (h' : Moves r f jobs o' js' o'') : Moves r f jobs o (js' ++ js) o'' := by
  induction h' with
  | refl => exact h
  | tail _ m ih => simpa using ih.tail m

/-! ### What moves keep -/

theorem committed_tidy {j : Job} {d : Document} (ho : o.store.Tidy)
    (hd : o.store.find? j.compiled = some d) (result : Result) :
    (o.committed j d result).store.Tidy ∧ o.store.Extends (o.committed j d result).store ∧
      ∀ q, (o.committed j d result).store.find? q =
        if j.compiled = q then some (d.settled j.version result) else o.store.find? q := by
  rw [committed_store]
  exact ho.replace hd (Document.precedes_settled d j.version result)

theorem Move.tidy {js : List Job} {o' : Overlay} (m : Move r f jobs o js o') (ho : o.store.Tidy) :
    o'.store.Tidy ∧ o.store.Extends o'.store := by
  cases m with
  | count | keep | keepFor | forget => exact ⟨ho, .refl _⟩
  | materialize _ hnone _ =>
    obtain ⟨htidy, hext, -⟩ := ho.materialize hnone _
    exact ⟨htidy, hext⟩
  | reserve _ hsource =>
    obtain ⟨htidy, hext, -⟩ := ho.reserve hsource _
    exact ⟨htidy, hext⟩
  | commit _ _ hd _ =>
    obtain ⟨htidy, hext, -⟩ := committed_tidy ho hd _
    exact ⟨htidy, hext⟩

/-- What a move can do to the document at a path: nothing, make one from the backing store or an
empty compiled one, or settle the result of a job in it. -/
theorem Move.find?_cases {js : List Job} {o' : Overlay} (m : Move r f jobs o js o')
    (ho : o.store.Tidy) (p : String) :
    o'.store.find? p = o.store.find? p ∨
    (o.store.find? p = none ∧ ∃ t text, r.find? (Name.extension p) = some t ∧
      f.read? p = some text ∧ o'.store.find? p = some (.ofDisk p text)) ∨
    (o.store.find? p = none ∧ ∃ t, r.owner? p = some t ∧
      o'.store.find? p = some (.ofSource p (Name.withoutExtension p))) ∨
    ∃ j d, js = [j] ∧ j.compiled = p ∧ (j ∈ jobs ∨ o.Current r j) ∧ o.holds j = true ∧
      o.store.find? p = some d ∧ o'.store.find? p = some (d.settled j.version j.run) := by
  cases m with
  | count | keep | keepFor | forget => exact .inl rfl
  | @materialize source text t hsource hnone hread =>
    have hfind := (ho.materialize hnone text).2.2 p
    by_cases hp : source = p
    · subst hp
      exact .inr (.inl ⟨hnone, t, text, hsource, hread, hfind.trans (if_pos rfl)⟩)
    · exact .inl (hfind.trans (if_neg hp))
  | @reserve compiled t howner hsource =>
    have hfind := (ho.reserve hsource compiled).2.2 p
    by_cases hp : compiled = p
    · subst hp
      rw [if_pos rfl, Store.reserve_fst] at hfind
      cases hd : o.store.find? compiled with
      | none =>
        rw [hd] at hfind
        exact .inr (.inr (.inl ⟨rfl, t, howner, hfind⟩))
      | some d =>
        rw [hd] at hfind
        exact .inl hfind
    · exact .inl (hfind.trans (if_neg hp))
  | @commit j d hjob hholds hd _ =>
    have hfind := (committed_tidy ho hd j.run).2.2 p
    by_cases hp : j.compiled = p
    · subst hp
      exact .inr (.inr (.inr ⟨j, d, rfl, rfl, hjob, hholds, hd, hfind.trans (if_pos rfl)⟩))
    · exact .inl (hfind.trans (if_neg hp))

theorem Move.find?_of_some {js : List Job} {o' : Overlay} {p : String} {d : Document}
    (m : Move r f jobs o js o') (ho : o.store.Tidy) (hd : o.store.find? p = some d)
    (hp : ∀ j ∈ js, j.compiled ≠ p) : o'.store.find? p = some d := by
  obtain h | ⟨hnone, -⟩ | ⟨hnone, -⟩ | ⟨j, -, rfl, hj, -⟩ := m.find?_cases ho p
  · exact h.trans hd
  · simp [hnone] at hd
  · simp [hnone] at hd
  · exact absurd hj (hp j List.mem_cons_self)

theorem Move.kind_cases {js : List Job} {o' : Overlay} {p : String} {d : Document}
    (m : Move r f jobs o js o') (ho : o.store.Tidy) (hd : o'.store.find? p = some d) :
    (∃ e, o.store.find? p = some e ∧ e.kind = d.kind) ∨ (∃ text, d = .ofDisk p text) ∨
      r.owner? p ≠ none ∧ d = .ofSource p (Name.withoutExtension p) := by
  obtain hsame | ⟨-, -, text, -, -, hnew⟩ | ⟨-, t, howner, hnew⟩ | ⟨j, e, -, -, -, -, he, hnew⟩ :=
    m.find?_cases ho p
  · exact .inl ⟨d, hsame.symm.trans hd, rfl⟩
  · exact .inr (.inl ⟨text, Option.some.inj (hd.symm.trans hnew)⟩)
  · exact .inr (.inr ⟨by simp [howner], Option.some.inj (hd.symm.trans hnew)⟩)
  · refine .inl ⟨e, he, ?_⟩
    rw [Option.some.inj (hd.symm.trans hnew), Document.settled_kind]

theorem Moves.tidy {js : List Job} {o' : Overlay} (h : Moves r f jobs o js o') (ho : o.store.Tidy) :
    o'.store.Tidy ∧ o.store.Extends o'.store := by
  induction h with
  | refl => exact ⟨ho, .refl _⟩
  | tail _ m ih =>
    obtain ⟨htidy, hext⟩ := m.tidy ih.1
    exact ⟨htidy, ih.2.trans hext⟩

/-- What every move keeps is kept along moves. The jobs that were taken are put before those taken
earlier. -/
theorem Moves.keep {motive : List Job → Overlay → Prop} {js taken : List Job} {o' : Overlay}
    (h : Moves r f jobs o taken o') (ho : o.store.Tidy)
    (hmove : ∀ js js' o o', o.store.Tidy → Move r f jobs o js' o' → motive js o →
      motive (js' ++ js) o')
    (hbase : motive js o) : motive (taken ++ js) o' := by
  induction h with
  | refl => exact hbase
  | tail h m ih =>
    rw [List.append_assoc]
    exact hmove _ _ _ _ (h.tidy ho).1 m ih

/-! ### Serving as moves -/

/-- The job whose result was taken between two states: the count of compiles tells whether there was
one, and the calls which one. -/
def taken (o o' : Overlay) : List Job :=
  if o.stats.compiles < o'.stats.compiles then o'.calls.drop o.calls.length else []

theorem taken_of_compiles {o o' : Overlay} (h : o'.stats.compiles = o.stats.compiles) :
    taken o o' = [] := by
  simp [taken, h]

theorem serveNative_moves (f : Files) (jobs : List Job) (o : Overlay) {path : String}
    (howner : r.owner? path = none) :
    Moves r f jobs o [] (o.serveNative f path).2 ∧
      (o.serveNative f path).2.stats.compiles = o.stats.compiles := by
  have hmiss : Move r f jobs o [] o.countMiss :=
    .count o.stats.hits (o.stats.misses + 1) o.loose o.calls
  unfold serveNative
  split
  · exact ⟨(Move.count (o.stats.hits + 1) o.stats.misses o.loose o.calls).moves, rfl⟩
  · simp only
    split
    · next d hd =>
      refine ⟨hmiss.moves.quiet (.keep (s := .ofDocument d) howner ?_), rfl⟩
      simp only [Shows, hd]
      exact ⟨rfl, rfl⟩
    · next hd =>
      split
      · next text htext =>
        have hfresh : Move r f jobs o [] o.countMiss.freshOrigin.2 :=
          .count o.stats.hits (o.stats.misses + 1) (o.loose + 1) o.calls
        refine ⟨hfresh.moves.quiet (.keep (s := ⟨⟨_, text⟩, storedVersion⟩) howner ?_), rfl⟩
        have hd' : o.countMiss.freshOrigin.2.store.find? path = none := hd
        simp only [Shows, hd', and_true]
        exact htext
      · exact ⟨(Move.count o.stats.hits (o.stats.misses + 1) (o.loose + 1) o.calls).moves, rfl⟩

theorem serveStale_moves {j : Job} (ho : o.store.Tidy) (hj : o.Current r j) :
    Moves r f jobs o (taken o (o.serveStale j).2) (o.serveStale j).2 := by
  obtain ⟨hfits, source, hs, hbuffer, hversion⟩ := hj
  have hne := hfits.ne
  obtain ⟨howner, hsource⟩ := hfits
  obtain ⟨htidy, -, hsource', hd⟩ := missed_tidy ho hs hne
  have hmissed : Moves r f jobs o [] (o.missed j) := by
    have hmiss : Move r f jobs o [] o.countMiss :=
      .count o.stats.hits (o.stats.misses + 1) o.loose o.calls
    refine hmiss.moves.quiet ?_
    have hfound : (o.countMiss.store.find? (Name.withoutExtension j.compiled)).isSome = true := by
      rw [← hsource]
      exact Option.isSome_iff_exists.mpr ⟨source, hs⟩
    have hres : Move r f jobs o.countMiss [] _ := .reserve howner hfound
    rw [← hsource] at hres
    exact hres
  have hcall : Move r f jobs (o.missed j) [] ((o.missed j).call [j]) :=
    .count _ _ _ ((o.missed j).calls ++ [j])
  -- Whatever document is served in the end, it is kept for the version of the source.
  have hkeep : ∀ (o' : Overlay) (d : Document), o'.store.find? j.compiled = some d →
      o'.store.find? j.source = some source →
      (source.version ≤ d.version ∨ source.source? ≠ none) →
      Move r f jobs o' [] (o'.keptFor j d) := by
    intro o' d hd hs hserved
    rw [keptFor, hversion]
    rw [hsource] at hs
    exact .keepFor howner hd hs hserved
  obtain ⟨hlt, hkind, hholds, heq⟩ | ⟨hlt, hkind, heq⟩ | ⟨hle, heq⟩ :=
    serveStale_cases ho hs hbuffer hne hd
  · obtain ⟨-, -, hfind⟩ := committed_tidy (o := (o.missed j).call [j]) htidy hd j.run
    have htaken : taken o (o.serveStale j).2 = [j] := by
      rw [heq]
      simp [taken, keptFor, call, missed, countMiss]
    have hcurrent : ((o.missed j).call [j]).Current r j :=
      ⟨⟨howner, hsource⟩, source, hsource', hbuffer, hversion⟩
    rw [htaken, heq]
    refine ((hmissed.quiet hcall).tail (.commit (.inr hcurrent) hholds hd hlt)).quiet
      (hkeep _ _ ?_ ?_ ?_)
    · rw [hfind, if_pos rfl]
    · rw [hfind, if_neg (Ne.symm hne)]
      exact hsource'
    · rw [Document.settled_version, hversion]
      exact .inl (Int.le_refl _)
  · have htaken : taken o (o.serveStale j).2 = [] := taken_of_compiles (by rw [heq]; rfl)
    rw [htaken, heq]
    exact (hmissed.quiet hcall).quiet (hkeep _ _ hd hsource' (.inr hkind))
  · have htaken : taken o (o.serveStale j).2 = [] := taken_of_compiles (by rw [heq]; rfl)
    rw [htaken, heq]
    exact hmissed.quiet (hkeep _ _ hd hsource' (.inl (hversion ▸ hle)))

theorem serveFound_moves {j : Job} (ho : o.store.Tidy) (hj : o.Current r j) :
    Moves r f jobs o (taken o (o.serveFound j).2) (o.serveFound j).2 := by
  unfold serveFound
  split
  · have htaken : taken o o.countHit = [] := taken_of_compiles rfl
    rw [htaken]
    exact (Move.count (o.stats.hits + 1) o.stats.misses o.loose o.calls).moves
  · exact serveStale_moves ho hj

theorem serve_moves (ho : o.store.Tidy) (path : String) :
    Moves r f jobs o (taken o (o.serve r f path).2) (o.serve r f path).2 := by
  unfold serve
  split
  · next t howner =>
    rw [serveCompiled_eq]
    cases hs : o.store.find? (Name.withoutExtension path) with
    | some source =>
      rw [sourceText_of_some hs]
      exact serveFound_moves
        (j := ⟨t, Name.withoutExtension path, path, source.buffer, source.version⟩)
        ho ⟨⟨howner, rfl⟩, source, hs, rfl, rfl⟩
    | none =>
      cases hread : f.read? (Name.withoutExtension path) with
      | none =>
        rw [sourceText_of_none hs hread]
        have htaken : taken o o.serveMissing.2 = [] := taken_of_compiles rfl
        simp only [htaken]
        exact (Move.count o.stats.hits o.stats.misses (o.loose + 1) o.calls).moves
      | some text =>
        rw [sourceText_of_read hs hread]
        obtain ⟨htidy, -, hfind⟩ := ho.materialize hs text
        have hmat : Move r f jobs o [] _ := .materialize (Registry.owner?_cases howner).1 hs hread
        have hall := hmat.moves.trans <| serveFound_moves
          (o := { o with store := (o.store.materialize _ text).2 })
          (j := ⟨t, Name.withoutExtension path, path, _, storedVersion⟩)
          htidy ⟨⟨howner, rfl⟩, _, (hfind _).trans (if_pos rfl), rfl, rfl⟩
        rw [List.append_nil] at hall
        exact hall
  · next howner =>
    obtain ⟨hmoves, hcompiles⟩ := serveNative_moves f jobs o howner
    rw [taken_of_compiles hcompiles]
    exact hmoves

/-! ### Collecting jobs -/

def Due (r : Registry) (o : Overlay) (j : Job) : Prop :=
  r.owner? j.compiled = some j.transpiler ∧
    ∃ d source, o.store.find? j.compiled = some d ∧ d.source? = some j.source ∧
      o.store.find? j.source = some source ∧ j.buffer = source.buffer ∧
      j.version = source.version ∧ d.version < source.version

theorem staleJob_pair (ho : o.store.Tidy) {compiled source : String}
    (hpair : (compiled, source) ∈ o.store.pairs) :
    (o.staleJob r f compiled source).2 = o ∧
      ∀ j, (o.staleJob r f compiled source).1 = some j ↔
        o.Due r j ∧ j.compiled = compiled ∧ j.source = source := by
  obtain ⟨d, hd, hsource⟩ := (Store.mem_pairs ho).mp hpair
  obtain ⟨s, hs⟩ := Option.isSome_iff_exists.mp (ho.sourced compiled d source hd hsource)
  unfold staleJob
  cases howner : r.owner? compiled with
  | none =>
    refine ⟨rfl, fun j => ⟨fun h => by simp at h, ?_⟩⟩
    rintro ⟨⟨hj, -⟩, rfl, -⟩
    simp [howner] at hj
  | some t =>
    simp only [sourceText_of_some hs, Store.reserve_of_some source hd, true_and]
    refine fun j => ⟨?_, ?_⟩
    · split
      · next hlt =>
        rintro ⟨⟩
        exact ⟨⟨howner, d, s, hd, hsource, hs, rfl, rfl, hlt⟩, rfl, rfl⟩
      · simp
    · rintro ⟨⟨hj, d', s', hd', -, hs', hbuffer, hversion, hlt⟩, rfl, rfl⟩
      obtain rfl := Option.some.inj (hd.symm.trans hd')
      obtain rfl := Option.some.inj (hs.symm.trans hs')
      obtain rfl := Option.some.inj (howner.symm.trans hj)
      rw [if_pos hlt, ← hbuffer, ← hversion]

theorem collectFrom_pairs (ho : o.store.Tidy) (pairs : List (String × String))
    (hpairs : ∀ p ∈ pairs, p ∈ o.store.pairs) :
    (collectFrom r f pairs o).2 = o ∧
      ∀ j, j ∈ (collectFrom r f pairs o).1 ↔ o.Due r j ∧ (j.compiled, j.source) ∈ pairs := by
  induction pairs with
  | nil => simp [collectFrom]
  | cons p rest ih =>
    obtain ⟨compiled, source⟩ := p
    obtain ⟨hstay, hjob⟩ := staleJob_pair (r := r) (f := f) ho (hpairs _ List.mem_cons_self)
    obtain ⟨hstay', hjobs⟩ := ih fun p hp => hpairs p (List.mem_cons_of_mem _ hp)
    simp only [collectFrom, hstay]
    refine ⟨hstay', fun j => ?_⟩
    rw [List.mem_append, Option.mem_toList, hjob, hjobs, List.mem_cons, Prod.mk.injEq, and_or_left]

/-- Collecting changes nothing, and gives the job of every document that is older than its
source. -/
theorem collect_eq (ho : o.store.Tidy) :
    (o.collect r f).2 = o ∧ ∀ j, j ∈ (o.collect r f).1 ↔ o.Due r j := by
  obtain ⟨hstay, hjobs⟩ := collectFrom_pairs (r := r) (f := f) ho o.store.pairs fun _ h => h
  refine ⟨hstay, fun j => (hjobs j).trans ⟨And.left, fun h => ⟨h, ?_⟩⟩⟩
  obtain ⟨-, d, -, hd, hsource, -⟩ := h
  exact (Store.mem_pairs ho).mpr ⟨d, hd, hsource⟩

end Overlay

end SourceOverlay
