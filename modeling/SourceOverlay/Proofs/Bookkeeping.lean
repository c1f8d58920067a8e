import Mathlib.Data.List.Induction
import SourceOverlay.Proofs.Sessions

/-!
# Bookkeeping

The books of a store are the list of the paths the engine was told of and the number of
registrations. Only a registration writes in them: it counts itself, and it adds one path at the end
unless that is listed already. Documents are made more freely, by registrations, by serving and by
settling, and the registry may be another one each time. Still a compiled document always goes by
the compiled name of its source under the registry of the turn that made it, and the source is never
taken away. So at every moment of every session the pairs of the store list each compiled document
once, in order, beside a source that is there and whose version the engine is told.

Nothing is ever struck from the list of known paths either, so it holds exactly the names that were
told in some turn. A source is among them only if it was told under its own name, while nothing
compiled it yet or as the compiled form of another file.
-/

set_option autoImplicit false

namespace SourceOverlay

def Registry.toldName (r : Registry) (path : String) : String :=
  match r.find? (Name.extension path) with
  | some t => t.compiledName path
  | none => path

theorem Registry.toldName_native {r : Registry} {path : String}
    (h : r.find? (Name.extension path) = none) : r.toldName path = path := by
  unfold toldName
  rw [h]

theorem Registry.toldName_alternate {r : Registry} {path : String} {t : Transpiler}
    (h : r.find? (Name.extension path) = some t) : r.toldName path = t.compiledName path := by
  unfold toldName
  rw [h]

namespace Store

/-! ### Known paths and the count -/

def books (s : Store) : List String × Nat := (s.known, s.projectVersion)

@[simp] theorem books_put (s : Store) (d : Document) : (s.put d).books = s.books := rfl

@[simp] theorem books_ensure (s : Store) (path : String) (fresh : Document) :
    (s.ensure path fresh).2.books = s.books := by
  unfold ensure
  split <;> rfl

@[simp] theorem books_materialize (s : Store) (path text : String) :
    (s.materialize path text).2.books = s.books := books_ensure s path _

@[simp] theorem books_reserve (s : Store) (compiled source : String) :
    (s.reserve compiled source).2.books = s.books := books_ensure s compiled _

@[simp] theorem books_receive (s : Store) (path text : String) (version : Version) :
    (s.receive path text version).2.books = s.books := by
  unfold receive
  split
  · split <;> rfl
  · rfl

@[simp] theorem books_pair (s : Store) (compiled source : String) (takenOver : Bool) :
    (s.pair compiled source takenOver).books = s.books := by
  have hreserve := books_reserve s compiled source
  simp only [pair]
  split
  · exact hreserve
  · exact hreserve

def listing (known : List String) (path : String) : List String :=
  if known.contains path then known else known ++ [path]

theorem prefix_listing (known : List String) (path : String) : known <+: listing known path := by
  unfold listing
  split
  · exact List.prefix_rfl
  · exact List.prefix_append known [path]

theorem mem_listing {known : List String} {path p : String} :
    p ∈ listing known path ↔ p ∈ known ∨ p = path := by
  unfold listing
  split
  · next h =>
    have hmem : path ∈ known := by simpa using h
    constructor
    · exact .inl
    · rintro (hp | rfl)
      · exact hp
      · exact hmem
  · simp

theorem nodup_listing {known : List String} (h : known.Nodup) (path : String) :
    (listing known path).Nodup := by
  unfold listing
  split
  · exact h
  · next hnew =>
    refine List.nodup_append.mpr ⟨h, by simp, ?_⟩
    rintro a ha b hb rfl
    have hpath : a = path := by simpa using hb
    simp [← hpath, ha] at hnew

theorem books_learn (s : Store) (path : String) :
    (s.learn path).books = (listing s.known path, s.projectVersion) := by
  unfold learn listing isKnown
  split <;> rfl

theorem books_register (s : Store) (r : Registry) (path text : String) (version : Version) :
    (s.register r path text version).2.books =
      (listing s.known (r.toldName path), s.projectVersion + 1) := by
  have hcounted := books_receive s.counted path text version
  cases h : r.find? (Name.extension path) with
  | none =>
    obtain ⟨hknown, hcount⟩ := Prod.mk.inj hcounted
    rw [register_native h, books_learn, hknown, hcount, Registry.toldName_native h]
    rfl
  | some t =>
    have hpair := books_pair (s.counted.receive path text version).2 (t.compiledName path) path
      ((s.find? path).any (·.isDisk))
    obtain ⟨hknown, hcount⟩ := Prod.mk.inj (hpair.trans hcounted)
    rw [register_alternate h, books_learn, hknown, hcount, Registry.toldName_alternate h]
    rfl

theorem find?_register_toldName {s : Store} (hs : s.Tidy) (r : Registry) (path text : String)
    (version : Version) :
    ((s.register r path text version).2.find? (r.toldName path)).isSome = true := by
  obtain ⟨htidy, -, hfind⟩ := hs.counted.receive path text version
  have hpath : ((s.counted.receive path text version).2.find? path).isSome = true := by
    simp [hfind]
  cases h : r.find? (Name.extension path) with
  | none =>
    rw [register_native h, find?_learn, Registry.toldName_native h]
    exact hpath
  | some t =>
    have hpair := (htidy.pair hpath (t.compiledName path) ((s.find? path).any (·.isDisk))).2.2
    rw [register_alternate h, find?_learn, Registry.toldName_alternate h]
    simp [hpair]

theorem find?_register_unpaired {s : Store} (hs : s.Tidy) {r : Registry} {path p : String}
    (hp : ∀ t, r.find? (Name.extension path) = some t → t.compiledName path ≠ p) (text : String)
    (version : Version) :
    (s.register r path text version).2.find? p =
      if path = p then some (.received (s.find? path) path text version) else s.find? p := by
  obtain ⟨htidy, -, hfind⟩ := hs.counted.receive path text version
  have hpath : ((s.counted.receive path text version).2.find? path).isSome = true := by
    simp [hfind]
  cases h : r.find? (Name.extension path) with
  | none => exact find?_register_native hs h text version p
  | some t =>
    have hpair := (htidy.pair hpath (t.compiledName path) ((s.find? path).any (·.isDisk))).2.2
    rw [register_alternate h, find?_learn, hpair, if_neg (hp t h)]
    exact hfind p

theorem find?_register_path {s : Store} (hs : s.Tidy) (r : Registry) (path text : String)
    (version : Version) :
    ((s.register r path text version).2.find? path).isSome = true := by
  by_cases hp : ∀ t, r.find? (Name.extension path) = some t → t.compiledName path ≠ path
  · rw [find?_register_unpaired hs hp, if_pos rfl]
    rfl
  · push Not at hp
    obtain ⟨t, h, hname⟩ := hp
    have htold := find?_register_toldName hs r path text version
    rwa [Registry.toldName_alternate h, hname] at htold

/-- A compiled document that is new after a registration is that of the registered path. -/
theorem register_created {s : Store} {r : Registry} {path text c source : String}
    {version : Version} {d : Document} (hs : s.Tidy) (hnone : s.find? c = none)
    (hd : (s.register r path text version).2.find? c = some d) (hsource : d.source? = some source) :
    ∃ t, r.find? (Name.extension source) = some t ∧ t.compiledName source = c := by
  by_cases hunpaired : ∀ t, r.find? (Name.extension path) = some t → t.compiledName path ≠ c
  · rw [find?_register_unpaired hs hunpaired] at hd
    split at hd
    · next hp =>
      -- At the registered path itself there is an editor's document.
      rw [hp, hnone] at hd
      rw [← Option.some.inj hd] at hsource
      simp [Document.received, Document.source?, Document.ofEditor] at hsource
    · simp [hnone] at hd
  · push Not at hunpaired
    obtain ⟨t, h, hname⟩ := hunpaired
    obtain ⟨htidy, -, hfind⟩ := hs.counted.receive path text version
    have hpath : ((s.counted.receive path text version).2.find? path).isSome = true := by
      simp [hfind]
    have hpair := (htidy.pair hpath c ((s.find? path).any (·.isDisk))).2.2 c
    rw [register_alternate h, find?_learn, hname, hpair, if_pos rfl] at hd
    rw [← Option.some.inj hd, paired_source?, hfind] at hsource
    have hcounted : s.counted.find? c = none := hnone
    by_cases hp : path = c
    · rw [if_pos hp, hp, hcounted] at hsource
      simp [Document.received, Document.source?, Document.ofEditor] at hsource
    · rw [if_neg hp, hcounted] at hsource
      obtain rfl : path = source := by
        simpa [Document.source?, Document.ofSource] using hsource
      exact ⟨t, h, hname⟩

/-! ### Pairs in order -/

theorem pairs_ascending {s : Store} (hs : s.Tidy) : s.pairs.Pairwise fun a b => a.1 < b.1 := by
  rw [pairs, TreeMap.values_eq_map_snd, List.pairwise_filterMap, List.pairwise_map]
  refine List.Pairwise.imp_of_mem ?_ Std.TreeMap.ordered_keys_toList
  rintro ⟨p, d⟩ ⟨q, e⟩ hd he hlt a ha b hb
  have hdp := hs.filed p d (Std.TreeMap.mem_toList_iff_getElem?_eq_some.mp hd)
  have heq := hs.filed q e (Std.TreeMap.mem_toList_iff_getElem?_eq_some.mp he)
  obtain ⟨-, -, rfl⟩ := Option.map_eq_some_iff.mp ha
  obtain ⟨-, -, rfl⟩ := Option.map_eq_some_iff.mp hb
  rw [hdp, heq]
  exact compareOfLessAndEq_eq_lt.mp hlt

structure Orderly (s : Store) : Prop where
  nodup : s.known.Nodup
  documented : ∀ p ∈ s.known, (s.find? p).isSome = true
  filed : ∀ p d, s.find? p = some d → d.path = p
  listed : ∀ c source, (c, source) ∈ s.pairs ↔ ∃ d, s.find? c = some d ∧ d.kind = .compiled source
  ascending : s.pairs.Pairwise fun a b => a.1 < b.1
  sourced : ∀ c source, (c, source) ∈ s.pairs → (s.find? source).isSome = true

theorem Tidy.orderly {s : Store} (hs : s.Tidy) (hnodup : s.known.Nodup)
    (hdocumented : ∀ p ∈ s.known, (s.find? p).isSome = true) : s.Orderly where
  nodup := hnodup
  documented := hdocumented
  filed := hs.filed
  listed c source := by
    simp only [mem_pairs hs, Document.source?_eq_some]
  ascending := pairs_ascending hs
  sourced c source hpair := by
    obtain ⟨d, hd, hsource⟩ := (mem_pairs hs).mp hpair
    exact hs.sourced c d source hd hsource

end Store

namespace Overlay

variable {r : Registry} {f : Files} {jobs js : List Job} {o o' : Overlay}

theorem Move.books (m : Move r f jobs o js o') : o'.store.books = o.store.books := by
  cases m with
  | count | keep | keepFor | forget => rfl
  | materialize => exact Store.books_materialize _ _ _
  | reserve => exact Store.books_reserve _ _ _
  | commit => rw [committed_store, Store.books_put]

theorem versionText_of_source {c source : String} {d e : Document}
    (hd : o.store.find? c = some d) (hsource : d.source? = some source)
    (he : o.store.find? source = some e) : o.versionText c = toString e.version := by
  simp [versionText, hd, hsource, he]

end Overlay

theorem Request.edit?_cases (request : Request) :
    request.edit? = none ∨ ∃ path text version, request = .register path text version := by
  cases request with
  | register path text version => exact .inr ⟨path, text, version, rfl⟩
  | _ => exact .inl rfl

theorem edits_concat (turns : List Turn) (turn : Turn) :
    edits (turns ++ [turn]) = edits turns ++ turn.request.edit?.toList := by
  rw [edits, List.filterMap_append, ← edits]
  cases h : turn.request.edit? <;> simp [h]

/-- The turn registers a file that the engine is told of as `p`. That is the file itself where its
extension has no transpiler at that moment, and otherwise its compiled form. -/
def Turn.Tells (turn : Turn) (p : String) : Prop :=
  ∃ path text version, turn.request = .register path text version ∧
    ((turn.registry.find? (Name.extension path) = none ∧ path = p) ∨
      ∃ t, turn.registry.find? (Name.extension path) = some t ∧ t.compiledName path = p)

theorem Turn.tells_iff {turn : Turn} {p : String} : turn.Tells p ↔
    ∃ path text version, turn.request = .register path text version ∧
      turn.registry.toldName path = p := by
  unfold Tells Registry.toldName
  refine exists_congr fun path => exists_congr fun _ => exists_congr fun _ => and_congr_right ?_
  intro _
  cases turn.registry.find? (Name.extension path) <;> simp

namespace Session

/-! ### Turns -/

variable {turn : Turn} {s : Session}

theorem run_concat (turns : List Turn) (turn : Turn) (s : Session) :
    run (turns ++ [turn]) s = (step turn (run turns s)).2 := run_append turns [turn] s

theorem step_register {path text : String} {version : Version}
    (h : turn.request = .register path text version) (s : Session) :
    (step turn s).2.overlay = (s.overlay.register turn.registry path text version).2 := by
  simp only [step, h, overlay, Project.register_overlay]

theorem step_extends (hs : s.Steady) (turn : Turn) :
    s.overlay.store.Extends (step turn s).2.overlay.store := by
  have hkeep : Keeps turn fun _ _ o => s.overlay.store.Extends o.store := by
    refine ⟨?_, fun _ _ _ _ _ _ h => h, ?_⟩
    · intro jobs js o path text version _ ho h
      rw [Overlay.register_store]
      exact h.trans (ho.register turn.registry path text version).2
    · intro jobs js o js' o' ho m h
      exact h.trans (m.tidy ho).2
  exact hkeep.step hs (.refl _)

theorem step_books (hs : s.Steady) (h : turn.request.edit? = none) :
    (step turn s).2.overlay.store.books = s.overlay.store.books := by
  have hkeep : Keeps turn fun _ _ o => o.store.books = s.overlay.store.books := by
    refine ⟨?_, fun _ _ _ _ _ _ h => h, ?_⟩
    · intro jobs js o path text version hrequest
      simp [hrequest, Request.edit?] at h
    · intro jobs js o js' o' _ m h
      exact m.books.trans h
  exact hkeep.step hs rfl

theorem step_register_books {path text : String} {version : Version}
    (h : turn.request = .register path text version) (s : Session) :
    (step turn s).2.overlay.store.books =
      (Store.listing s.overlay.store.known (turn.registry.toldName path),
        s.overlay.store.projectVersion + 1) := by
  rw [step_register h, Overlay.register_store, Store.books_register]

theorem step_known (hs : s.Steady) (turn : Turn) :
    s.overlay.store.known <+: (step turn s).2.overlay.store.known ∧
      (turn.request.edit? = none →
        (step turn s).2.overlay.store.known = s.overlay.store.known) := by
  have hquiet : turn.request.edit? = none →
      (step turn s).2.overlay.store.known = s.overlay.store.known := fun h =>
    (Prod.mk.inj (step_books hs h)).1
  refine ⟨?_, hquiet⟩
  obtain hnone | ⟨path, text, version, hrequest⟩ := turn.request.edit?_cases
  · exact ⟨[], by rw [hquiet hnone, List.append_nil]⟩
  · rw [(Prod.mk.inj (step_register_books hrequest s)).1]
    exact Store.prefix_listing _ _

theorem keeps_listed (turn : Turn) : Keeps turn fun _ _ o =>
    o.store.known.Nodup ∧ ∀ p ∈ o.store.known, (o.store.find? p).isSome = true := by
  refine ⟨?_, fun _ _ _ _ _ _ h => h, ?_⟩
  · intro jobs js o path text version _ ho ⟨hnodup, hdocumented⟩
    obtain ⟨-, hext⟩ := ho.register turn.registry path text version
    have hknown := (Prod.mk.inj (o.store.books_register turn.registry path text version)).1
    rw [Overlay.register_store, hknown]
    refine ⟨Store.nodup_listing hnodup _, fun p hp => ?_⟩
    rcases Store.mem_listing.mp hp with hp | hp
    · exact hext.isSome (hdocumented p hp)
    · rw [hp]
      exact Store.find?_register_toldName ho turn.registry path text version
  · intro jobs js o js' o' ho m ⟨hnodup, hdocumented⟩
    rw [(Prod.mk.inj m.books).1]
    exact ⟨hnodup, fun p hp => (m.tidy ho).2.isSome (hdocumented p hp)⟩

theorem run_projectVersion (turns : List Turn) (project : Project) :
    (run turns (opened project)).overlay.store.projectVersion = (edits turns).length := by
  induction turns using List.reverseRecOn with
  | nil => rfl
  | append_singleton turns turn ih =>
    have hs := (steady_opened project).run turns
    rw [run_concat, edits_concat, List.length_append, ← ih]
    obtain hnone | ⟨path, text, version, hrequest⟩ := turn.request.edit?_cases
    · rw [(Prod.mk.inj (step_books hs hnone)).2]
      simp [hnone]
    · rw [(Prod.mk.inj (step_register_books hrequest _)).2]
      simp [hrequest, Request.edit?]

/-! ### The making of compiled documents -/

theorem step_created {c source : String} {d : Document} (hs : s.Steady)
    (hnone : s.overlay.store.find? c = none)
    (hd : (step turn s).2.overlay.store.find? c = some d) (hsource : d.source? = some source) :
    ∃ t, turn.registry.find? (Name.extension source) = some t ∧ t.compiledName source = c := by
  have hkeep : Keeps turn fun _ _ o => ∀ d source, o.store.find? c = some d →
      d.source? = some source →
      ∃ t, turn.registry.find? (Name.extension source) = some t ∧ t.compiledName source = c := by
    refine ⟨?_, fun _ _ _ _ _ _ h => h, ?_⟩
    · intro jobs js o path text version _ ho h d source hd hsource
      rw [Overlay.register_store] at hd
      cases hold : o.store.find? c with
      | none => exact Store.register_created ho hold hd hsource
      | some e =>
        obtain ⟨d', hd', hprecedes⟩ := (ho.register turn.registry path text version).2 c e hold
        obtain rfl := Option.some.inj (hd'.symm.trans hd)
        exact h e source hold (hprecedes.source?.symm.trans hsource)
    · intro jobs js o js' o' ho m h d source hd hsource
      cases hold : o.store.find? c with
      | none =>
        obtain hsame | ⟨-, -, text, -, -, hnew⟩ | ⟨-, t, howner, hnew⟩ |
          ⟨-, e, -, -, -, -, he, -⟩ := m.find?_cases ho c
        · simp [hsame, hold] at hd
        · rw [← Option.some.inj (hnew.symm.trans hd)] at hsource
          simp [Document.source?, Document.ofDisk] at hsource
        · rw [← Option.some.inj (hnew.symm.trans hd)] at hsource
          obtain rfl : Name.withoutExtension c = source := by
            simpa [Document.source?, Document.ofSource] using hsource
          obtain ⟨hfind, hname, -⟩ := Registry.owner?_cases howner
          exact ⟨t, hfind, hname⟩
        · simp [hold] at he
      | some e =>
        obtain ⟨d', hd', hprecedes⟩ := (m.tidy ho).2 c e hold
        obtain rfl := Option.some.inj (hd'.symm.trans hd)
        exact h e source hold (hprecedes.source?.symm.trans hsource)
  refine hkeep.step hs ?_ d source hd hsource
  intro e _ he
  simp [hnone] at he

/-- Some turn made the document at a path, and the registry of that turn had a transpiler for the
source whose target extension, after the source, gives the path. -/
def Created (project : Project) (turns : List Turn) (c source : String) : Prop :=
  ∃ before turn after t, turns = before ++ turn :: after ∧
    (run before (opened project)).overlay.store.find? c = none ∧
    ((run (before ++ [turn]) (opened project)).overlay.store.find? c).isSome = true ∧
    turn.registry.find? (Name.extension source) = some t ∧ c = source ++ t.target

theorem run_created (project : Project) {turns : List Turn} {c source : String} {d : Document}
    (hd : (run turns (opened project)).overlay.store.find? c = some d)
    (hsource : d.source? = some source) : Created project turns c source := by
  induction turns using List.reverseRecOn generalizing d with
  | nil => simp [run, opened, overlay, Store.find?] at hd
  | append_singleton turns turn ih =>
    have hs := (steady_opened project).run turns
    cases hold : (run turns (opened project)).overlay.store.find? c with
    | none =>
      have hd' := hd
      rw [run_concat] at hd'
      obtain ⟨t, hfind, hname⟩ := step_created hs hold hd' hsource
      exact ⟨turns, turn, [], t, rfl, hold, by simp [hd], hfind, hname.symm⟩
    | some e =>
      rw [run_concat] at hd
      obtain ⟨d', hd', hprecedes⟩ := step_extends hs turn c e hold
      obtain rfl := Option.some.inj (hd'.symm.trans hd)
      obtain ⟨before, turn', after, t, rfl, hnone, hsome, hfind, hname⟩ :=
        ih hold (hprecedes.source?.symm.trans hsource)
      exact ⟨before, turn', after ++ [turn], t, by simp, hnone, hsome, hfind, hname⟩

/-- What holds of the store at every moment of every session, whatever became of the registry and of
the backing store in between, and what the next turn can do to it. -/
theorem run_orderly (project : Project) (turns : List Turn) :
    let s := run turns (opened project)
    s.overlay.store.Orderly ∧
    (∀ turn, s.overlay.store.Extends (step turn s).2.overlay.store ∧
      s.overlay.store.known <+: (step turn s).2.overlay.store.known ∧
      (turn.request.edit? = none →
        (step turn s).2.overlay.store.known = s.overlay.store.known)) ∧
    s.overlay.store.projectVersion = (edits turns).length ∧
    ∀ c source, (c, source) ∈ s.overlay.store.pairs → Created project turns c source ∧
      ∃ d, s.overlay.store.find? source = some d ∧
        s.overlay.versionText c = toString d.version := by
  have hopened := steady_opened project
  have hs := hopened.run turns
  obtain ⟨hnodup, hdocumented⟩ := Keeps.run (s := opened project)
    (fun turn (_ : turn ∈ turns) => keeps_listed turn) hopened
    ⟨List.nodup_nil, by simp [opened, overlay]⟩
  have horderly := hs.tidy.orderly hnodup hdocumented
  refine ⟨horderly, fun turn => ⟨step_extends hs turn, step_known hs turn⟩,
    run_projectVersion turns project, fun c source hpair => ?_⟩
  obtain ⟨d, hd, hkind⟩ := (horderly.listed c source).mp hpair
  have hsource := Document.source?_eq_some.mpr hkind
  obtain ⟨e, he⟩ := Option.isSome_iff_exists.mp (horderly.sourced c source hpair)
  exact ⟨run_created project hd hsource, e, he, Overlay.versionText_of_source hd hsource he⟩

/-! ### What the engine was told -/

theorem mem_known_step (hs : s.Steady) (turn : Turn) (p : String) :
    p ∈ (step turn s).2.overlay.store.known ↔ p ∈ s.overlay.store.known ∨ turn.Tells p := by
  rw [Turn.tells_iff]
  obtain hnone | ⟨path, text, version, hrequest⟩ := turn.request.edit?_cases
  · rw [(step_known hs turn).2 hnone]
    constructor
    · exact .inl
    · rintro (hp | ⟨path, text, version, hrequest, -⟩)
      · exact hp
      · simp [hrequest, Request.edit?] at hnone
  · rw [(Prod.mk.inj (step_register_books hrequest s)).1, Store.mem_listing, hrequest]
    simp [eq_comm]

theorem mem_known_iff (project : Project) (turns : List Turn) (p : String) :
    p ∈ (run turns (opened project)).overlay.store.known ↔ ∃ turn ∈ turns, turn.Tells p := by
  induction turns using List.reverseRecOn with
  | nil => simp [run, opened, overlay]
  | append_singleton turns turn ih =>
    rw [run_concat, mem_known_step ((steady_opened project).run turns), ih]
    simp [or_and_right, exists_or]

theorem tells_of_alternate {source compiled : String}
    (h : (step turn s).1 = .registered (.alternate source compiled)) : turn.Tells compiled := by
  obtain ⟨r, f, request⟩ := turn
  cases request with
  | register path text version =>
    have hregistration : (s.overlay.store.register r path text version).1 =
        .alternate source compiled := by
      simpa [step, Project.register, Overlay.register, overlay] using h
    cases ht : r.find? (Name.extension path) with
    | none => simp [Store.register_native ht] at hregistration
    | some t =>
      rw [Store.register_alternate ht] at hregistration
      injection hregistration with _ hname
      exact ⟨path, text, version, rfl, .inr ⟨t, ht, hname⟩⟩
  | settle number =>
    simp only [step] at h
    split at h <;> simp at h
  | _ => simp [step] at h

/-- From the answer that pairs a source with its compiled form on, the compiled form is known, and
the source is known only if some turn told the engine of that very path. -/
theorem known_of_alternate (project : Project) (before after : List Turn) (turn : Turn)
    {source compiled : String}
    (h : (step turn (run before (opened project))).1 =
      .registered (.alternate source compiled)) :
    let turns := before ++ turn :: after
    let known := (run turns (opened project)).overlay.store.known
    compiled ∈ known ∧ (source ∈ known ↔ ∃ told ∈ turns, told.Tells source) := by
  refine ⟨?_, mem_known_iff project _ source⟩
  rw [mem_known_iff]
  exact ⟨turn, by simp, tells_of_alternate h⟩

/-- One file is registered before its transpiler is there and once more behind it, another one only
behind it. -/
def lateTurns : List Turn :=
  [⟨{}, .ofRead fun _ => none, .register "/p/a.v" "one" 1⟩,
    ⟨.copying, .ofRead fun _ => none, .register "/p/b.v" "two" 1⟩,
    ⟨.copying, .ofRead fun _ => none, .serve "/p/b.v.ts"⟩,
    ⟨.copying, .ofRead fun _ => none, .register "/p/a.v" "three" 2⟩,
    ⟨.copying, .ofRead fun _ => none, .collect⟩]

theorem known_of_alternate_copying :
    let known := (run lateTurns (opened sample)).overlay.store.known
    ("/p/b.v.ts" ∈ known ∧ "/p/b.v" ∉ known) ∧ "/p/a.v.ts" ∈ known ∧ "/p/a.v" ∈ known := by
  have hb : (step ⟨.copying, .ofRead fun _ => none, .register "/p/b.v" "two" 1⟩
      (run (lateTurns.take 1) (opened sample))).1 =
        .registered (.alternate "/p/b.v" "/p/b.v.ts") := by decide +kernel
  have ha : (step ⟨.copying, .ofRead fun _ => none, .register "/p/a.v" "three" 2⟩
      (run (lateTurns.take 3) (opened sample))).1 =
        .registered (.alternate "/p/a.v" "/p/a.v.ts") := by decide +kernel
  have htold : Turn.Tells ⟨{}, .ofRead fun _ => none, .register "/p/a.v" "one" 1⟩ "/p/a.v" :=
    ⟨_, _, _, rfl, .inl ⟨by decide, rfl⟩⟩
  obtain ⟨hcompiled, hsource⟩ :=
    known_of_alternate sample (lateTurns.take 1) (lateTurns.drop 2) _ hb
  obtain ⟨hcompiled', hsource'⟩ :=
    known_of_alternate sample (lateTurns.take 3) (lateTurns.drop 4) _ ha
  refine ⟨⟨hcompiled, ?_⟩, hcompiled', hsource'.mpr ⟨_, List.mem_cons_self, htold⟩⟩
  intro hknown
  obtain ⟨told, hmem, htells⟩ := hsource.mp hknown
  obtain ⟨path, text, version, hrequest, hname⟩ := Turn.tells_iff.mp htells
  -- No turn tells the engine of the file under its own name.
  have hnone : ∀ turn ∈ lateTurns,
      turn.request.edit?.map (fun edit => turn.registry.toldName edit.path) ≠ some "/p/b.v" := by
    decide +kernel
  exact hnone told hmem (by simp [hrequest, Request.edit?, hname])

def Exposes (before : List Turn) (turn : Turn) (source compiled : String) : Prop :=
  (step turn (run before (opened sample))).1 = .registered (.alternate source compiled) ∧
    source ∈ (run (before ++ [turn]) (opened sample)).overlay.store.known

/-- A source stays known that was registered before its transpiler was, and so does one that is
itself the compiled form of another file. -/
theorem late_and_chained_expose :
    let f := Files.ofRead fun _ => none
    let chain := Registry.ofList
      [.make ".a" ".b" Registry.copy, .make ".b" ".c" Registry.copy]
    Exposes [⟨{}, f, .register "/p/a.v" "one" 1⟩]
        ⟨.copying, f, .register "/p/a.v" "two" 2⟩ "/p/a.v" "/p/a.v.ts" ∧
      Exposes [⟨chain, f, .register "/p/x.a" "one" 1⟩]
        ⟨chain, f, .register "/p/x.a.b" "two" 1⟩ "/p/x.a.b" "/p/x.a.b.c" := by
  refine ⟨⟨?_, ?_⟩, ?_, ?_⟩ <;> decide +kernel

end Session

end SourceOverlay
