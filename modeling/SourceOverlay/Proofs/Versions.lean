import Std.Data.String.ToInt
import SourceOverlay.Proofs.Freshness

/-!
# What versions tell

The engine asks for a text again only when the version it was told has changed. That is safe over a
backing store that does not change: wherever the same version is told twice, the same text is
served. Three things are needed beyond what freshness needs. Editors count from one, since zero
stands for what was read from the backing store and for what is not known; no two sources share a
compiled name; and no source lies in the backing store under a compiled name. The theorems on fixed
sessions at the end show that none can be left out.

The text at a compiled path is decided by the source alone if the source compiles. If it does not,
the results taken before matter. Between two moments at which the source has one version all results
that are taken come from that version, so they fail too and change no text.
-/

set_option autoImplicit false

namespace SourceOverlay

-- A registration is used through its laws; unfolded it would make every comparison run lookups.
attribute [local irreducible] Store.register

/-! ### Texts and their versions -/

/-- The text is what editors gave for the path at this version, or what the backing store holds if
the version is that of stored texts. -/
def Stands (f : Files) (given : List Edit) (p text : String) (version : Version) : Prop :=
  version = storedVersion ∧ f.read? p = some text ∨ ⟨p, text, version⟩ ∈ given

theorem Stands.unique {r : Registry} {f : Files} {given : List Edit} {p text text' : String}
    {version : Version} (hgiven : Regular r given) (hpos : ∀ e ∈ given, 1 ≤ e.version)
    (h : Stands f given p text version) (h' : Stands f given p text' version) : text = text' := by
  have hzero : ∀ text, version = storedVersion → ⟨p, text, version⟩ ∉ given := by
    rintro text rfl hmem
    have hone : 1 ≤ storedVersion := hpos _ hmem
    exact absurd hone (by decide)
  rcases h with ⟨hv, h⟩ | h
  · rcases h' with ⟨-, h'⟩ | h'
    · exact Option.some.inj (h.symm.trans h')
    · exact absurd h' (hzero text' hv)
  · rcases h' with ⟨hv, -⟩ | h'
    · exact absurd h (hzero text hv)
    · exact hgiven.unique _ h _ h' rfl rfl

namespace Store

def versionAt (s : Store) (p : String) : Version := ((s.find? p).map (·.version)).getD storedVersion

theorem versionAt_of_some {s : Store} {p : String} {d : Document} (h : s.find? p = some d) :
    s.versionAt p = d.version := by
  simp [versionAt, h]

theorem versionAt_of_none {s : Store} {p : String} (h : s.find? p = none) :
    s.versionAt p = storedVersion := by
  simp [versionAt, h]

theorem versionAt_congr {s s' : Store} {p : String} (h : s'.find? p = s.find? p) :
    s'.versionAt p = s.versionAt p := by
  rw [versionAt, h, versionAt]

end Store

def Document.Stored (f : Files) (p : String) (d : Document) : Prop :=
  d.kind = .disk → f.read? p = some d.text

namespace Overlay

variable {r : Registry} {given : List Edit} {f : Files} {jobs js js' : List Job} {o o' : Overlay}

/-- What holds beyond soundness over a backing store that stays as it is. -/
structure Versioned (r : Registry) (f : Files) (given : List Edit) (jobs js : List Job)
    (o : Overlay) : Prop where
  sound : Sound r given jobs js o
  stored : o.store.Every (Document.Stored f)
  /-- An editor's source has its compiled document beside it. -/
  paired : ∀ p t d, r.find? (Name.extension p) = some t → o.store.find? p = some d →
    d.kind = .editor → (o.store.find? (t.compiledName p)).isSome = true
  /-- A compiled document at a path that nobody owns comes from an editor's source. -/
  edited : ∀ p d source, o.store.find? p = some d → d.source? = some source →
    r.owner? p = none → ∃ e, o.store.find? source = some e ∧ e.kind = .editor
  /-- Results were taken of sources that are no compiled ones, as these were given or stored. -/
  taken : ∀ j ∈ js, ¬ r.Compiles j.source ∧ Stands f given j.source j.buffer.text j.version

theorem versioned_empty (r : Registry) (f : Files) (given : List Edit) :
    Versioned r f given [] [] {} := by
  refine ⟨sound_empty r given, Store.every_empty _, ?_, ?_, by simp⟩
  · intro p t d _ hd
    simp [Store.find?] at hd
  · intro p d source hd
    simp [Store.find?] at hd

theorem Versioned.stands {p : String} {d : Document} (h : Versioned r f given jobs js o)
    (hd : o.store.find? p = some d) (hsource : d.source? = none) :
    Stands f given p d.text d.version := by
  have hknown := h.sound.known p d hd
  cases hkind : d.kind with
  | editor =>
    simp only [Document.Known, hkind] at hknown
    exact .inr hknown.2
  | disk =>
    simp only [Document.Known, hkind] at hknown
    exact .inl ⟨hknown.2, h.stored p d hd hkind⟩
  | compiled => simp [Document.source?, hkind] at hsource

theorem editor_of_extends {p : String} {e : Document} (h : o.store.Extends o'.store)
    (he : o.store.find? p = some e) (hkind : e.kind = .editor) :
    ∃ e', o'.store.find? p = some e' ∧ e'.kind = .editor := by
  obtain ⟨e', he', hprecedes⟩ := h p e he
  refine ⟨e', he', ?_⟩
  rcases hprecedes.kind with hsame | ⟨hdisk, -⟩
  · exact hsame.trans hkind
  · simp [hkind] at hdisk

theorem kind_received (d? : Option Document) (path text : String) (version : Version) :
    (Document.received d? path text version).kind ≠ .disk := by
  cases d? with
  | none => simp [Document.received, Document.ofEditor]
  | some d =>
    simp only [Document.received]
    split
    · next hold =>
      have hdisk := d.isDisk_of_isEditor (Bool.and_eq_true_iff.mp hold).1
      simpa [Document.isDisk] using hdisk
    · unfold Document.promote
      split
      · simp [Document.write]
      · next hdisk => simpa [Document.isDisk, Document.write] using hdisk

theorem register_find? {path : String} (ho : o.store.Tidy) (hpath : ¬ r.Compiles path)
    (text : String) (version : Version) :
    (o.register r path text version).2.store.find? path =
      some (.received (o.store.find? path) path text version) := by
  rw [register_store]
  cases hfind : r.find? (Name.extension path) with
  | none => rw [Store.find?_register_native ho hfind, if_pos rfl]
  | some t =>
    have hne := Registry.compiledName_ne hpath hfind
    rw [Store.find?_register_alternate ho hfind hne, if_neg hne, if_pos rfl]

theorem register_editor {path : String} (h : Sound r given jobs js o) (ho : o.store.Tidy)
    (hpath : ¬ r.Compiles path) (text : String) (version : Version) :
    ∃ e, (o.register r path text version).2.store.find? path = some e ∧ e.kind = .editor := by
  refine ⟨_, register_find? ho hpath text version, ?_⟩
  have hdisk := kind_received (o.store.find? path) path text version
  cases hkind : (Document.received (o.store.find? path) path text version).kind with
  | editor => rfl
  | disk => exact absurd hkind hdisk
  | compiled source =>
    cases hd : o.store.find? path with
    | none => simp [hd, Document.received, Document.ofEditor] at hkind
    | some d =>
      have hsource := Document.source?_eq_some.mpr hkind
      rw [hd, (Document.precedes_received d path text version).source?] at hsource
      exact absurd ((h.traced.placed path d hd).compiles hsource) hpath

theorem register_find?_of_ne {path p : String} (ho : o.store.Tidy) (hpath : ¬ r.Compiles path)
    (hp : ¬ r.Compiles p) (hne : path ≠ p) (text : String) (version : Version) :
    (o.register r path text version).2.store.find? p = o.store.find? p := by
  rw [register_store]
  cases hfind : r.find? (Name.extension path) with
  | none => rw [Store.find?_register_native ho hfind, if_neg hne]
  | some t =>
    rw [Store.find?_register_alternate ho hfind (Registry.compiledName_ne hpath hfind),
      if_neg (Registry.compiledName_ne hp hfind), if_neg hne]

theorem Versioned.register_paired {path text : String} {version : Version}
    (h : Versioned r f given jobs js o) (hr : r.Unambiguous) (ho : o.store.Tidy)
    (hgiven : Regular r given) (hedit : ⟨path, text, version⟩ ∈ given) {p : String} {t : Transpiler}
    {d : Document} (hp : r.find? (Name.extension p) = some t)
    (hd : (o.register r path text version).2.store.find? p = some d) (hkind : d.kind = .editor) :
    ((o.register r path text version).2.store.find? (t.compiledName p)).isSome = true := by
  have hpath := hgiven.apart _ hedit
  by_cases heq : path = p
  · subst heq
    rw [register_store,
      Store.find?_register_alternate ho hp (Registry.compiledName_ne hpath hp), if_pos rfl]
    rfl
  · have hknown := (h.sound.register hr ho hgiven hedit).known p d hd
    have hapart := hknown.apart (by simp [Document.source?, hkind])
    rw [register_find?_of_ne ho hpath hapart heq] at hd
    rw [register_store]
    exact (ho.register r path text version).2.isSome (h.paired p t d hp hd hkind)

theorem Versioned.register_edited {path text : String} {version : Version}
    (h : Versioned r f given jobs js o) (hr : r.Unambiguous) (ho : o.store.Tidy)
    (hgiven : Regular r given) (hedit : ⟨path, text, version⟩ ∈ given) {p source : String}
    {d : Document} (hd : (o.register r path text version).2.store.find? p = some d)
    (hsource : d.source? = some source) (howner : r.owner? p = none) :
    ∃ e, (o.register r path text version).2.store.find? source = some e ∧ e.kind = .editor := by
  have hpath := hgiven.apart _ hedit
  have hext : o.store.Extends (o.register r path text version).2.store := by
    rw [register_store]
    exact (ho.register r path text version).2
  cases hold : o.store.find? p with
  | some e =>
    obtain ⟨d', hd', hprecedes⟩ := hext p e hold
    obtain rfl := Option.some.inj (hd'.symm.trans hd)
    rw [hprecedes.source?] at hsource
    obtain ⟨e', he', hkind⟩ := h.edited p e source hold hsource howner
    exact editor_of_extends hext he' hkind
  | none =>
    -- A new compiled document is that of the registered source.
    have hplaced := (h.sound.register hr ho hgiven hedit).traced.placed p d hd
    have hne : path ≠ p := by
      rintro rfl
      exact hpath (hplaced.compiles hsource)
    rw [register_store] at hd
    cases hfind : r.find? (Name.extension path) with
    | none =>
      rw [Store.find?_register_native ho hfind, if_neg hne, hold] at hd
      simp at hd
    | some t =>
      rw [Store.find?_register_alternate ho hfind (Registry.compiledName_ne hpath hfind),
        if_neg hne, hold] at hd
      split at hd
      · next hname =>
        subst hname
        obtain rfl := hplaced.source_eq hr hfind hsource
        exact register_editor h.sound ho hpath text version
      · simp at hd

theorem Versioned.register {path text : String} {version : Version}
    (h : Versioned r f given jobs js o) (hr : r.Unambiguous) (ho : o.store.Tidy)
    (hgiven : Regular r given) (hedit : ⟨path, text, version⟩ ∈ given) :
    Versioned r f given jobs js (o.register r path text version).2 := by
  refine ⟨h.sound.register hr ho hgiven hedit, ?_, ?_, ?_, h.taken⟩
  · rw [register_store]
    refine h.stored.register ho text version ?_ ?_
    · exact fun hkind => absurd hkind (kind_received _ path text version)
    · intro t hfind
      refine ⟨Registry.compiledName_ne (hgiven.apart _ hedit) hfind, ?_, fun d hd => hd⟩
      simp [Document.Stored, Document.ofSource]
  · intro p t d hp hd hkind
    exact h.register_paired hr ho hgiven hedit hp hd hkind
  · intro p d source hd hsource howner
    exact h.register_edited hr ho hgiven hedit hd hsource howner

theorem Versioned.move_stored (h : Versioned r f given jobs js o) (ho : o.store.Tidy)
    (hfiles : f.Apart r) (m : Move r f jobs o js' o') : o'.store.Every (Document.Stored f) := by
  intro p d hd hkind
  obtain hsame | ⟨-, t, text, -, hread, hnew⟩ | ⟨-, t, -, hnew⟩ | ⟨j, e, rfl, rfl, hjob, -, -, -⟩ :=
    m.find?_cases ho p
  · exact h.stored p d (hsame.symm.trans hd) hkind
  · rw [← Option.some.inj (hnew.symm.trans hd)]
    exact hread
  · rw [← Option.some.inj (hnew.symm.trans hd)] at hkind
    simp [Document.ofSource] at hkind
  · have hfits := (h.sound.traced.known ho hjob).1
    have hknown := h.sound.move_known ho hfiles m _ d hd
    exact absurd hfits.compiles (hknown.apart (by simp [Document.source?, hkind]))

theorem Versioned.move_paired (h : Versioned r f given jobs js o) (ho : o.store.Tidy)
    (m : Move r f jobs o js' o') {p : String} {t : Transpiler} {d : Document}
    (hp : r.find? (Name.extension p) = some t) (hd : o'.store.find? p = some d)
    (hkind : d.kind = .editor) : (o'.store.find? (t.compiledName p)).isSome = true := by
  obtain ⟨e, he, hsame⟩ | ⟨text, rfl⟩ | ⟨-, rfl⟩ := m.kind_cases ho hd
  · exact (m.tidy ho).2.isSome (h.paired p t e hp he (hsame.trans hkind))
  · simp [Document.ofDisk] at hkind
  · simp [Document.ofSource] at hkind

theorem Versioned.move_edited (h : Versioned r f given jobs js o) (ho : o.store.Tidy)
    (m : Move r f jobs o js' o') {p source : String} {d : Document}
    (hd : o'.store.find? p = some d) (hsource : d.source? = some source)
    (howner : r.owner? p = none) : ∃ e, o'.store.find? source = some e ∧ e.kind = .editor := by
  obtain ⟨e, he, hsame⟩ | ⟨text, rfl⟩ | ⟨howner', -⟩ := m.kind_cases ho hd
  · rw [Document.source?_eq_some, ← hsame, ← Document.source?_eq_some] at hsource
    obtain ⟨e', he', hkind⟩ := h.edited p e source he hsource howner
    exact editor_of_extends (m.tidy ho).2 he' hkind
  · simp [Document.source?, Document.ofDisk] at hsource
  · exact absurd howner howner'

theorem Versioned.move_taken (h : Versioned r f given jobs js o) (ho : o.store.Tidy)
    (m : Move r f jobs o js' o') :
    ∀ j ∈ js' ++ js, ¬ r.Compiles j.source ∧ Stands f given j.source j.buffer.text j.version := by
  cases m with
  | count | materialize | reserve | keep | keepFor | forget => exact h.taken
  | @commit j d hjob hholds _ _ =>
    obtain ⟨hfits, hheld⟩ := h.sound.traced.known ho hjob
    obtain ⟨source, hsource, hnone, hbuffer, hversion⟩ := hheld.current ho hholds
    refine List.forall_mem_cons.mpr ⟨⟨?_, ?_⟩, h.taken⟩
    · exact (h.sound.known _ source hsource).apart hnone
    · rw [hbuffer, hversion]
      exact h.stands hsource hnone

theorem Versioned.move (h : Versioned r f given jobs js o) (hr : r.Unambiguous)
    (ho : o.store.Tidy) (hgiven : Regular r given) (hfiles : f.Apart r)
    (m : Move r f jobs o js' o') : Versioned r f given jobs (js' ++ js) o' where
  sound := h.sound.move hr ho hgiven hfiles m
  stored := h.move_stored ho hfiles m
  paired _ _ _ hp hd hkind := h.move_paired ho m hp hd hkind
  edited _ _ _ hd hsource howner := h.move_edited ho m hd hsource howner
  taken := h.move_taken ho m

/-! ### What there is of a source -/

def shown? (f : Files) (o : Overlay) (p : String) : Option String :=
  match o.store.find? p with
  | some d => some d.text
  | none => f.read? p

theorem shows_of_shown? {p text : String} (h : o.shown? f p = some text) :
    Shows f o p text (o.store.versionAt p) := by
  cases hd : o.store.find? p with
  | some d =>
    simp only [shown?, hd, Option.some.injEq] at h
    simp only [Shows, hd, Store.versionAt_of_some hd]
    exact ⟨h.symm, trivial⟩
  | none =>
    simp only [shown?, hd] at h
    simp only [Shows, hd, Store.versionAt_of_none hd]
    exact ⟨h, trivial⟩

theorem Versioned.source?_eq_none {p : String} {d : Document} (h : Versioned r f given jobs js o)
    (hp : ¬ r.Compiles p) (hd : o.store.find? p = some d) : d.source? = none :=
  (h.sound.traced.placed p d hd).source?_eq_none hp

/-- The version of a path decides its text. -/
theorem Versioned.shown?_iff {p text : String} (h : Versioned r f given jobs js o)
    (hgiven : Regular r given) (hpos : ∀ e ∈ given, 1 ≤ e.version) (hp : ¬ r.Compiles p) :
    o.shown? f p = some text ↔ Stands f given p text (o.store.versionAt p) := by
  cases hd : o.store.find? p with
  | some d =>
    have hstands := h.stands hd (h.source?_eq_none hp hd)
    simp only [shown?, hd, Store.versionAt_of_some hd, Option.some.injEq]
    constructor
    · rintro rfl
      exact hstands
    · exact hstands.unique hgiven hpos
  | none =>
    simp only [shown?, hd, Store.versionAt_of_none hd]
    constructor
    · exact fun hread => .inl ⟨rfl, hread⟩
    · rintro (⟨-, hread⟩ | hmem)
      · exact hread
      · have hone : 1 ≤ storedVersion := hpos _ hmem
        exact absurd hone (by decide)

theorem Versioned.shown?_congr {jobs' : List Job} {p : String} (h : Versioned r f given jobs js o)
    (h' : Versioned r f given jobs' js' o') (hgiven : Regular r given)
    (hpos : ∀ e ∈ given, 1 ≤ e.version) (hp : ¬ r.Compiles p)
    (hversion : o.store.versionAt p = o'.store.versionAt p) :
    o.shown? f p = o'.shown? f p := by
  apply Option.ext
  intro text
  rw [h.shown?_iff hgiven hpos hp, h'.shown?_iff hgiven hpos hp, hversion]

/-! ### The versions that are told -/

theorem Versioned.versionText_plain {p : String} (h : Versioned r f given jobs js o)
    (hp : ¬ r.Compiles p) : o.versionText p = toString (o.store.versionAt p) := by
  cases hd : o.store.find? p with
  | some d =>
    rw [Store.versionAt_of_some hd]
    simp [versionText, hd, h.source?_eq_none hp hd]
  | none =>
    rw [Store.versionAt_of_none hd]
    simp only [versionText, hd]
    rfl

theorem Versioned.versionText_compiled {p : String} {t : Transpiler}
    (h : Versioned r f given jobs js o) (hr : r.Unambiguous) (ho : o.store.Tidy)
    (hp : r.find? (Name.extension p) = some t) (hapart : ¬ r.Compiles p) :
    o.versionText (t.compiledName p) = toString (o.store.versionAt p) := by
  cases hd : o.store.find? (t.compiledName p) with
  | some d =>
    cases hsource : d.source? with
    | none => exact absurd ⟨p, t, hp, rfl⟩ ((h.sound.known _ d hd).apart hsource)
    | some source =>
      obtain rfl := (h.sound.traced.placed _ d hd).source_eq hr hp hsource
      obtain ⟨e, he⟩ := Option.isSome_iff_exists.mp (ho.sourced _ d source hd hsource)
      rw [Store.versionAt_of_some he]
      simp [versionText, hd, hsource, he]
  | none =>
    -- An editor would have left a compiled document here.
    have hstored : o.store.versionAt p = storedVersion := by
      cases he : o.store.find? p with
      | none => exact Store.versionAt_of_none he
      | some e =>
        rw [Store.versionAt_of_some he]
        have hknown := h.sound.known p e he
        cases hkind : e.kind with
        | disk =>
          simp only [Document.Known, hkind] at hknown
          exact hknown.2
        | editor => simpa [hd] using h.paired p t e hp he hkind
        | compiled source =>
          have hnone := h.source?_eq_none hapart he
          simp [Document.source?, hkind] at hnone
    simp only [hstored, versionText, hd]
    rfl

/-- At a compiled path that nobody owns a document is empty and has an editor's version. -/
theorem Versioned.unowned {p : String} {d : Document} (h : Versioned r f given jobs js o)
    (hpos : ∀ e ∈ given, 1 ≤ e.version) (hp : r.Compiles p) (howner : r.owner? p = none)
    (hd : o.store.find? p = some d) : d.text = "" ∧ o.versionText p ≠ unknownVersion := by
  constructor
  · have hcoded := h.sound.coded p hp
    rw [Store.textAt_of_some hd] at hcoded
    rw [hcoded]
    apply lastCode_of_ne
    rintro j hj rfl
    simp [(h.sound.traced.fits j (.inr hj)).owner] at howner
  · cases hsource : d.source? with
    | none => exact absurd hp ((h.sound.known p d hd).apart hsource)
    | some source =>
      obtain ⟨e, he, hkind⟩ := h.edited p d source hd hsource howner
      have hknown := h.sound.known source e he
      simp only [Document.Known, hkind] at hknown
      have hone : 1 ≤ e.version := hpos _ hknown.2
      have htext : o.versionText p = toString e.version := by
        simp [versionText, hd, hsource, he]
      intro hzero
      rw [htext, show unknownVersion = toString (0 : Version) from rfl] at hzero
      rw [Int.repr_inj.mp hzero] at hone
      exact absurd hone (by decide)

/-! ### What is served -/

theorem serve_native {p : String} (hcached : o.CachedNative r f) (howner : r.owner? p = none) :
    (o.serve r f p).1.text = (o.shown? f p).getD "" := by
  simp only [serve, howner, serveNative_eq]
  cases hfound : o.cache.find? p with
  | some s =>
    obtain ⟨e, he, rfl⟩ := Option.map_eq_some_iff.mp hfound
    have hshows := hcached p e howner he
    cases hd : o.store.find? p with
    | some d =>
      simp only [Shows, hd] at hshows
      simp [shown?, hd, hshows.1]
    | none =>
      simp only [Shows, hd] at hshows
      simp [shown?, hd, hshows.1]
  | none =>
    simp only [serveFile, show o.countMiss.store = o.store from rfl]
    cases hd : o.store.find? p with
    | some d =>
      simp only [shown?, hd]
      rfl
    | none =>
      simp only [shown?, hd]
      cases f.read? p <;> rfl

theorem Versioned.serve_compiled {c : String} {t : Transpiler} (h : Versioned r f given jobs js o)
    (hr : r.Unambiguous) (ho : o.store.Tidy) (hgiven : Regular r given) (hfiles : f.Apart r)
    (hcached : o.CachedCompiled r) (howner : r.owner? c = some t)
    (hapart : ¬ r.Compiles (Name.withoutExtension c)) :
    (o.serve r f c).1.text =
      match o.shown? f (Name.withoutExtension c) with
      | some text => expected js c (t.run (Name.withoutExtension c) text)
      | none => "" := by
  cases hshown : o.shown? f (Name.withoutExtension c) with
  | some text =>
    exact (h.sound.serve hr ho hgiven hfiles hcached howner hapart (shows_of_shown? hshown)).2
  | none =>
    cases hd : o.store.find? (Name.withoutExtension c) with
    | some d => simp [shown?, hd] at hshown
    | none =>
      simp only [shown?, hd] at hshown
      simp only [serve, howner, serveCompiled_eq, sourceText_of_none hd hshown]
      rfl

theorem Versioned.serveStale_layered {j : Job} (h : Versioned r f given jobs js o)
    (ho : o.store.Tidy) (hj : o.Current r j) (hcompiles : r.Compiles j.source) :
    (o.serveStale j).1.text = "" := by
  obtain ⟨hfits, source, hs, hbuffer, -⟩ := hj
  have hempty : ((o.store.find? j.compiled).getD (.ofSource j.compiled j.source)).text = "" := by
    have hcoded := h.sound.coded j.compiled hfits.compiles
    rw [lastCode_of_ne] at hcoded
    · rw [Store.textAt] at hcoded
      cases hc : o.store.find? j.compiled with
      | none => rfl
      | some d => simpa [hc] using hcoded
    · intro i hi heq
      have hsources : i.source = j.source := by
        rw [(h.sound.traced.fits i (.inr hi)).source, hfits.source, heq]
      exact (h.taken i hi).1 (hsources ▸ hcompiles)
  obtain ⟨-, -, -, hd⟩ := missed_tidy ho hs hfits.ne
  obtain ⟨-, hnone, -⟩ | ⟨-, -, heq⟩ | ⟨-, heq⟩ := serveStale_cases ho hs hbuffer hfits.ne hd
  · exact absurd hcompiles ((h.sound.known _ source hs).apart hnone)
  · rw [heq]
    exact hempty
  · rw [heq]
    exact hempty

theorem Versioned.serve_layered {c : String} {t : Transpiler} (h : Versioned r f given jobs js o)
    (ho : o.store.Tidy) (hfiles : f.Apart r) (hcached : o.CachedCompiled r)
    (howner : r.owner? c = some t) (hcompiles : r.Compiles (Name.withoutExtension c)) :
    (o.serve r f c).1.text = "" := by
  simp only [serve, howner, serveCompiled_eq]
  cases hs : o.store.find? (Name.withoutExtension c) with
  | none =>
    cases hread : f.read? (Name.withoutExtension c) with
    | none =>
      rw [sourceText_of_none hs hread]
      rfl
    | some text =>
      exact absurd hcompiles (hfiles _ t text (Registry.owner?_cases howner).1 hread)
  | some source =>
    have hj : o.Current r ⟨t, Name.withoutExtension c, c, source.buffer, source.version⟩ :=
      ⟨⟨howner, rfl⟩, source, hs, rfl, rfl⟩
    rw [sourceText_of_some hs]
    simp only [(serveFound_eq_serveStale ho hcached hj).1]
    exact h.serveStale_layered ho hj hcompiles

/-! ### Between two moments -/

/-- Since a moment at which the source had some version and the jobs of `past` had been taken, the
version has not fallen, and the jobs taken of the source had versions in between. -/
structure Since (source : String) (version : Version) (past js : List Job) (o : Overlay) :
    Prop where
  rises : version ≤ o.store.versionAt source
  later : ∃ new, js = new ++ past ∧ ∀ j ∈ new, j.source = source →
    version ≤ j.version ∧ j.version ≤ o.store.versionAt source

theorem Sound.register_versionAt {path text p : String} {version : Version}
    (h : Sound r given jobs js o) (ho : o.store.Tidy) (hgiven : Regular r given)
    (hedit : ⟨path, text, version⟩ ∈ given) (hp : ¬ r.Compiles p) :
    o.store.versionAt p ≤ (o.register r path text version).2.store.versionAt p := by
  have hpath := hgiven.apart _ hedit
  by_cases heq : path = p
  · subst heq
    have hversion : 0 ≤ version := hgiven.nonneg _ hedit
    rw [Store.versionAt_of_some (register_find? ho hpath text version)]
    cases hd : o.store.find? path with
    | none =>
      rw [Store.versionAt_of_none hd]
      exact hversion
    | some d =>
      have hknown := h.known path d hd
      rw [Store.versionAt_of_some hd]
      simp only [Document.received]
      split
      · exact Int.le_refl _
      · next hnew =>
        cases hkind : d.kind with
        | editor =>
          show d.version ≤ version
          simpa [Document.isEditor, hkind] using hnew
        | disk =>
          simp only [Document.Known, hkind] at hknown
          rw [hknown.2]
          exact hversion
        | compiled source =>
          have hsource := Document.source?_eq_some.mpr hkind
          exact absurd ((h.traced.placed path d hd).compiles hsource) hpath
  · exact Int.le_of_eq
      (Store.versionAt_congr (register_find?_of_ne ho hpath hp heq text version)).symm

theorem Sound.move_versionAt {p : String} (h : Sound r given jobs js o) (ho : o.store.Tidy)
    (hp : ¬ r.Compiles p) (m : Move r f jobs o js' o') :
    o'.store.versionAt p = o.store.versionAt p := by
  obtain hsame | ⟨hnone, -, text, -, -, hnew⟩ | ⟨-, t, howner, -⟩ |
    ⟨j, e, -, rfl, hjob, -, -, -⟩ := m.find?_cases ho p
  · exact Store.versionAt_congr hsame
  · rw [Store.versionAt_of_some hnew, Store.versionAt_of_none hnone]
    rfl
  · exact absurd (Registry.compiles_of_owner? howner) hp
  · obtain ⟨hfits, -⟩ := h.traced.known ho hjob
    exact absurd hfits.compiles hp

section Since

variable {source : String} {version : Version} {past : List Job}

theorem since_now (o : Overlay) (source : String) (js : List Job) :
    Since source (o.store.versionAt source) js js o :=
  ⟨Int.le_refl _, [], rfl, by simp⟩

theorem Since.mono (h : Since source version past js o)
    (hle : o.store.versionAt source ≤ o'.store.versionAt source) :
    Since source version past js o' := by
  obtain ⟨hrises, new, hnew, hbounds⟩ := h
  refine ⟨Int.le_trans hrises hle, new, hnew, fun j hj hsource => ?_⟩
  obtain ⟨hlow, hhigh⟩ := hbounds j hj hsource
  exact ⟨hlow, Int.le_trans hhigh hle⟩

theorem Since.move (h : Since source version past js o) (hsound : Sound r given jobs js o)
    (ho : o.store.Tidy) (hapart : ¬ r.Compiles source) (m : Move r f jobs o js' o') :
    Since source version past (js' ++ js) o' := by
  have hsame := hsound.move_versionAt ho hapart m
  have hnext : Since source version past js o' := h.mono (Int.le_of_eq hsame.symm)
  cases m with
  | count | materialize | reserve | keep | keepFor | forget => exact hnext
  | @commit j d hjob hholds _ _ =>
    obtain ⟨hfits, hheld⟩ := hsound.traced.known ho hjob
    obtain ⟨e, he, -, -, hversion⟩ := hheld.current ho hholds
    obtain ⟨hrises, new, hnew, hbounds⟩ := hnext
    refine ⟨hrises, j :: new, by rw [hnew]; rfl, List.forall_mem_cons.mpr ⟨?_, hbounds⟩⟩
    rintro rfl
    have hcurrent : j.version = o.store.versionAt j.source := by
      rw [hversion, Store.versionAt_of_some he]
    rw [hsame, ← hcurrent] at hrises ⊢
    exact ⟨hrises, Int.le_refl _⟩

end Since

/-- At two moments between which a source had one version, its compiled path shows the same text. -/
theorem Versioned.serve_since {jobs' : List Job} {c : String} {t : Transpiler}
    (h : Versioned r f given jobs js o) (h' : Versioned r f given jobs' js' o')
    (hr : r.Unambiguous) (hgiven : Regular r given) (hpos : ∀ e ∈ given, 1 ≤ e.version)
    (hfiles : f.Apart r) (ho : o.store.Tidy) (ho' : o'.store.Tidy) (hcached : o.CachedCompiled r)
    (hcached' : o'.CachedCompiled r) (howner : r.owner? c = some t)
    (hapart : ¬ r.Compiles (Name.withoutExtension c))
    (hversion : o.store.versionAt (Name.withoutExtension c) =
      o'.store.versionAt (Name.withoutExtension c))
    (hsince : Since (Name.withoutExtension c) (o.store.versionAt (Name.withoutExtension c)) js js'
      o') :
    (o.serve r f c).1.text = (o'.serve r f c).1.text := by
  rw [h.serve_compiled hr ho hgiven hfiles hcached howner hapart,
    h'.serve_compiled hr ho' hgiven hfiles hcached' howner hapart,
    ← h.shown?_congr h' hgiven hpos hapart hversion]
  cases hshown : o.shown? f (Name.withoutExtension c) with
  | none => rfl
  | some text =>
    have hstands := (h.shown?_iff hgiven hpos hapart).mp hshown
    simp only
    cases hrun : t.run (Name.withoutExtension c) text with
    | ok output => rfl
    | error error =>
      -- The results taken in between come from this text and failed as well.
      obtain ⟨-, new, rfl, hbounds⟩ := hsince
      rw [← hversion] at hbounds
      refine (lastCode_append fun j hj hcompiled output hok => ?_).symm
      have hmem : j ∈ new ++ js := List.mem_append_left js hj
      have hfits := h'.sound.traced.fits j (.inr hmem)
      have hsource : j.source = Name.withoutExtension c := by rw [hfits.source, hcompiled]
      have ht : j.transpiler = t := by
        have hj := hfits.owner
        rw [hcompiled, howner] at hj
        exact (Option.some.inj hj).symm
      obtain ⟨hlow, hhigh⟩ := hbounds j hj hsource
      have hsame := (h'.taken j hmem).2
      rw [hsource, Int.le_antisymm hhigh hlow] at hsame
      rw [Job.run, ht, hsource, hsame.unique hgiven hpos hstands, hrun] at hok
      simp at hok

end Overlay

theorem Session.keeps_versioned {r : Registry} {f : Files} {given : List Edit} (hr : r.Unambiguous)
    (hgiven : Regular r given) (hfiles : f.Apart r) {request : Request}
    (hedits : ∀ path text version, request = .register path text version →
      ⟨path, text, version⟩ ∈ given) :
    Keeps ⟨r, f, request⟩ (Overlay.Versioned r f given) := by
  refine ⟨?_, ?_, ?_⟩
  · intro jobs js o path text version hrequest ho h
    exact h.register hr ho hgiven (hedits path text version hrequest)
  · intro jobs js o jobs' ho hdue h
    exact ⟨h.sound.collect hr ho hdue, h.stored, h.paired, h.edited, h.taken⟩
  · intro jobs js o js' o' ho m h
    exact h.move hr ho hgiven hfiles m

namespace Session

theorem keeps_since {r : Registry} {f : Files} {given : List Edit} (hr : r.Unambiguous)
    (hgiven : Regular r given) (hfiles : f.Apart r) {request : Request}
    (hedits : ∀ path text version, request = .register path text version →
      ⟨path, text, version⟩ ∈ given)
    {source : String} (hapart : ¬ r.Compiles source) (version : Version) (past : List Job) :
    Keeps ⟨r, f, request⟩ fun jobs js o =>
      Overlay.Versioned r f given jobs js o ∧ Overlay.Since source version past js o := by
  have hkeep := keeps_versioned hr hgiven hfiles hedits
  refine ⟨?_, ?_, ?_⟩
  · intro jobs js o path text v hrequest ho h
    refine ⟨hkeep.register jobs js o path text v hrequest ho h.1, h.2.mono ?_⟩
    exact h.1.sound.register_versionAt ho hgiven (hedits path text v hrequest) hapart
  · intro jobs js o jobs' ho hdue h
    exact ⟨hkeep.collect jobs js o jobs' ho hdue h.1, h.2⟩
  · intro jobs js o js' o' ho m h
    exact ⟨hkeep.move jobs js o js' o' ho m h.1, h.2.move h.1.sound ho hapart m⟩

theorem text_of_unowned {r : Registry} {f : Files} {given : List Edit}
    {jobs jobs' js js' : List Job} {o o' : Overlay} (h : Overlay.Versioned r f given jobs js o)
    (h' : Overlay.Versioned r f given jobs' js' o') (hpos : ∀ e ∈ given, 1 ≤ e.version) {p : String}
    (hp : r.Compiles p) (howner : r.owner? p = none)
    (hversion : o.versionText p = o'.versionText p) :
    (o.shown? f p).getD "" = (o'.shown? f p).getD "" := by
  have hunknown : ∀ o : Overlay, o.store.find? p = none →
      o.versionText p = Overlay.unknownVersion := by
    intro o hd
    simp only [Overlay.versionText, hd]
  cases hd : o.store.find? p with
  | none =>
    cases hd' : o'.store.find? p with
    | none => simp only [Overlay.shown?, hd, hd']
    | some d' =>
      exact absurd (hversion.symm.trans (hunknown o hd)) (h'.unowned hpos hp howner hd').2
  | some d =>
    cases hd' : o'.store.find? p with
    | none => exact absurd (hversion.trans (hunknown o' hd')) (h.unowned hpos hp howner hd).2
    | some d' =>
      simp [Overlay.shown?, hd, hd', (h.unowned hpos hp howner hd).1,
        (h'.unowned hpos hp howner hd').1]

theorem run_versioned {r : Registry} {f : Files} {given : List Edit} (hr : r.Unambiguous)
    (hgiven : Regular r given) (hfiles : f.Apart r) (project : Project) {requests : List Request}
    (hedits : ∀ request ∈ requests, ∀ path text version, request = .register path text version →
      ⟨path, text, version⟩ ∈ given) :
    let s := run (requests.map (Turn.mk r f)) (opened project)
    Overlay.Versioned r f given s.jobs s.commits s.overlay := by
  refine Keeps.run (s := opened project) ?_ (steady_opened project)
    (Overlay.versioned_empty r f given)
  intro turn hturn
  obtain ⟨request, hrequest, rfl⟩ := List.mem_map.mp hturn
  exact keeps_versioned hr hgiven hfiles (hedits request hrequest)

theorem run_since {r : Registry} {f : Files} {given : List Edit} (hr : r.Unambiguous)
    (hgiven : Regular r given) (hfiles : f.Apart r) {requests : List Request}
    (hedits : ∀ request ∈ requests, ∀ path text version, request = .register path text version →
      ⟨path, text, version⟩ ∈ given)
    {s : Session} (hs : s.Steady)
    (h : Overlay.Versioned r f given s.jobs s.commits s.overlay) {source : String}
    (hapart : ¬ r.Compiles source) :
    let s' := run (requests.map (Turn.mk r f)) s
    Overlay.Since source (s.overlay.store.versionAt source) s.commits s'.commits s'.overlay := by
  have hkeep : ∀ turn ∈ requests.map (Turn.mk r f), Keeps turn fun jobs js o =>
      Overlay.Versioned r f given jobs js o ∧
        Overlay.Since source (s.overlay.store.versionAt source) s.commits js o := by
    intro turn hturn
    obtain ⟨request, hrequest, rfl⟩ := List.mem_map.mp hturn
    exact keeps_since hr hgiven hfiles (hedits request hrequest) hapart _ _
  exact (Keeps.run hkeep hs ⟨h, Overlay.since_now s.overlay source s.commits⟩).2

/-- Wherever a session tells the same version of a path at two moments, it serves the same text at
both. -/
theorem text_of_versionText {r : Registry} (hr : r.Unambiguous) {f : Files} (hfiles : f.Apart r)
    (project : Project) (before between : List Request)
    (hpos : ∀ e ∈ edits ((before ++ between).map (Turn.mk r f)), 1 ≤ e.version)
    (hapart : ∀ e ∈ edits ((before ++ between).map (Turn.mk r f)), ¬ r.Compiles e.path)
    (hunique : ∀ e ∈ edits ((before ++ between).map (Turn.mk r f)),
      ∀ e' ∈ edits ((before ++ between).map (Turn.mk r f)),
        e.path = e'.path → e.version = e'.version → e.text = e'.text)
    (p : String) :
    let s := run (before.map (Turn.mk r f)) (opened project)
    let s' := run ((before ++ between).map (Turn.mk r f)) (opened project)
    s.overlay.versionText p = s'.overlay.versionText p →
      (s.overlay.serve r f p).1.text = (s'.overlay.serve r f p).1.text := by
  have hgiven : Regular r (edits ((before ++ between).map (Turn.mk r f))) :=
    ⟨fun e he => Int.le_trans (by decide) (hpos e he), hunique, hapart⟩
  have hedits : ∀ request ∈ before ++ between, ∀ path text version,
      request = .register path text version →
      ⟨path, text, version⟩ ∈ edits ((before ++ between).map (Turn.mk r f)) :=
    fun request hrequest path text version heq =>
      mem_edits (List.mem_map_of_mem (f := Turn.mk r f) hrequest) heq
  generalize edits ((before ++ between).map (Turn.mk r f)) = given at hpos hgiven hedits
  have hcached := (cached_opened r f project).run before
  have hcached' := (cached_opened r f project).run (before ++ between)
  have h := run_versioned hr hgiven hfiles project fun request hrequest =>
    hedits request (List.mem_append_left between hrequest)
  have h' := run_versioned hr hgiven hfiles project hedits
  have hsince := fun source (hsource : ¬ r.Compiles source) =>
    run_since hr hgiven hfiles (fun request hrequest =>
      hedits request (List.mem_append_right before hrequest)) hcached.steady h hsource
  simp only [← run_append, ← List.map_append] at hsince
  intro s s' hversion
  cases howner : r.owner? p with
  | some t =>
    obtain ⟨hfind, hname, -⟩ := Registry.owner?_cases howner
    by_cases hlayered : r.Compiles (Name.withoutExtension p)
    · rw [h.serve_layered hcached.steady.tidy hfiles hcached.compiled howner hlayered,
        h'.serve_layered hcached'.steady.tidy hfiles hcached'.compiled howner hlayered]
    · rw [← hname, h.versionText_compiled hr hcached.steady.tidy hfind hlayered,
        h'.versionText_compiled hr hcached'.steady.tidy hfind hlayered] at hversion
      exact h.serve_since h' hr hgiven hpos hfiles hcached.steady.tidy hcached'.steady.tidy
        hcached.compiled hcached'.compiled howner hlayered (Int.repr_inj.mp hversion)
        (hsince _ hlayered)
  | none =>
    rw [Overlay.serve_native hcached.native howner, Overlay.serve_native hcached'.native howner]
    by_cases hp : r.Compiles p
    · exact text_of_unowned h h' hpos hp howner hversion
    · rw [h.versionText_plain hp, h'.versionText_plain hp] at hversion
      rw [h.shown?_congr h' hgiven hpos hp (Int.repr_inj.mp hversion)]

/-- The text is given again at the version it had, and a job collected before is settled late. -/
theorem text_of_versionText_copying :
    let f : Files := .ofRead fun _ => none
    let before : List Request := [.register "/p/a.v" "one" 1, .collect, .serve "/p/a.v.ts"]
    let between : List Request := [.register "/p/a.v" "one" 1, .forgetAll, .settle 0]
    let s := run (before.map (Turn.mk .copying f)) (opened sample)
    let s' := run ((before ++ between).map (Turn.mk .copying f)) (opened sample)
    (s.overlay.serve .copying f "/p/a.v.ts").1.text =
      (s'.overlay.serve .copying f "/p/a.v.ts").1.text := by
  intro f before between s s'
  refine text_of_versionText Registry.flat_copying.unambiguous ?_ sample before between
    (by decide +kernel) ?_ (by decide +kernel) "/p/a.v.ts" (by decide +kernel)
  · exact fun _ _ _ hfind _ => Registry.flat_copying.not_compiles_source hfind
  · have howner : ∀ e ∈ edits ((before ++ between).map (Turn.mk .copying f)),
        Registry.copying.owner? e.path = none := by decide +kernel
    exact fun e he hcompiles => Registry.flat_copying.compiles_iff.mp hcompiles (howner e he)

/-! ### Sessions that mislead -/

/-- The same version of a path is told at two moments but not the same text served, although every
text is given for a path that is no compiled one, at a version that is not negative, and no other is
given for that path and version. -/
def Misleads (r : Registry) (f : Files) (before between : List Request) (p : String) : Prop :=
  let given := edits ((before ++ between).map (Turn.mk r f))
  let s := run (before.map (Turn.mk r f)) (opened sample)
  let s' := run ((before ++ between).map (Turn.mk r f)) (opened sample)
  (∀ e ∈ given, 0 ≤ e.version ∧ ¬ r.Compiles e.path) ∧
    (∀ e ∈ given, ∀ e' ∈ given, e.path = e'.path → e.version = e'.version → e.text = e'.text) ∧
    s.overlay.versionText p = s'.overlay.versionText p ∧
    (s.overlay.serve r f p).1.text ≠ (s'.overlay.serve r f p).1.text

theorem misleads_of {r : Registry} {f : Files} {before between : List Request} {p : String}
    (hgiven : ∀ e ∈ edits ((before ++ between).map (Turn.mk r f)), 0 ≤ e.version ∧
      ∀ t ∈ r.toList, t.target.toList.isSuffixOf e.path.toList = false)
    (hunique : ∀ e ∈ edits ((before ++ between).map (Turn.mk r f)),
      ∀ e' ∈ edits ((before ++ between).map (Turn.mk r f)),
        e.path = e'.path → e.version = e'.version → e.text = e'.text)
    (hversion : (run (before.map (Turn.mk r f)) (opened sample)).overlay.versionText p =
      (run ((before ++ between).map (Turn.mk r f)) (opened sample)).overlay.versionText p)
    (htext : ((run (before.map (Turn.mk r f)) (opened sample)).overlay.serve r f p).1.text ≠
      ((run ((before ++ between).map (Turn.mk r f)) (opened sample)).overlay.serve r f p).1.text) :
    Misleads r f before between p :=
  ⟨fun e he => ⟨(hgiven e he).1, Registry.not_compiles_of_suffix (hgiven e he).2⟩, hunique,
    hversion, htext⟩

def chained : Registry := .ofList [.make ".a" ".b" Registry.copy, .make ".b" ".c" Registry.copy]

/-- The name `m.a.x.y` is the compiled one of both `m.a` and `m.a.x`. -/
def ambiguous : Registry :=
  .ofList [.make ".a" ".x.y" Registry.copy, .make ".x" ".y" Registry.copy]

/-- Versions from zero, sources stored under compiled names and names shared by two sources each
break the promise. -/
theorem versionText_misleads :
    Misleads .copying (.ofRead fun p => if p = "/p/n.js" then some "disk" else none)
      [] [.register "/p/n.js" "editor" 0] "/p/n.js" ∧
    Misleads chained (.ofRead fun p => if p = "/p/x.a.b" then some "disk" else none)
      [.serve "/p/x.a.b.c"] [.register "/p/x.a" "one" 1] "/p/x.a.b" ∧
    Misleads ambiguous (.ofRead fun _ => none)
      [.register "/p/m.a" "one" 1] [.register "/p/m.a.x" "five" 5] "/p/m.a.x.y" := by
  refine ⟨misleads_of ?_ ?_ ?_ ?_, misleads_of ?_ ?_ ?_ ?_, misleads_of ?_ ?_ ?_ ?_⟩ <;>
    decide +kernel

end Session

end SourceOverlay
