import SourceOverlay.Proofs.Sessions

/-!
# Jobs and their sources

A job names its text by the document it was taken from and the number of texts written there before.
The guard on settling compares nothing else. It is enough because every way to change the text or
the version of a source counts as a write: so while a source has the writes a job was taken at, it
has the job's text and version too.

The exception would be a source that is also a compiled path, since a failed compile advances its
version without a write. A registry under which no such document comes from an editor or from the
backing store is assumed where it matters; a flat one is always of that kind.
-/

set_option autoImplicit false

namespace SourceOverlay

/-! ### Laws of single documents -/

namespace Store

def Every (law : String → Document → Prop) (s : Store) : Prop :=
  ∀ p d, s.find? p = some d → law p d

theorem every_empty (law : String → Document → Prop) : ({} : Store).Every law := by
  intro p d hd
  simp [find?] at hd

theorem Every.register {law : String → Document → Prop} {s : Store} {r : Registry} {path : String}
    (h : s.Every law) (hs : s.Tidy) (text : String) (version : Version)
    (hreceived : law path (.received (s.find? path) path text version))
    (hpaired : ∀ t, r.find? (Name.extension path) = some t → t.compiledName path ≠ path ∧
      law (t.compiledName path) (.ofSource (t.compiledName path) path) ∧
      ∀ d, law (t.compiledName path) d → law (t.compiledName path) (d.setVersion uncompiled)) :
    (s.register r path text version).2.Every law := by
  intro p d hd
  cases hfind : r.find? (Name.extension path) with
  | none =>
    rw [find?_register_native hs hfind] at hd
    split at hd
    · next hp =>
      subst hp
      exact Option.some.inj hd ▸ hreceived
    · exact h p d hd
  | some t =>
    obtain ⟨hne, hnew, huncompiled⟩ := hpaired t hfind
    rw [find?_register_alternate hs hfind hne] at hd
    split at hd
    · next hp =>
      subst hp
      have hold : law (t.compiledName path)
          ((s.find? (t.compiledName path)).getD (.ofSource (t.compiledName path) path)) := by
        cases hc : s.find? (t.compiledName path) with
        | none => exact hnew
        | some c => exact h _ c hc
      rw [← Option.some.inj hd, paired]
      split
      · exact huncompiled _ hold
      · exact hold
    · split at hd
      · next hp =>
        subst hp
        exact Option.some.inj hd ▸ hreceived
      · exact h p d hd

end Store

/-- The second document follows the first, and where no text was written its text and version are
those of the first, compiled documents apart. -/
structure Document.Continues (d d' : Document) : Prop where
  precedes : d.Precedes d'
  same : d'.writes = d.writes → d.source? = none → d'.text = d.text ∧ d'.version = d.version

theorem Document.Continues.refl (d : Document) : d.Continues d := ⟨.refl d, fun _ _ => ⟨rfl, rfl⟩⟩

theorem Document.continues_of_source? {d d' : Document} (h : d.Precedes d')
    (hsource : d.source? ≠ none) : d.Continues d' :=
  ⟨h, fun _ hnone => absurd hnone hsource⟩

theorem Document.continues_received (d : Document) (path text : String) (version : Version) :
    d.Continues (received (some d) path text version) := by
  refine ⟨precedes_received d path text version, fun hwrites _ => ?_⟩
  have hpromote := (precedes_promote d).writes
  simp only [received] at hwrites ⊢
  split at hwrites
  · next h => simp [h]
  · simp only [write] at hwrites
    omega

namespace Overlay

variable {r : Registry} {f : Files} {jobs js : List Job} {o o' : Overlay}

theorem Move.every {law : String → Document → Prop} (m : Move r f jobs o js o')
    (h : o.store.Every law) (ho : o.store.Tidy)
    (hdisk : ∀ p t text, r.find? (Name.extension p) = some t → f.read? p = some text →
      law p (.ofDisk p text))
    (hsource : ∀ c t, r.owner? c = some t → law c (.ofSource c (Name.withoutExtension c)))
    (hsettled : ∀ j d, j ∈ js → law j.compiled d → law j.compiled (d.settled j.version j.run)) :
    o'.store.Every law := by
  intro p d hd
  obtain hsame | ⟨-, t, text, hfind, hread, hnew⟩ | ⟨-, t, howner, hnew⟩ |
    ⟨j, e, rfl, rfl, -, -, he, hnew⟩ := m.find?_cases ho p
  · exact h p d (hsame.symm.trans hd)
  · exact Option.some.inj (hnew.symm.trans hd) ▸ hdisk p t text hfind hread
  · exact Option.some.inj (hnew.symm.trans hd) ▸ hsource p t howner
  · exact Option.some.inj (hnew.symm.trans hd) ▸ hsettled j e List.mem_cons_self (h _ e he)

end Overlay

/-! ### Where documents are -/

/-- A compiled document goes by the compiled name of its source. Any other document that is a source
goes by no compiled name. -/
def Document.Placed (r : Registry) (p : String) (d : Document) : Prop :=
  match d.source? with
  | some source => ∃ t, r.find? (Name.extension source) = some t ∧ t.compiledName source = p
  | none => ∀ t, r.find? (Name.extension p) = some t → ¬ r.Compiles p

theorem Document.Placed.congr {r : Registry} {p : String} {d d' : Document} (h : d.Placed r p)
    (hsource : d'.source? = d.source?) : d'.Placed r p := by
  rw [Placed, hsource]
  exact h

theorem Document.Placed.compiles {r : Registry} {p source : String} {d : Document}
    (h : d.Placed r p) (hsource : d.source? = some source) : r.Compiles p := by
  rw [Placed, hsource] at h
  exact ⟨source, h⟩

theorem Document.Placed.source?_eq_none {r : Registry} {p : String} {d : Document}
    (h : d.Placed r p) (hp : ¬ r.Compiles p) : d.source? = none := by
  cases hsource : d.source? with
  | none => rfl
  | some source => exact absurd (h.compiles hsource) hp

theorem Document.Placed.source_eq {r : Registry} {p source : String} {t : Transpiler} {d : Document}
    (h : d.Placed r (t.compiledName p)) (hr : r.Unambiguous)
    (hp : r.find? (Name.extension p) = some t) (hsource : d.source? = some source) :
    source = p := by
  rw [Placed, hsource] at h
  obtain ⟨u, hu, hname⟩ := h
  exact hr _ _ _ _ hu hp hname

theorem Document.Placed.apart {r : Registry} {p : String} {d : Document} {t : Transpiler}
    (h : d.Placed r p) (hsource : d.source? = none) (ht : r.find? (Name.extension p) = some t) :
    ¬ r.Compiles p := by
  rw [Placed, hsource] at h
  exact h t ht

theorem Document.placed_ofSource {r : Registry} {source : String} {t : Transpiler}
    (h : r.find? (Name.extension source) = some t) :
    (ofSource (t.compiledName source) source).Placed r (t.compiledName source) := ⟨t, h, rfl⟩

def Files.Apart (r : Registry) (f : Files) : Prop :=
  ∀ path t text, r.find? (Name.extension path) = some t → f.read? path = some text →
    ¬ r.Compiles path

/-- The turn puts no source under a compiled name, neither from an editor nor from the backing
store. -/
structure Turn.Plain (r : Registry) (turn : Turn) : Prop where
  registry : turn.registry = r
  registers : ∀ path text version t, turn.request = .register path text version →
    r.find? (Name.extension path) = some t → ¬ r.Compiles path
  files : turn.files.Apart r

theorem Registry.Flat.plain {r : Registry} (hr : r.Flat) {turn : Turn} (h : turn.registry = r) :
    turn.Plain r :=
  ⟨h, fun _ _ _ _ _ hfind => hr.not_compiles_source hfind,
    fun _ _ _ hfind _ => hr.not_compiles_source hfind⟩

namespace Overlay

variable {r : Registry} {f : Files} {jobs js : List Job} {o o' : Overlay}

theorem register_placed {path : String} (h : o.store.Every (Document.Placed r))
    (ho : o.store.Tidy) (hpath : ∀ t, r.find? (Name.extension path) = some t → ¬ r.Compiles path)
    (text : String) (version : Version) :
    (o.register r path text version).2.store.Every (Document.Placed r) := by
  rw [register_store]
  refine h.register ho text version ?_ ?_
  · cases hd : o.store.find? path with
    | none => exact hpath
    | some d =>
      exact (h path d hd).congr (Document.precedes_received d path text version).source?
  · intro t hfind
    refine ⟨Registry.compiledName_ne (hpath t hfind) hfind, Document.placed_ofSource hfind, ?_⟩
    intro d hd
    exact hd.congr rfl

theorem Move.placed (m : Move r f jobs o js o') (h : o.store.Every (Document.Placed r))
    (ho : o.store.Tidy) (hfiles : f.Apart r) :
    o'.store.Every (Document.Placed r) := by
  refine m.every h ho (fun p _ text hfind hread _ _ => hfiles p _ text hfind hread) ?_ ?_
  · intro c t howner
    obtain ⟨hfind, hname, -⟩ := Registry.owner?_cases howner
    exact ⟨t, hfind, hname⟩
  · intro j d _ hd
    exact hd.congr (Document.precedes_settled d j.version j.run).source?

/-! ### Documents from state to state -/

theorem register_continues {path p : String} {d : Document} {t : Transpiler}
    (h : o.store.Every (Document.Placed r)) (ho : o.store.Tidy)
    (hpath : ∀ t, r.find? (Name.extension path) = some t → ¬ r.Compiles path) (text : String)
    (version : Version) (hp : r.find? (Name.extension p) = some t)
    (hd : o.store.find? p = some d) :
    ∃ d', (o.register r path text version).2.store.find? p = some d' ∧ d.Continues d' := by
  rw [register_store]
  cases hfind : r.find? (Name.extension path) with
  | none =>
    rw [Store.find?_register_native ho hfind]
    split
    · next heq =>
      subst heq
      rw [hd]
      exact ⟨_, rfl, Document.continues_received d path text version⟩
    · exact ⟨d, hd, .refl d⟩
  | some u =>
    have hne := Registry.compiledName_ne (hpath u hfind) hfind
    rw [Store.find?_register_alternate ho hfind hne]
    split
    · next heq =>
      subst heq
      have hsource : d.source? ≠ none := fun hnone =>
        (h _ d hd).apart hnone hp ⟨path, u, hfind, rfl⟩
      rw [hd, Option.getD_some]
      refine ⟨_, rfl, Document.continues_of_source? ?_ hsource⟩
      unfold Store.paired
      split
      · exact Document.precedes_setVersion d uncompiled
      · exact .refl d
    · split
      · next heq =>
        subst heq
        rw [hd]
        exact ⟨_, rfl, Document.continues_received d path text version⟩
      · exact ⟨d, hd, .refl d⟩

theorem Move.continues {p : String} {d : Document} {t : Transpiler} (m : Move r f jobs o js o')
    (h : o.store.Every (Document.Placed r)) (ho : o.store.Tidy) (hfits : ∀ j ∈ js, j.Fits r)
    (hp : r.find? (Name.extension p) = some t) (hd : o.store.find? p = some d) :
    ∃ d', o'.store.find? p = some d' ∧ d.Continues d' := by
  by_cases hother : ∀ j ∈ js, j.compiled ≠ p
  · exact ⟨d, m.find?_of_some ho hd hother, .refl d⟩
  · -- Only a compiled document can be both the source of something and compiled into.
    obtain ⟨j, hj, heq⟩ : ∃ j ∈ js, j.compiled = p := by simpa using hother
    obtain ⟨d', hd', hprecedes⟩ := (m.tidy ho).2 p d hd
    have hsource : d.source? ≠ none := fun hnone =>
      (hfits j hj).compiled_ne ((h p d hd).apart hnone hp) heq
    exact ⟨d', hd', Document.continues_of_source? hprecedes hsource⟩

/-! ### Jobs from state to state -/

/-- The job was taken from its source at some number of writes. As long as the source has no more,
it has the text and version of the job. -/
def Held (o : Overlay) (j : Job) : Prop :=
  ∃ k d, j.buffer.origin = .document j.source k ∧ o.store.find? j.source = some d ∧ k ≤ d.writes ∧
    (k = d.writes → d.source? = none → d.text = j.buffer.text ∧ d.version = j.version)

theorem held_of_buffer {j : Job} {d : Document} (ho : o.store.Tidy)
    (hd : o.store.find? j.source = some d) (hbuffer : j.buffer = d.buffer)
    (hversion : j.version = d.version) : o.Held j := by
  refine ⟨d.writes, d, ?_, hd, le_rfl, fun _ _ => ⟨?_, hversion.symm⟩⟩
  · rw [hbuffer, ← ho.filed j.source d hd]
    rfl
  · rw [hbuffer]
    rfl

theorem Held.next {j : Job} (h : o.Held j)
    (hnext : ∀ d, o.store.find? j.source = some d →
      ∃ d', o'.store.find? j.source = some d' ∧ d.Continues d') : o'.Held j := by
  obtain ⟨k, d, hk, hd, hle, hsame⟩ := h
  obtain ⟨d', hd', hcont⟩ := hnext d hd
  have hwrites := hcont.precedes.writes
  refine ⟨k, d', hk, hd', hle.trans hwrites, fun heq hnone => ?_⟩
  rw [hcont.precedes.source?] at hnone
  obtain ⟨htext, hversion⟩ := hcont.same (by omega) hnone
  rw [htext, hversion]
  exact hsame (by omega) hnone

theorem Held.current {j : Job} (h : o.Held j) (ho : o.store.Tidy) (hholds : o.holds j = true) :
    ∃ d, o.store.find? j.source = some d ∧ d.source? = none ∧ j.buffer = d.buffer ∧
      j.version = d.version := by
  obtain ⟨k, d, hk, hd, -, hsame⟩ := h
  obtain ⟨e, he, hbuffer⟩ := (Option.any_eq_true _ _).mp hholds
  obtain ⟨he, hnone⟩ := Option.filter_eq_some_iff.mp he
  obtain rfl := Option.some.inj (hd.symm.trans he)
  replace hnone : d.source? = none := by simpa using hnone
  have hpath := ho.filed j.source d hd
  have horigin : d.buffer.origin = j.buffer.origin := by simpa [Buffer.same] using hbuffer
  have hwrites : d.writes = k := by
    rw [hk] at horigin
    exact (Origin.document.inj horigin).2
  obtain ⟨htext, hversion⟩ := hsame hwrites.symm hnone
  refine ⟨d, hd, hnone, ?_, hversion.symm⟩
  rw [show j.buffer = ⟨j.buffer.origin, j.buffer.text⟩ from rfl, ← horigin, ← htext]
  rfl

/-- Documents are in their places, and the jobs that were collected or taken belong to them. -/
structure Traced (r : Registry) (jobs js : List Job) (o : Overlay) : Prop where
  placed : o.store.Every (Document.Placed r)
  fits : ∀ j, j ∈ jobs ∨ j ∈ js → j.Fits r
  held : ∀ j, j ∈ jobs ∨ j ∈ js → o.Held j

theorem traced_empty (r : Registry) : Traced r [] [] {} :=
  ⟨Store.every_empty _, by simp, by simp⟩

theorem Due.fits {j : Job} (hr : r.Unambiguous) (h : o.store.Every (Document.Placed r))
    (hj : o.Due r j) : j.Fits r := by
  obtain ⟨howner, d, -, hd, hsource, -⟩ := hj
  obtain ⟨hfind, hname, -⟩ := Registry.owner?_cases howner
  have hplaced := h j.compiled d hd
  rw [← hname] at hplaced
  exact ⟨howner, hplaced.source_eq hr hfind hsource⟩

theorem Traced.register {path : String} (h : Traced r jobs js o) (ho : o.store.Tidy)
    (hpath : ∀ t, r.find? (Name.extension path) = some t → ¬ r.Compiles path) (text : String)
    (version : Version) : Traced r jobs js (o.register r path text version).2 := by
  refine ⟨register_placed h.placed ho hpath text version, h.fits, fun j hj => ?_⟩
  exact (h.held j hj).next fun d hd =>
    register_continues h.placed ho hpath text version (h.fits j hj).find? hd

theorem Traced.collect {jobs' : List Job} (h : Traced r jobs js o) (ho : o.store.Tidy)
    (hr : r.Unambiguous) (hdue : ∀ j ∈ jobs', o.Due r j) : Traced r (jobs ++ jobs') js o := by
  have hall : ∀ j, j ∈ jobs ++ jobs' ∨ j ∈ js → j.Fits r ∧ o.Held j := by
    intro j hj
    rw [List.mem_append, or_right_comm] at hj
    rcases hj with hj | hj
    · exact ⟨h.fits j hj, h.held j hj⟩
    · obtain ⟨-, -, source, -, -, hs, hbuffer, hversion, -⟩ := hdue j hj
      exact ⟨(hdue j hj).fits hr h.placed, held_of_buffer ho hs hbuffer hversion⟩
  exact ⟨h.placed, fun j hj => (hall j hj).1, fun j hj => (hall j hj).2⟩

theorem Traced.known {j : Job} (h : Traced r jobs js o) (ho : o.store.Tidy)
    (hjob : j ∈ jobs ∨ o.Current r j) : j.Fits r ∧ o.Held j := by
  rcases hjob with hjob | hjob
  · exact ⟨h.fits j (.inl hjob), h.held j (.inl hjob)⟩
  · obtain ⟨hfits, source, hs, hbuffer, hversion⟩ := hjob
    exact ⟨hfits, held_of_buffer ho hs hbuffer hversion⟩

theorem Traced.taken {js' : List Job} (h : Traced r jobs js o) (ho : o.store.Tidy)
    (m : Move r f jobs o js' o') : ∀ j ∈ js', j.Fits r ∧ o.Held j := by
  intro i hi
  cases m with
  | count | materialize | reserve | keep | keepFor | forget => simp at hi
  | commit hjob _ _ _ =>
    obtain rfl := List.mem_singleton.mp hi
    exact h.known ho hjob

theorem Traced.move {js' : List Job} (h : Traced r jobs js o) (ho : o.store.Tidy)
    (hfiles : f.Apart r) (m : Move r f jobs o js' o') : Traced r jobs (js' ++ js) o' := by
  have htaken := h.taken ho m
  have hall : ∀ j, j ∈ jobs ∨ j ∈ js' ++ js → j.Fits r ∧ o.Held j := by
    intro j hj
    rw [List.mem_append, or_left_comm] at hj
    rcases hj with hj | hj
    · exact htaken j hj
    · exact ⟨h.fits j hj, h.held j hj⟩
  refine ⟨m.placed h.placed ho hfiles, fun j hj => (hall j hj).1, fun j hj => ?_⟩
  exact (hall j hj).2.next fun d hd =>
    m.continues h.placed ho (fun i hi => (htaken i hi).1) (hall j hj).1.find? hd

end Overlay

theorem Session.keeps_traced {r : Registry} (hr : r.Unambiguous) {turn : Turn}
    (hturn : turn.Plain r) : Keeps turn (Overlay.Traced r) := by
  obtain ⟨rfl, hregisters, hfiles⟩ := hturn
  refine ⟨?_, ?_, ?_⟩
  · intro jobs js o path text version hrequest ho h
    exact h.register ho (fun t => hregisters path text version t hrequest) text version
  · intro jobs js o jobs' ho hdue h
    exact h.collect ho hr hdue
  · intro jobs js o js' o' ho m h
    exact h.move ho hfiles m

end SourceOverlay
