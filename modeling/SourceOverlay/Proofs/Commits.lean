import SourceOverlay.Proofs.Caching
import SourceOverlay.Proofs.Jobs

/-!
# Commits

Jobs are collected at one moment and settled at another. Whatever took place in between, a job that
is taken could as well have been collected at the moment it is taken: its text and version are those
of the source, its document is older, and what becomes of the overlay is what serving the compiled
path would have made of it. A job that is refused leaves everything as it was. Along a session the
results in a document come from ever later texts of its source, and no text is compiled into it
twice unless a registration meddles with the compiled path itself.
-/

set_option autoImplicit false

namespace SourceOverlay

/-- How many texts were written to the source before the one that the job was taken with. -/
def Job.writes (j : Job) : Nat :=
  match j.buffer.origin with
  | .document _ write => write
  | .loose _ => 0

theorem Job.writes_of_buffer {j : Job} {d : Document} (h : j.buffer = d.buffer) :
    j.writes = d.writes := by
  rw [writes, h]
  rfl

namespace Overlay

variable {r : Registry} {f : Files} {jobs js : List Job} {o o' : Overlay} {i j : Job}

theorem Held.writes_le (h : o.Held j) :
    ∃ d, o.store.find? j.source = some d ∧ j.writes ≤ d.writes := by
  obtain ⟨k, d, hk, hd, hle, -⟩ := h
  refine ⟨d, hd, ?_⟩
  rw [Job.writes, hk]
  exact hle

/-! ### A commit as one step -/

/-- A job that is taken brings its document up to the source as both are at that moment. -/
theorem settle_true (ho : o.store.Tidy) (hheld : o.Held j)
    (hreserved : (o.store.find? j.compiled).isSome = true)
    (h : o.settle j j.run = (true, o')) :
    ∃ source d, o.store.find? j.source = some source ∧ source.source? = none ∧
      j.buffer = source.buffer ∧ j.version = source.version ∧
      o.store.find? j.compiled = some d ∧ d.version < j.version ∧ o' = o.committed j d j.run := by
  obtain ⟨d, hd⟩ := Option.isSome_iff_exists.mp hreserved
  obtain ⟨hholds, hlt, heq⟩ | ⟨-, heq⟩ := settle_cases hd j.run
  · obtain ⟨source, hsource, hnone, hbuffer, hversion⟩ := hheld.current ho hholds
    rw [heq] at h
    exact ⟨source, d, hsource, hnone, hbuffer, hversion, hd, hlt, (Prod.mk.inj h).2.symm⟩
  · simp [heq] at h

theorem settle_false (hreserved : (o.store.find? j.compiled).isSome = true)
    (h : o.settle j j.run = (false, o')) : o' = o := by
  obtain ⟨d, hd⟩ := Option.isSome_iff_exists.mp hreserved
  obtain ⟨-, -, heq⟩ | ⟨-, heq⟩ := settle_cases hd j.run
  · simp [heq] at h
  · rw [heq] at h
    exact (Prod.mk.inj h).2.symm

theorem staleJob_of_lt {source d : Document} (hj : j.Fits r)
    (hsource : o.store.find? j.source = some source) (hbuffer : j.buffer = source.buffer)
    (hversion : j.version = source.version) (hd : o.store.find? j.compiled = some d)
    (hlt : d.version < j.version) (f : Files) :
    o.staleJob r f j.compiled j.source = (some j, o) := by
  simp only [staleJob, hj.owner, sourceText_of_some hsource, Store.reserve_of_some _ hd, ← hbuffer,
    ← hversion, if_pos hlt]

theorem committed_agree_serve {source d : Document} (ho : o.store.Tidy)
    (hcached : o.CachedCompiled r) (hj : j.Fits r)
    (hsource : o.store.find? j.source = some source) (hnone : source.source? = none)
    (hbuffer : j.buffer = source.buffer) (hversion : j.version = source.version)
    (hd : o.store.find? j.compiled = some d) (hlt : d.version < j.version) (f : Files) :
    (o.committed j d j.run).Agree (o.serve r f j.compiled).2 := by
  have hjob : (⟨j.transpiler, Name.withoutExtension j.compiled, j.compiled, source.buffer,
      source.version⟩ : Job) = j := by
    rw [← hj.source, ← hbuffer, ← hversion]
  have hserve : o.serve r f j.compiled = o.serveFound j := by
    rw [hj.source] at hsource
    simp only [serve, hj.owner, serveCompiled_eq, sourceText_of_some hsource, hjob]
  have hreserve : o.store.reserve j.compiled j.source = (d, o.store) :=
    Store.reserve_of_some j.source hd
  have hmissed : o.Agree ((o.missed j).call [j]) :=
    ⟨congrArg Prod.snd hreserve.symm, rfl, rfl, rfl, rfl, rfl⟩
  have hd' : (o.missed j).store.find? j.compiled = some d := by
    rw [← hd]
    exact congrArg (·.find? j.compiled) hmissed.store.symm
  have hstale := (serveFound_eq_serveStale ho hcached ⟨hj, source, hsource, hbuffer, hversion⟩).2
  rw [hserve]
  obtain ⟨-, -, -, heq⟩ | ⟨-, hcompiled, -⟩ | ⟨hle, -⟩ :=
    serveStale_cases ho hsource hbuffer hj.ne hd'
  · rw [heq] at hstale
    exact (hmissed.committed j d j.run).trans ((agree_keptFor _ j _).trans hstale.symm)
  · exact absurd hnone hcompiled
  · exact absurd hlt (Int.not_lt.mpr hle)

/-! ### The log of commits -/

/-- The document of the job is there, and unless a text was written to the source since, it is no
older than the source. -/
def Spent (o : Overlay) (i : Job) : Prop :=
  ∃ d, o.store.find? i.compiled = some d ∧ ∀ source, o.store.find? i.source = some source →
    i.writes = source.writes → source.version ≤ d.version

theorem Spent.congr (h : o.Spent i)
    (hcompiled : o'.store.find? i.compiled = o.store.find? i.compiled)
    (hsource : o'.store.find? i.source = o.store.find? i.source) : o'.Spent i := by
  rw [Spent, hcompiled, hsource]
  exact h

theorem Spent.register_source (h : o.Spent i) (hi : i.Fits r) (hheld : o.Held i)
    (ho : o.store.Tidy) (text : String) (version : Version) :
    (o.register r i.source text version).2.Spent i := by
  have hne : i.transpiler.compiledName i.source ≠ i.source := by
    rw [hi.compiledName]
    exact hi.ne.symm
  obtain ⟨d, hd, hspent⟩ := h
  obtain ⟨source, hsource, hle⟩ := hheld.writes_le
  refine ⟨Store.paired d source.isDisk, ?_, ?_⟩
  · rw [register_store, Store.find?_register_alternate ho hi.find? hne, if_pos hi.compiledName,
      hi.compiledName, hd, hsource]
    rfl
  · intro source' hsource' hwrites
    rw [register_store, Store.find?_register_alternate ho hi.find? hne, if_neg hne, if_pos rfl,
      hsource] at hsource'
    obtain rfl := Option.some.inj hsource'
    simp only [Document.received] at hwrites ⊢
    split
    · next hold =>
      rw [if_pos hold] at hwrites
      rw [source.isDisk_of_isEditor (Bool.and_eq_true_iff.mp hold).1]
      exact hspent source hsource hwrites
    · next hold =>
      have hpromote := (Document.precedes_promote source).writes
      rw [if_neg hold] at hwrites
      simp only [Document.write] at hwrites
      omega

theorem Spent.register (hr : r.Flat) {path : String} (h : o.Spent i) (hi : i.Fits r)
    (hheld : o.Held i) (ho : o.store.Tidy) (hpath : r.owner? path = none) (text : String)
    (version : Version) : (o.register r path text version).2.Spent i := by
  have hpc : path ≠ i.compiled := by
    rintro rfl
    simp [hi.owner] at hpath
  cases hfind : r.find? (Name.extension path) with
  | none =>
    have hps : path ≠ i.source := by
      rintro rfl
      simp [hi.find?] at hfind
    refine h.congr ?_ ?_
    · rw [register_store, Store.find?_register_native ho hfind, if_neg hpc]
    · rw [register_store, Store.find?_register_native ho hfind, if_neg hps]
  | some t =>
    have hne := Registry.compiledName_ne (hr.not_compiles_source hfind) hfind
    have hcs := Registry.compiledName_ne (hr.not_compiles_source hi.find?) hfind
    by_cases hps : path = i.source
    · subst hps
      exact h.register_source hi hheld ho text version
    · have hcc : t.compiledName path ≠ i.compiled := fun heq =>
        hps (hr.unambiguous _ _ _ _ hfind hi.find? (heq.trans hi.compiledName.symm))
      refine h.congr ?_ ?_
      · rw [register_store, Store.find?_register_alternate ho hfind hne, if_neg hcc, if_neg hpc]
      · rw [register_store, Store.find?_register_alternate ho hfind hne, if_neg hcs, if_neg hps]

theorem spent_of_commit {d source : Document} (hj : j.Fits r) (ho : o.store.Tidy)
    (hsource : o.store.find? j.source = some source) (hversion : j.version = source.version)
    (hd : o.store.find? j.compiled = some d) (hi : i.Fits r) (heq : i.compiled = j.compiled) :
    (o.committed j d j.run).Spent i := by
  have hfind := (committed_tidy ho hd j.run).2.2
  have hsources : i.source = j.source := by rw [hi.source, hj.source, heq]
  refine ⟨_, by rw [hfind, if_pos heq.symm], fun source' hsource' _ => ?_⟩
  rw [hfind, hsources, if_neg hj.ne.symm, hsource] at hsource'
  have hsame : source'.version = j.version := by rw [hversion, Option.some.inj hsource']
  exact Int.le_of_eq (hsame.trans (Document.settled_version _ _ _).symm)

theorem Spent.move (hr : r.Flat) {js' : List Job} (h : o.Spent i) (hi : i.Fits r)
    (hheld : o.Held i) (htraced : Traced r jobs js o) (ho : o.store.Tidy)
    (m : Move r f jobs o js' o') : o'.Spent i := by
  have htaken := htraced.taken ho m
  by_cases hother : ∀ j ∈ js', j.compiled ≠ i.compiled
  · obtain ⟨d, hd, -⟩ := id h
    obtain ⟨source, hsource, -⟩ := hheld.writes_le
    have hapart : ∀ j ∈ js', j.compiled ≠ i.source := fun j hj =>
      (htaken j hj).1.compiled_ne (hr.not_compiles_source hi.find?)
    refine h.congr ?_ ?_
    · rw [hd, m.find?_of_some ho hd hother]
    · rw [hsource, m.find?_of_some ho hsource hapart]
  · cases m with
    | count | materialize | reserve | keep | keepFor | forget => simp at hother
    | @commit j d hjob hholds hd _ =>
      obtain ⟨hj, hheld'⟩ := htraced.known ho hjob
      obtain ⟨source, hsource, -, -, hversion⟩ := hheld'.current ho hholds
      exact spent_of_commit hj ho hsource hversion hd hi (by simpa [eq_comm] using hother)

/-- The text of a spent job is not taken again: that would need a document older than its source. -/
theorem Spent.not_same {d source : Document} (h : o.Spent i) (hi : i.Fits r) (hheld : o.Held i)
    (ho : o.store.Tidy) (hj : j.Fits r) (hsource : o.store.find? j.source = some source)
    (hbuffer : j.buffer = source.buffer) (hd : o.store.find? j.compiled = some d)
    (hlt : d.version < source.version) : j.buffer.same i.buffer = false := by
  by_contra hsame
  have horigin : j.buffer.origin = i.buffer.origin := by simpa [Buffer.same] using hsame
  obtain ⟨k, -, hk, -⟩ := hheld
  have hpath : j.source = i.source := by
    rw [hbuffer, hk] at horigin
    exact (ho.filed _ _ hsource).symm.trans (Origin.document.inj horigin).1
  have hcompiled : i.compiled = j.compiled := by
    have ht := hi.find?
    rw [← hpath, hj.find?] at ht
    rw [← hi.compiledName, ← hj.compiledName, hpath, Option.some.inj ht]
  have hwrites : i.writes = source.writes := by
    rw [← Job.writes_of_buffer hbuffer, Job.writes, Job.writes, horigin]
  obtain ⟨d', hd', hspent⟩ := h
  rw [hcompiled, hd] at hd'
  obtain rfl := Option.some.inj hd'
  rw [← hpath] at hspent
  exact absurd hlt (Int.not_lt.mpr (hspent source hsource hwrites))

end Overlay

namespace Session

variable {r : Registry} {turn : Turn}

/-- Each commit was made from the source of those before it in the same document, and from no
earlier text. -/
def Ordered (js : List Job) : Prop :=
  js.Pairwise fun later earlier => later.compiled = earlier.compiled →
    later.source = earlier.source ∧ earlier.writes ≤ later.writes

theorem keeps_ordered (hr : r.Unambiguous) (hturn : turn.Plain r) :
    Keeps turn fun jobs js o => Overlay.Traced r jobs js o ∧ Ordered js := by
  have hkeep := keeps_traced hr hturn
  obtain ⟨rfl, -, -⟩ := hturn
  refine ⟨?_, ?_, ?_⟩
  · intro jobs js o path text version hrequest ho h
    exact ⟨hkeep.register jobs js o path text version hrequest ho h.1, h.2⟩
  · intro jobs js o jobs' ho hdue h
    exact ⟨hkeep.collect jobs js o jobs' ho hdue h.1, h.2⟩
  · intro jobs js o js' o' ho m h
    refine ⟨hkeep.move jobs js o js' o' ho m h.1, ?_⟩
    cases m with
    | count | materialize | reserve | keep | keepFor | forget => exact h.2
    | @commit j d hjob hholds hd hlt =>
      obtain ⟨hj, hheld⟩ := h.1.known ho hjob
      obtain ⟨source, hsource, -, hbuffer, -⟩ := hheld.current ho hholds
      refine List.pairwise_cons.mpr ⟨fun i hi heq => ?_, h.2⟩
      have hsources : j.source = i.source := by
        rw [hj.source, (h.1.fits i (.inr hi)).source, heq]
      obtain ⟨source', hsource', hle⟩ := (h.1.held i (.inr hi)).writes_le
      rw [← hsources, hsource] at hsource'
      obtain rfl := Option.some.inj hsource'
      exact ⟨hsources, by rwa [Job.writes_of_buffer hbuffer]⟩

theorem keeps_spent (hr : r.Flat) (hregistry : turn.registry = r)
    (hregisters : ∀ path text version, turn.request = .register path text version →
      r.owner? path = none) :
    Keeps turn fun jobs js o => Overlay.Traced r jobs js o ∧ (∀ i ∈ js, o.Spent i) ∧
      js.Pairwise fun later earlier => later.buffer.same earlier.buffer = false := by
  have hkeep := keeps_traced hr.unambiguous (hr.plain hregistry)
  subst hregistry
  refine ⟨?_, ?_, ?_⟩
  · intro jobs js o path text version hrequest ho ⟨htraced, hspent, hpair⟩
    refine ⟨hkeep.register jobs js o path text version hrequest ho htraced, fun i hi => ?_, hpair⟩
    exact (hspent i hi).register hr (htraced.fits i (.inr hi)) (htraced.held i (.inr hi)) ho
      (hregisters path text version hrequest) text version
  · intro jobs js o jobs' ho hdue ⟨htraced, hspent, hpair⟩
    exact ⟨hkeep.collect jobs js o jobs' ho hdue htraced, hspent, hpair⟩
  · intro jobs js o js' o' ho m ⟨htraced, hspent, hpair⟩
    have hold : ∀ i ∈ js, o'.Spent i := fun i hi =>
      (hspent i hi).move hr (htraced.fits i (.inr hi)) (htraced.held i (.inr hi)) htraced ho m
    refine ⟨hkeep.move jobs js o js' o' ho m htraced, ?_⟩
    cases m with
    | count | materialize | reserve | keep | keepFor | forget => exact ⟨hold, hpair⟩
    | @commit j d hjob hholds hd hlt =>
      obtain ⟨hj, hheld⟩ := htraced.known ho hjob
      obtain ⟨source, hsource, -, hbuffer, hversion⟩ := hheld.current ho hholds
      refine ⟨List.forall_mem_cons.mpr ⟨?_, hold⟩, List.pairwise_cons.mpr ⟨fun i hi => ?_, hpair⟩⟩
      · exact Overlay.spent_of_commit hj ho hsource hversion hd hj rfl
      · rw [hversion] at hlt
        exact (hspent i hi).not_same (htraced.fits i (.inr hi)) (htraced.held i (.inr hi)) ho hj
          hsource hbuffer hd hlt

/-- Settling a job is atomic in every state of a session with a flat registry. A job that is taken
has the text and version of its source at that moment, raises the version of its document, and is
the very job that would be collected then; serving the compiled path would leave the same. A job
that is refused changes nothing. Results replace only results of texts that are no later, and where
no registration names a compiled path each text is taken at most once. -/
theorem settle_atomic {r : Registry} (hr : r.Flat) (project : Project) (turns : List Turn)
    (hturns : ∀ turn ∈ turns, turn.registry = r) :
    let s := run turns (opened project)
    (∀ j ∈ s.jobs, ∀ o', s.overlay.settle j j.run = (true, o') →
      (∃ source d, s.overlay.store.find? j.source = some source ∧
        source.text = j.buffer.text ∧ source.version = j.version ∧
        s.overlay.store.find? j.compiled = some d ∧ d.version < j.version ∧
        o'.store.find? j.compiled = some (d.settled j.version j.run)) ∧
      ∀ f, s.overlay.staleJob r f j.compiled j.source = (some j, s.overlay) ∧
        o'.Agree (s.overlay.serve r f j.compiled).2) ∧
    (∀ j ∈ s.jobs, ∀ o', s.overlay.settle j j.run = (false, o') → o' = s.overlay) ∧
    (s.commits.Pairwise fun later earlier => later.compiled = earlier.compiled →
      later.source = earlier.source ∧ earlier.writes ≤ later.writes) ∧
    ((∀ e ∈ edits turns, r.owner? e.path = none) →
      s.commits.Pairwise fun later earlier => later.buffer.same earlier.buffer = false) := by
  have hopened := steady_opened project
  have hsteady := hopened.run turns
  obtain ⟨htraced, hordered⟩ := Keeps.run (s := opened project)
    (fun turn hturn => keeps_ordered hr.unambiguous (hr.plain (hturns turn hturn))) hopened
    ⟨Overlay.traced_empty r, List.Pairwise.nil⟩
  have hcached := run_cachedCompiled project hturns
  refine ⟨fun j hj o' hsettle => ?_, fun j hj o' hsettle => ?_, hordered, fun hregisters => ?_⟩
  · have hfits := htraced.fits j (.inl hj)
    obtain ⟨source, d, hsource, hnone, hbuffer, hversion, hd, hlt, rfl⟩ :=
      Overlay.settle_true hsteady.tidy (htraced.held j (.inl hj)) (hsteady.reserved j hj) hsettle
    refine ⟨⟨source, d, hsource, ?_, hversion.symm, hd, hlt, ?_⟩, fun f => ⟨?_, ?_⟩⟩
    · rw [hbuffer]
      rfl
    · rw [(Overlay.committed_tidy hsteady.tidy hd j.run).2.2, if_pos rfl]
    · exact Overlay.staleJob_of_lt hfits hsource hbuffer hversion hd hlt f
    · exact Overlay.committed_agree_serve hsteady.tidy hcached hfits hsource hnone hbuffer hversion
        hd hlt f
  · exact Overlay.settle_false (hsteady.reserved j hj) hsettle
  · have hkeep : ∀ turn ∈ turns, Keeps turn _ := fun turn hturn =>
      keeps_spent hr (hturns turn hturn) fun path text version hrequest =>
        hregisters ⟨path, text, version⟩ (mem_edits hturn hrequest)
    have hspent := Keeps.run (s := opened project) hkeep hopened
      ⟨Overlay.traced_empty r, by simp [opened], List.Pairwise.nil⟩
    exact hspent.2.2

/-- A job is taken although its source was registered again, since that came too late. -/
theorem settle_atomic_copying :
    let turn := Turn.mk .copying (.ofRead fun _ => none)
    let s := run [turn (.register "/p/a.v" "two" 2), turn .collect,
      turn (.register "/p/a.v" "one" 1)] (opened sample)
    s.jobs ≠ [] ∧ ∀ j ∈ s.jobs,
      s.overlay.staleJob .copying (.ofRead fun _ => none) j.compiled j.source =
        (some j, s.overlay) := by
  intro turn s
  have hatomic := settle_atomic Registry.flat_copying sample
    [turn (.register "/p/a.v" "two" 2), turn .collect, turn (.register "/p/a.v" "one" 1)]
    (by simp [turn])
  have htaken : ∀ j ∈ s.jobs, (s.overlay.settle j j.run).1 = true := by decide +kernel
  refine ⟨by decide +kernel, fun j hj => ?_⟩
  have hsettle : s.overlay.settle j j.run = (true, (s.overlay.settle j j.run).2) := by
    rw [← htaken j hj]
  exact ((hatomic.1 j hj _ hsettle).2 _).1

end Session

end SourceOverlay
