import Mathlib.Data.List.Induction
import Mathlib.Data.List.Nodup
import SourceOverlay.Proofs.Bookkeeping
import SourceOverlay.Proofs.Jobs

/-!
# One compile for each advance

A compiler is called only for a document that is older than its source, or is not there yet.
Afterwards the document is as old as the source, whether the compile failed or not. From then on
nothing but a registration of the source can set it back: one that raises the version, or one that
takes the source over from the backing store. So a compiled path that was caught up stays so until
its source advances, and that is all there is to count.

Work on a project is sequential here: a refresh is one operation, with nothing between the
collection of its jobs and their settlement. The backing store may change from task to task.
-/

set_option autoImplicit false

namespace SourceOverlay

/-! ### Sequential work -/

inductive Operation where
  | register (path text : String) (version : Version)
  | serve (path : String)
  | refresh
  | resolve (importer : String) (names : List String)
  deriving Repr, DecidableEq

structure Task where
  files : Files
  operation : Operation

namespace Project

def perform (r : Registry) (task : Task) (p : Project) : Project :=
  match task.operation with
  | .register path text version => (p.register r path text version).2
  | .serve path => (p.serve r task.files path).2
  | .refresh => { p with overlay := (p.overlay.refresh r task.files).2 }
  | .resolve importer names => (p.resolveAll r task.files importer names).2

def performAll (r : Registry) : List Task → Project → Project
  | [], p => p
  | task :: tasks, p => performAll r tasks (perform r task p)

theorem performAll_append (r : Registry) (tasks rest : List Task) (p : Project) :
    performAll r (tasks ++ rest) p = performAll r rest (performAll r tasks p) := by
  induction tasks generalizing p with
  | nil => rfl
  | cons task tasks ih => exact ih _

theorem performAll_concat (r : Registry) (tasks : List Task) (task : Task) (p : Project) :
    performAll r (tasks ++ [task]) p = perform r task (performAll r tasks p) :=
  performAll_append r tasks [task] p

end Project

/-- The document at a path has a higher version in the second store, or has passed from disk to the
editor. -/
def Store.Advanced (s s' : Store) (path : String) : Prop :=
  ∃ d d', s.find? path = some d ∧ s'.find? path = some d' ∧
    (d.version < d'.version ∨ d.kind = .disk ∧ d'.kind = .editor)

def Task.Advances (r : Registry) (task : Task) (p : Project) (c : String) : Prop :=
  (∃ text version, task.operation = .register (Name.withoutExtension c) text version) ∧
    p.overlay.store.Advanced (p.perform r task).overlay.store (Name.withoutExtension c)

theorem Document.received_cases {d : Document} (h : d.source? = none) (path text : String)
    (version : Version) :
    (d.kind = .disk ∧ (received (some d) path text version).kind = .editor) ∨
      (d.isDisk = false ∧ d.version ≤ (received (some d) path text version).version) := by
  cases hkind : d.kind with
  | compiled source => simp [source?, hkind] at h
  | disk => simp [received, isEditor, isDisk, promote, write, hkind]
  | editor =>
    refine .inr ⟨by simp [isDisk, hkind], ?_⟩
    simp only [received]
    split
    · exact Int.le_refl _
    · next hnew => simpa [isEditor, hkind, write] using hnew

namespace Overlay

variable {r : Registry} {f : Files} {jobs js : List Job} {o o' : Overlay} {c : String}

def called (o : Overlay) : List String := o.calls.map (·.compiled)

theorem Moves.maintain {motive : Overlay → Prop} (m : Moves r f jobs o js o') (ho : o.store.Tidy)
    (hmove : ∀ js o o', o.store.Tidy → Move r f jobs o js o' → motive o → motive o')
    (h : motive o) : motive o' := by
  induction m with
  | refl => exact h
  | tail m last ih => exact hmove _ _ _ (m.tidy ho).1 last ih

/-! ### Documents in their places -/

structure Arranged (r : Registry) (o : Overlay) : Prop where
  tidy : o.store.Tidy
  placed : o.store.Every (Document.Placed r)

theorem arranged_empty (r : Registry) : Arranged r {} := ⟨Store.tidy_empty, Store.every_empty _⟩

theorem Arranged.register (h : o.Arranged r) (hr : r.Flat) (path text : String)
    (version : Version) : (o.register r path text version).2.Arranged r := by
  refine ⟨?_, register_placed h.placed h.tidy (fun _ hfind => hr.not_compiles_source hfind) text
    version⟩
  rw [register_store]
  exact (h.tidy.register r path text version).1

theorem Arranged.moves (h : o.Arranged r) (hr : r.Flat) (m : Moves r f jobs o js o') :
    o'.Arranged r :=
  ⟨(m.tidy h.tidy).1,
    m.maintain (motive := fun o => o.store.Every (Document.Placed r)) h.tidy
      (fun _ _ _ ho m hp => m.placed hp ho fun _ _ _ hfind _ => hr.not_compiles_source hfind)
      h.placed⟩

theorem Arranged.source?_eq_none (h : o.Arranged r) (hr : r.Flat) {t : Transpiler}
    {source : Document} (howner : r.owner? c = some t)
    (hsource : o.store.find? (Name.withoutExtension c) = some source) : source.source? = none :=
  (h.placed _ _ hsource).source?_eq_none (hr.not_compiles_source (Registry.owner?_cases howner).1)

/-! ### Compiled paths that are caught up -/

/-- The document at a compiled path is there and no older than its source. -/
def CaughtUp (r : Registry) (o : Overlay) (c : String) : Prop :=
  ∃ t d source, r.owner? c = some t ∧ o.store.find? c = some d ∧
    o.store.find? (Name.withoutExtension c) = some source ∧ source.version ≤ d.version

theorem CaughtUp.congr (h : o.CaughtUp r c) (hcompiled : o'.store.find? c = o.store.find? c)
    (hsource : o'.store.find? (Name.withoutExtension c) =
      o.store.find? (Name.withoutExtension c)) : o'.CaughtUp r c := by
  rw [CaughtUp, hcompiled, hsource]
  exact h

theorem not_caughtUp_of_lt {d source : Document} (hd : o.store.find? c = some d)
    (hsource : o.store.find? (Name.withoutExtension c) = some source)
    (hlt : d.version < source.version) : ¬ o.CaughtUp r c := by
  rintro ⟨-, d', source', -, hd', hsource', hle⟩
  obtain rfl := Option.some.inj (hd.symm.trans hd')
  obtain rfl := Option.some.inj (hsource.symm.trans hsource')
  exact absurd hlt (Int.not_lt.mpr hle)

theorem CaughtUp.register_source {path : String} (h : o.CaughtUp r c) (ho : o.Arranged r)
    (hr : r.Flat) (hpath : Name.withoutExtension c = path) (text : String) (version : Version) :
    o.store.Advanced (o.register r path text version).2.store path ∨
      (o.register r path text version).2.CaughtUp r c := by
  obtain ⟨t, d, source, howner, hd, hsource, hle⟩ := h
  have hnone := ho.source?_eq_none hr howner hsource
  obtain ⟨hfind, hname, hne⟩ := Registry.owner?_cases howner
  rw [hpath] at hsource hfind hname hne
  have hafter := Store.find?_register_alternate ho.tidy hfind (hname.trans_ne hne.symm) text version
  have hd' := hafter c
  have hsource' := hafter path
  rw [hname, if_pos rfl, hd, hsource] at hd'
  rw [hname, if_neg hne.symm, if_pos rfl, hsource] at hsource'
  rw [CaughtUp, hpath, register_store]
  obtain ⟨hdisk, heditor⟩ | ⟨hdisk, hversion⟩ := Document.received_cases hnone path text version
  · exact .inl ⟨source, _, hsource, hsource', .inr ⟨hdisk, heditor⟩⟩
  · rcases Int.lt_or_eq_of_le hversion with hlt | heq
    · exact .inl ⟨source, _, hsource, hsource', .inl hlt⟩
    · refine .inr ⟨t, d, _, howner, ?_, hsource', heq ▸ hle⟩
      rw [hd']
      simp [Store.paired, hdisk]

theorem CaughtUp.register {path : String} (h : o.CaughtUp r c) (ho : o.Arranged r) (hr : r.Flat)
    (hpath : r.owner? path = none) (text : String) (version : Version) :
    (Name.withoutExtension c = path ∧
      o.store.Advanced (o.register r path text version).2.store path) ∨
    (o.register r path text version).2.CaughtUp r c := by
  by_cases hp : Name.withoutExtension c = path
  · exact (h.register_source ho hr hp text version).imp_left fun hadvanced => ⟨hp, hadvanced⟩
  · obtain ⟨t, d, source, howner, -⟩ := id h
    have hpc : path ≠ c := by
      rintro rfl
      simp [howner] at hpath
    obtain ⟨hfind, -, -⟩ := Registry.owner?_cases howner
    refine .inr (h.congr ?_ ?_)
    · rw [register_store, Store.find?_register_unpaired ho.tidy _ text version, if_neg hpc]
      intro u hu hname
      exact hp (by rw [← hname, hr.withoutExtension_compiledName hu])
    · rw [register_store, Store.find?_register_unpaired ho.tidy _ text version,
        if_neg (Ne.symm hp)]
      exact fun u hu => Registry.compiledName_ne (hr.not_compiles_source hfind) hu

theorem Move.fits (m : Move r f jobs o js o') (hjobs : ∀ j ∈ jobs, j.Fits r) :
    ∀ j ∈ js, j.Fits r := by
  intro i hi
  cases m with
  | count | materialize | reserve | keep | keepFor | forget => simp at hi
  | commit hjob _ _ _ =>
    obtain rfl := List.mem_singleton.mp hi
    exact hjob.elim (hjobs i) (·.fits)

theorem Move.version_le {p : String} {d : Document} (m : Move r f jobs o js o')
    (ho : o.store.Tidy) (hd : o.store.find? p = some d) :
    ∃ d', o'.store.find? p = some d' ∧ d.version ≤ d'.version := by
  by_cases hother : ∀ j ∈ js, j.compiled ≠ p
  · exact ⟨d, m.find?_of_some ho hd hother, Int.le_refl _⟩
  · cases m with
    | count | materialize | reserve | keep | keepFor | forget => simp at hother
    | @commit j e _ _ he hlt =>
      obtain rfl : j.compiled = p := by simpa using hother
      obtain rfl := Option.some.inj (hd.symm.trans he)
      refine ⟨_, ((committed_tidy ho hd j.run).2.2 _).trans (if_pos rfl), ?_⟩
      rw [Document.settled_version]
      exact Int.le_of_lt hlt

theorem Moves.find?_source {p : String} {t : Transpiler} {d : Document}
    (m : Moves r f jobs o js o') (ho : o.store.Tidy) (hr : r.Flat) (hjobs : ∀ j ∈ jobs, j.Fits r)
    (hp : r.find? (Name.extension p) = some t) (hd : o.store.find? p = some d) :
    o'.store.find? p = some d :=
  m.maintain (motive := fun o => o.store.find? p = some d) ho
    (fun _ _ _ ho m hd => m.find?_of_some ho hd fun j hj =>
      (m.fits hjobs j hj).compiled_ne (hr.not_compiles_source hp)) hd

theorem Moves.version_le {p : String} {d : Document} (m : Moves r f jobs o js o')
    (ho : o.store.Tidy) (hd : o.store.find? p = some d) :
    ∃ d', o'.store.find? p = some d' ∧ d.version ≤ d'.version := by
  refine m.maintain (motive := fun o => ∃ d', o.store.find? p = some d' ∧ d.version ≤ d'.version)
    ho ?_ ⟨d, hd, Int.le_refl _⟩
  intro _ _ _ ho m ⟨d', hd', hle⟩
  obtain ⟨d'', hd'', hle'⟩ := m.version_le ho hd'
  exact ⟨d'', hd'', Int.le_trans hle hle'⟩

theorem CaughtUp.moves (h : o.CaughtUp r c) (ho : o.store.Tidy) (hr : r.Flat)
    (hjobs : ∀ j ∈ jobs, j.Fits r) (m : Moves r f jobs o js o') : o'.CaughtUp r c := by
  obtain ⟨t, d, source, howner, hd, hsource, hle⟩ := h
  obtain ⟨d', hd', hversion⟩ := m.version_le ho hd
  exact ⟨t, d', source, howner, hd',
    m.find?_source ho hr hjobs (Registry.owner?_cases howner).1 hsource, Int.le_trans hle hversion⟩

theorem committed_caughtUp {j : Job} {d source : Document} (ho : o.store.Tidy) (hfits : j.Fits r)
    (hs : o.store.find? j.source = some source) (hversion : j.version = source.version)
    (hd : o.store.find? j.compiled = some d) :
    (o.committed j d j.run).CaughtUp r j.compiled := by
  obtain ⟨-, -, hfind⟩ := committed_tidy ho hd j.run
  refine ⟨_, _, source, hfits.owner, (hfind _).trans (if_pos rfl), ?_, ?_⟩
  · rw [← hfits.source]
    exact (hfind _).trans ((if_neg hfits.ne.symm).trans hs)
  · exact Int.le_of_eq (hversion.symm.trans (Document.settled_version d j.version j.run).symm)

/-! ### Calls -/

/-- The calls that take one state to another: none twice, none for a path that was caught up, and
each leaves its path caught up. -/
structure Economic (r : Registry) (o o' : Overlay) (paths : List String) : Prop where
  called : o'.called = o.called ++ paths
  nodup : paths.Nodup
  behind : ∀ c ∈ paths, ¬ o.CaughtUp r c
  ahead : ∀ c ∈ paths, o'.CaughtUp r c

theorem economic_of_calls (r : Registry) (h : o'.calls = o.calls) : Economic r o o' [] :=
  ⟨by simp [Overlay.called, h], List.nodup_nil, by simp, by simp⟩

theorem serveNative_calls (f : Files) (o : Overlay) (path : String) :
    (o.serveNative f path).2.calls = o.calls := by
  unfold serveNative
  split
  · rfl
  · simp only
    split
    · rfl
    · split <;> rfl

theorem serveStale_economic {j : Job} (ho : o.Arranged r) (hr : r.Flat) (hj : o.Current r j) :
    ∃ paths, Economic r o (o.serveStale j).2 paths ∧ ∀ c ∈ paths, c = j.compiled := by
  obtain ⟨hfits, source, hs, hbuffer, hversion⟩ := hj
  obtain ⟨htidy, -, hsource, hd⟩ := missed_tidy ho.tidy hs hfits.ne
  have hnone : source.source? = none :=
    ho.source?_eq_none hr hfits.owner (hfits.source ▸ hs)
  obtain ⟨hlt, -, -, heq⟩ | ⟨-, hcompiled, -⟩ | ⟨-, heq⟩ :=
    serveStale_cases ho.tidy hs hbuffer hfits.ne hd
  · refine ⟨[j.compiled], ⟨?_, by simp, ?_, ?_⟩, by simp⟩
    · rw [heq]
      simp [Overlay.called, keptFor, call, missed, countMiss]
    · rintro c hc ⟨t, d', source', -, hd', hs', hle⟩
      obtain rfl := List.mem_singleton.mp hc
      rw [← hfits.source, hs] at hs'
      rw [hd', Option.getD_some, hversion, Option.some.inj hs'] at hlt
      exact absurd hlt (Int.not_lt.mpr hle)
    · intro c hc
      obtain rfl := List.mem_singleton.mp hc
      rw [heq]
      exact committed_caughtUp (o := (o.missed j).call [j]) htidy hfits hsource hversion hd
  · exact absurd hnone hcompiled
  · exact ⟨[], economic_of_calls r (by rw [heq]; rfl), by simp⟩

theorem serveFound_economic {j : Job} (ho : o.Arranged r) (hr : r.Flat) (hj : o.Current r j) :
    ∃ paths, Economic r o (o.serveFound j).2 paths ∧ ∀ c ∈ paths, c = j.compiled := by
  unfold serveFound
  split
  · exact ⟨[], economic_of_calls r rfl, by simp⟩
  · exact serveStale_economic ho hr hj

theorem serve_economic (ho : o.Arranged r) (hr : r.Flat) (f : Files) (path : String) :
    ∃ paths, Economic r o (o.serve r f path).2 paths := by
  unfold serve
  split
  · next t howner =>
    rw [serveCompiled_eq]
    cases hs : o.store.find? (Name.withoutExtension path) with
    | some source =>
      rw [sourceText_of_some hs]
      obtain ⟨paths, h, -⟩ := serveFound_economic
        (j := ⟨t, Name.withoutExtension path, path, source.buffer, source.version⟩)
        ho hr ⟨⟨howner, rfl⟩, source, hs, rfl, rfl⟩
      exact ⟨paths, h⟩
    | none =>
      cases hread : f.read? (Name.withoutExtension path) with
      | none =>
        rw [sourceText_of_none hs hread]
        exact ⟨[], economic_of_calls r rfl⟩
      | some text =>
        rw [sourceText_of_read hs hread]
        obtain ⟨-, -, hfind⟩ := ho.tidy.materialize hs text
        have hmove : Move r f [] o [] _ := .materialize (Registry.owner?_cases howner).1 hs hread
        obtain ⟨paths, h, hpaths⟩ := serveFound_economic
          (o := { o with store := (o.store.materialize _ text).2 })
          (j := ⟨t, Name.withoutExtension path, path, _, storedVersion⟩)
          (ho.moves hr hmove.moves) hr
          ⟨⟨howner, rfl⟩, _, (hfind _).trans (if_pos rfl), rfl, rfl⟩
        -- A source that was not there had nothing caught up with it.
        refine ⟨paths, h.called, h.nodup, ?_, h.ahead⟩
        rintro c hc ⟨-, -, source, -, -, hsource, -⟩
        rw [hpaths c hc, hs] at hsource
        simp at hsource
  · exact ⟨[], economic_of_calls r (serveNative_calls f o path)⟩

/-! ### Refreshes -/

theorem staleJob_compiled {compiled source : String} {j : Job}
    (h : (o.staleJob r f compiled source).1 = some j) : j.compiled = compiled := by
  unfold staleJob at h
  split at h
  · simp at h
  · split at h
    · simp at h
    · simp only [Option.ite_none_right_eq_some, Option.some.injEq] at h
      rw [← h.2]

theorem collectFrom_sublist (pairs : List (String × String)) (o : Overlay) :
    ((collectFrom r f pairs o).1.map (·.compiled)).Sublist (pairs.map (·.1)) := by
  induction pairs generalizing o with
  | nil => simp [collectFrom]
  | cons pair rest ih =>
    obtain ⟨compiled, source⟩ := pair
    simp only [collectFrom, List.map_append, List.map_cons]
    cases hjob : (o.staleJob r f compiled source).1 with
    | none => exact (ih _).cons _
    | some j =>
      simp only [Option.toList_some, List.map_cons, List.map_nil, List.singleton_append,
        staleJob_compiled hjob]
      exact (ih _).cons_cons _

theorem collect_nodup (ho : o.store.Tidy) : ((o.collect r f).1.map (·.compiled)).Nodup := by
  have hpairs : (o.store.pairs.map (·.1)).Nodup :=
    List.pairwise_map.mpr ((Store.pairs_ascending ho).imp fun h => String.ne_of_lt h)
  exact (collectFrom_sublist o.store.pairs o).nodup hpairs

theorem settle_moves {j : Job} (hj : j ∈ jobs) (hd : (o.store.find? j.compiled).isSome = true) :
    ∃ js, Moves r f jobs o js (o.settle j j.run).2 := by
  obtain ⟨d, hd⟩ := Option.isSome_iff_exists.mp hd
  obtain ⟨hholds, hlt, heq⟩ | ⟨-, heq⟩ := settle_cases hd j.run
  · rw [heq]
    exact ⟨_, (Move.commit (.inl hj) hholds hd hlt).moves⟩
  · rw [heq]
    exact ⟨_, .refl⟩

theorem settle_calls {j : Job} (hd : (o.store.find? j.compiled).isSome = true) :
    (o.settle j j.run).2.calls = o.calls := by
  obtain ⟨d, hd⟩ := Option.isSome_iff_exists.mp hd
  obtain ⟨-, -, heq⟩ | ⟨-, heq⟩ := settle_cases hd j.run
  · rw [heq]
    exact committed_calls o j d j.run
  · rw [heq]

theorem settle_caughtUp {j : Job} (ho : o.Arranged r) (hr : r.Flat) (hj : o.Current r j)
    (hd : (o.store.find? j.compiled).isSome = true) :
    (o.settle j j.run).2.CaughtUp r j.compiled := by
  obtain ⟨d, hd⟩ := Option.isSome_iff_exists.mp hd
  obtain ⟨hfits, source, hs, hbuffer, hversion⟩ := hj
  have hs' : o.store.find? (Name.withoutExtension j.compiled) = some source := hfits.source ▸ hs
  have hholds : o.holds j = true := by
    rw [holds_of_buffer hs hbuffer, ho.source?_eq_none hr hfits.owner hs']
    rfl
  obtain ⟨-, -, heq⟩ | ⟨hnot, heq⟩ := settle_cases hd j.run
  · rw [heq]
    exact committed_caughtUp ho.tidy hfits hs hversion hd
  · rw [heq]
    refine ⟨_, d, source, hfits.owner, hd, hs', ?_⟩
    rw [← hversion]
    exact Int.not_lt.mp fun hlt => hnot ⟨hholds, hlt⟩

theorem Current.moves {j : Job} (h : o.Current r j) (ho : o.store.Tidy) (hr : r.Flat)
    (hjobs : ∀ j ∈ jobs, j.Fits r) (m : Moves r f jobs o js o') : o'.Current r j := by
  obtain ⟨hfits, source, hs, htaken⟩ := h
  exact ⟨hfits, source, m.find?_source ho hr hjobs hfits.find? hs, htaken⟩

/-- Settling current jobs one after the other: no result is lost, since no result of one is the
source of another. -/
theorem settleAll_spec (hr : r.Flat) (hjobs : ∀ j ∈ jobs, j.Fits r) {current : List Job}
    (hsub : ∀ j ∈ current, j ∈ jobs) (ho : o.Arranged r)
    (hcurrent : ∀ j ∈ current, o.Current r j ∧ (o.store.find? j.compiled).isSome = true)
    (counts : Refreshed) :
    let o' := (settleAll (current.map fun j => (j, j.run)) (counts, o)).2
    (∃ js, Moves r f jobs o js o') ∧ o'.calls = o.calls ∧
      ∀ j ∈ current, o'.CaughtUp r j.compiled := by
  induction current generalizing o counts with
  | nil => exact ⟨⟨_, .refl⟩, rfl, by simp⟩
  | cons j rest ih =>
    obtain ⟨hj, hd⟩ := hcurrent j List.mem_cons_self
    obtain ⟨js, m⟩ := settle_moves (r := r) (f := f) (hsub j List.mem_cons_self) hd
    have ho' := ho.moves hr m
    obtain ⟨⟨js', m'⟩, hcalls, hcaught⟩ := ih (fun i hi => hsub i (List.mem_cons_of_mem _ hi)) ho'
      (fun i hi =>
        have hi := hcurrent i (List.mem_cons_of_mem _ hi)
        ⟨hi.1.moves ho.tidy hr hjobs m, (m.tidy ho.tidy).2.isSome hi.2⟩)
      (counts.count (o.settle j j.run).1 j.run.toBool)
    refine ⟨⟨_, m.trans m'⟩, hcalls.trans (settle_calls hd), fun i hi => ?_⟩
    rcases List.mem_cons.mp hi with rfl | hi
    · exact (settle_caughtUp ho hr hj hd).moves ho'.tidy hr hjobs m'
    · exact hcaught i hi

theorem Due.current {j : Job} (h : o.Due r j) (ho : o.Arranged r) (hr : r.Flat) :
    o.Current r j ∧ (o.store.find? j.compiled).isSome = true ∧ ¬ o.CaughtUp r j.compiled := by
  have hfits := h.fits hr.unambiguous ho.placed
  obtain ⟨-, d, source, hd, -, hs, hbuffer, hversion, hlt⟩ := h
  exact ⟨⟨hfits, source, hs, hbuffer, hversion⟩, by simp [hd],
    not_caughtUp_of_lt hd (hfits.source ▸ hs) hlt⟩

theorem refresh_spec (ho : o.Arranged r) (hr : r.Flat) (f : Files) :
    (∃ js, (∀ j ∈ (o.collect r f).1, j.Fits r) ∧
      Moves r f (o.collect r f).1 o js (o.refresh r f).2) ∧
    Economic r o (o.refresh r f).2 ((o.collect r f).1.map (·.compiled)) := by
  obtain ⟨hstay, hdue⟩ := collect_eq (r := r) (f := f) ho.tidy
  have hfits : ∀ j ∈ (o.collect r f).1, j.Fits r := fun j hj =>
    ((hdue j).mp hj).fits hr.unambiguous ho.placed
  have hnodup := collect_nodup (r := r) (f := f) ho.tidy
  by_cases hempty : (o.collect r f).1 = []
  · have heq : (o.refresh r f).2 = o := by
      simp [refresh, refreshWith, hstay, hempty]
    rw [heq, hempty]
    exact ⟨⟨[], by simp, .refl⟩, economic_of_calls r rfl⟩
  · have heq : (o.refresh r f).2 = (settleAll ((o.collect r f).1.map fun j => (j, j.run))
        ({}, o.call (o.collect r f).1)).2 := by
      simp only [refresh, refreshWith, hstay, List.isEmpty_iff, if_neg hempty]
    have hcall : Move r f (o.collect r f).1 o [] (o.call (o.collect r f).1) :=
      .count _ _ _ (o.calls ++ (o.collect r f).1)
    obtain ⟨⟨js, m⟩, hcalls, hcaught⟩ := settleAll_spec (f := f) (o := o.call (o.collect r f).1) hr
      hfits (fun _ h => h) (ho.moves hr hcall.moves)
      (fun j hj =>
        have hj := ((hdue j).mp hj).current ho hr
        ⟨⟨hj.1.fits, hj.1.taken⟩, hj.2.1⟩) {}
    rw [heq]
    refine ⟨⟨_, hfits, hcall.moves.trans m⟩, ?_, hnodup, ?_, ?_⟩
    · rw [Overlay.called, hcalls]
      simp [call, Overlay.called]
    · intro c hc
      obtain ⟨j, hj, rfl⟩ := List.mem_map.mp hc
      exact (((hdue j).mp hj).current ho hr).2.2
    · intro c hc
      obtain ⟨j, hj, rfl⟩ := List.mem_map.mp hc
      exact hcaught j hj

end Overlay

/-! ### Runs -/

def Task.Plain (r : Registry) (task : Task) : Prop :=
  ∀ path text version, task.operation = .register path text version → r.owner? path = none

namespace Project

variable {r : Registry} {p : Project} {task : Task}

theorem perform_arranged (h : p.overlay.Arranged r) (hr : r.Flat) (task : Task) :
    (p.perform r task).overlay.Arranged r := by
  obtain ⟨f, operation⟩ := task
  cases operation with
  | register path text version =>
    simp only [perform, register_overlay]
    exact h.register hr path text version
  | serve path =>
    have m : Overlay.Moves r f [] p.overlay _ _ := Overlay.serve_moves h.tidy path
    simp only [perform, serve_overlay]
    exact h.moves hr m
  | refresh =>
    obtain ⟨⟨js, -, m⟩, -⟩ := Overlay.refresh_spec h hr f
    exact h.moves hr m
  | resolve importer names => exact h

theorem perform_caughtUp {c : String} (h : p.overlay.Arranged r) (hr : r.Flat)
    (htask : task.Plain r) (hc : p.overlay.CaughtUp r c) :
    task.Advances r p c ∨ (p.perform r task).overlay.CaughtUp r c := by
  obtain ⟨f, operation⟩ := task
  cases operation with
  | register path text version =>
    obtain ⟨rfl, hadvanced⟩ | hc' := hc.register h hr (htask path text version rfl) text version
    · refine .inl ⟨⟨text, version, rfl⟩, ?_⟩
      simp only [perform, register_overlay]
      exact hadvanced
    · simp only [perform, register_overlay]
      exact .inr hc'
  | serve path =>
    have m : Overlay.Moves r f [] p.overlay _ _ := Overlay.serve_moves h.tidy path
    simp only [perform, serve_overlay]
    exact .inr (hc.moves h.tidy hr (by simp) m)
  | refresh =>
    obtain ⟨⟨js, hfits, m⟩, -⟩ := Overlay.refresh_spec h hr f
    exact .inr (hc.moves h.tidy hr hfits m)
  | resolve importer names => exact .inr hc

theorem perform_economic (h : p.overlay.Arranged r) (hr : r.Flat) (task : Task) :
    ∃ paths, Overlay.Economic r p.overlay (p.perform r task).overlay paths := by
  obtain ⟨f, operation⟩ := task
  cases operation with
  | register path text version =>
    refine ⟨[], Overlay.economic_of_calls r ?_⟩
    simp only [perform, register_overlay, Overlay.register]
  | serve path =>
    simp only [perform, serve_overlay]
    exact Overlay.serve_economic h hr f path
  | refresh => exact ⟨_, (Overlay.refresh_spec h hr f).2⟩
  | resolve importer names => exact ⟨[], Overlay.economic_of_calls r rfl⟩

theorem performAll_arranged (h : p.overlay.Arranged r) (hr : r.Flat) (tasks : List Task) :
    (p.performAll r tasks).overlay.Arranged r := by
  induction tasks generalizing p with
  | nil => exact h
  | cons task tasks ih => exact ih (perform_arranged h hr task)

theorem performAll_called (h : p.overlay.Arranged r) (hr : r.Flat) (tasks : List Task) :
    p.overlay.called <+: (p.performAll r tasks).overlay.called := by
  induction tasks generalizing p with
  | nil => exact List.prefix_rfl
  | cons task tasks ih =>
    obtain ⟨paths, heconomic⟩ := perform_economic h hr task
    exact (List.prefix_append _ paths).trans
      (heconomic.called ▸ ih (perform_arranged h hr task))

/-- One of the tasks advanced the source of a compiled path when more than `i` calls had been
made. -/
def AdvancedAfter (r : Registry) (p : Project) (tasks : List Task) (c : String) (i : Nat) : Prop :=
  ∃ before task after, tasks = before ++ task :: after ∧
    task.Advances r (p.performAll r before) c ∧
    i < (p.performAll r before).overlay.called.length

theorem AdvancedAfter.append {tasks : List Task} {c : String} {i : Nat}
    (h : p.AdvancedAfter r tasks c i) (rest : List Task) :
    p.AdvancedAfter r (tasks ++ rest) c i := by
  obtain ⟨before, task, after, rfl, h⟩ := h
  exact ⟨before, task, after ++ rest, by simp, h⟩

/-- A compiled path for which a compiler was called is caught up, unless its source was advanced
since. -/
theorem caughtUp_or_advancedAfter {tasks : List Task} {c : String} {i : Nat} (hr : r.Flat)
    (hp : p.overlay = {}) (htasks : ∀ task ∈ tasks, task.Plain r)
    (hi : (p.performAll r tasks).overlay.called[i]? = some c) :
    (p.performAll r tasks).overlay.CaughtUp r c ∨ p.AdvancedAfter r tasks c i := by
  have harranged := performAll_arranged (hp ▸ Overlay.arranged_empty r) hr
  induction tasks using List.reverseRecOn with
  | nil => simp [performAll, hp, Overlay.called] at hi
  | append_singleton tasks task ih =>
    obtain ⟨paths, heconomic⟩ := perform_economic (harranged tasks) hr task
    rw [performAll_concat, heconomic.called] at hi
    rw [performAll_concat]
    by_cases hlt : i < (p.performAll r tasks).overlay.called.length
    · rw [List.getElem?_append_left hlt] at hi
      obtain hc | hafter := ih (fun t ht => htasks t (List.mem_append_left _ ht)) hi
      · obtain hadvances | hc' := perform_caughtUp (harranged tasks) hr (htasks task (by simp)) hc
        · exact .inr ⟨tasks, task, [], rfl, hadvances, hlt⟩
        · exact .inl hc'
      · exact .inr (hafter.append [task])
    · rw [List.getElem?_append_right (Nat.not_lt.mp hlt)] at hi
      exact .inl (heconomic.ahead c (List.mem_of_getElem? hi))

theorem advanced_between_calls {tasks : List Task} {c : String} {i k : Nat} (hr : r.Flat)
    (hp : p.overlay = {}) (htasks : ∀ task ∈ tasks, task.Plain r) (hik : i < k)
    (hi : (p.performAll r tasks).overlay.called[i]? = some c)
    (hk : (p.performAll r tasks).overlay.called[k]? = some c) :
    ∃ before task after, tasks = before ++ task :: after ∧
      task.Advances r (p.performAll r before) c ∧
      i < (p.performAll r before).overlay.called.length ∧
      (p.performAll r (before ++ [task])).overlay.called.length ≤ k := by
  have harranged := performAll_arranged (hp ▸ Overlay.arranged_empty r) hr
  induction tasks using List.reverseRecOn with
  | nil => simp [performAll, hp, Overlay.called] at hi
  | append_singleton tasks task ih =>
    have hplain : ∀ t ∈ tasks, t.Plain r := fun t ht => htasks t (List.mem_append_left _ ht)
    obtain ⟨paths, heconomic⟩ := perform_economic (harranged tasks) hr task
    rw [performAll_concat, heconomic.called] at hi hk
    by_cases hlt : k < (p.performAll r tasks).overlay.called.length
    · rw [List.getElem?_append_left (by omega)] at hi hk
      obtain ⟨before, task', after, rfl, h⟩ := ih hplain hi hk
      exact ⟨before, task', after ++ [task], by simp, h⟩
    · rw [List.getElem?_append_right (by omega)] at hk
      have hbehind := heconomic.behind c (List.mem_of_getElem? hk)
      by_cases hlt' : i < (p.performAll r tasks).overlay.called.length
      · rw [List.getElem?_append_left hlt'] at hi
        obtain ⟨before, task', after, rfl, hadvances, hbefore⟩ :=
          (caughtUp_or_advancedAfter hr hp hplain hi).resolve_left hbehind
        refine ⟨before, task', after ++ [task], by simp, hadvances, hbefore, ?_⟩
        have hcalled := performAll_called (harranged (before ++ [task'])) hr after
        rw [← performAll_append, List.append_assoc] at hcalled
        exact hcalled.length_le.trans (Nat.not_lt.mp hlt)
      · -- Both calls were made by one task, which calls for no path twice.
        rw [List.getElem?_append_right (by omega)] at hi
        have hne := List.nodup_iff_getElem?_ne_getElem?.mp heconomic.nodup
          (i - (p.performAll r tasks).overlay.called.length)
          (k - (p.performAll r tasks).overlay.called.length) (by omega)
          (List.getElem?_eq_some_iff.mp hk).1
        exact absurd (hi.trans hk.symm) hne

theorem count_called_of_not_advanced {tasks : List Task} {c : String} (hr : r.Flat)
    (hp : p.overlay.Arranged r) (htasks : ∀ task ∈ tasks, task.Plain r)
    (hquiet : ∀ before task after, tasks = before ++ task :: after →
      ¬ task.Advances r (p.performAll r before) c) :
    (p.performAll r tasks).overlay.called.count c = p.overlay.called.count c ∨
      (p.performAll r tasks).overlay.called.count c = p.overlay.called.count c + 1 ∧
        (p.performAll r tasks).overlay.CaughtUp r c := by
  have harranged := performAll_arranged hp hr
  induction tasks using List.reverseRecOn with
  | nil => exact .inl rfl
  | append_singleton tasks task ih =>
    have hbefore := ih (fun t ht => htasks t (List.mem_append_left _ ht))
      fun before t after heq => hquiet before t (after ++ [task]) (by simp [heq])
    have hstill := hquiet tasks task [] rfl
    obtain ⟨paths, heconomic⟩ := perform_economic (harranged tasks) hr task
    rw [performAll_concat, heconomic.called, List.count_append]
    by_cases hc : c ∈ paths
    · rw [List.count_eq_one_of_mem heconomic.nodup hc]
      obtain hcount | ⟨-, hcaught⟩ := hbefore
      · exact .inr ⟨by rw [hcount], heconomic.ahead c hc⟩
      · exact absurd hcaught (heconomic.behind c hc)
    · rw [List.count_eq_zero_of_not_mem hc, Nat.add_zero]
      refine hbefore.imp id fun ⟨hcount, hcaught⟩ => ⟨hcount, ?_⟩
      exact (perform_caughtUp (harranged tasks) hr (htasks task (by simp)) hcaught).resolve_left
        hstill

/-- Compilers are called once for each advance of a source. Between two calls for one compiled path
its source was registered and so advanced; and while it is not advanced, whatever is served or
refreshed and whether or not the compile succeeded, there is one call for the path at most. -/
theorem performAll_calls (hr : r.Flat) (project : Project) (tasks : List Task)
    (htasks : ∀ task ∈ tasks, task.Plain r) (c : String) :
    let after := fun tasks => performAll r tasks { project with overlay := {} }
    (∀ i k, i < k → (after tasks).overlay.called[i]? = some c →
      (after tasks).overlay.called[k]? = some c →
      ∃ before task rest, tasks = before ++ task :: rest ∧ task.Advances r (after before) c ∧
        i < (after before).overlay.called.length ∧
        (after (before ++ [task])).overlay.called.length ≤ k) ∧
    ∀ before between, tasks = before ++ between →
      (∀ earlier task later, between = earlier ++ task :: later →
        ¬ task.Advances r (after (before ++ earlier)) c) →
      (after tasks).overlay.called.count c ≤ (after before).overlay.called.count c + 1 := by
  refine ⟨fun i k hik hi hk => advanced_between_calls hr rfl htasks hik hi hk, ?_⟩
  rintro before between rfl hquiet
  have harranged := performAll_arranged (p := { project with overlay := {} })
    (Overlay.arranged_empty r) hr before
  simp only [performAll_append] at hquiet ⊢
  obtain hcount | ⟨hcount, -⟩ := count_called_of_not_advanced hr harranged
    (fun task htask => htasks task (List.mem_append_right _ htask)) hquiet
  · omega
  · omega

/-- The source is read from the backing store, which then changes, and later it is taken over by an
editor with a text that does not compile. The compiler is called once before that and once after. -/
theorem performAll_calls_copying :
    let files (text : String) : Files := .ofRead fun p => if p = "/p/a.v" then some text else none
    let before : List Task :=
      [⟨files "one", .serve "/p/a.v.ts"⟩, ⟨files "two", .refresh⟩,
        ⟨files "two", .serve "/p/a.v.ts"⟩, ⟨files "two", .register "/p/a.v" "bad" 0⟩]
    let between : List Task :=
      [⟨files "two", .serve "/p/a.v.ts"⟩, ⟨files "two", .refresh⟩,
        ⟨files "six", .serve "/p/a.v.ts"⟩]
    let after := fun tasks => performAll .copying tasks { Session.sample with overlay := {} }
    (after (before ++ between)).overlay.called = ["/p/a.v.ts", "/p/a.v.ts"] ∧
    (∃ earlier task rest, before ++ between = earlier ++ task :: rest ∧
      task.Advances .copying (after earlier) "/p/a.v.ts" ∧
      0 < (after earlier).overlay.called.length ∧
      (after (earlier ++ [task])).overlay.called.length ≤ 1) ∧
    (after (before ++ between)).overlay.called.count "/p/a.v.ts" ≤
      (after before).overlay.called.count "/p/a.v.ts" + 1 := by
  intro files before between after
  have hcalled : (after (before ++ between)).overlay.called = ["/p/a.v.ts", "/p/a.v.ts"] := by
    decide +kernel
  have howner : Registry.copying.owner? "/p/a.v" = none := by decide +kernel
  have hplain : ∀ task ∈ before ++ between, task.Plain .copying := by
    simp [before, between, Task.Plain, howner]
  obtain ⟨hbetween, hcount⟩ := performAll_calls Registry.flat_copying Session.sample
    (before ++ between) hplain "/p/a.v.ts"
  refine ⟨hcalled, hbetween 0 1 Nat.zero_lt_one ?_ ?_, hcount before between rfl ?_⟩
  · exact congrArg (·[0]?) hcalled
  · exact congrArg (·[1]?) hcalled
  · rintro earlier task later heq ⟨⟨text, version, hregister⟩, -⟩
    have htask : task ∈ between := by simp [heq]
    simp only [between, List.mem_cons, List.not_mem_nil, or_false] at htask
    rcases htask with rfl | rfl | rfl <;> simp at hregister

end Project

end SourceOverlay
