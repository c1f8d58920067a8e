import SourceOverlay.Proofs.Caching
import SourceOverlay.Proofs.Economy
import SourceOverlay.Proofs.Positions

/-!
# Separation

A set of files is separate if with every source it has the compiled form and with every compiled
form the source. Two overlays are alike on such a set if they have the same documents, records and
reports for its files. An operation on a file of the set does the same to overlays that are alike,
and an operation on any other file leaves an overlay alike to what it was. The cache is shared by
all files, and so are the counts, but neither shows in what is served.
-/

set_option autoImplicit false

namespace SourceOverlay

/-- The set has a compiled form if and only if it has the source. -/
def Registry.Separates (r : Registry) (own : String → Bool) : Prop :=
  ∀ p t, r.find? (Name.extension p) = some t → own (t.compiledName p) = own p

namespace Registry.Separates

variable {r : Registry} {own : String → Bool}

theorem owner {path : String} {t : Transpiler} (hown : r.Separates own)
    (h : r.owner? path = some t) : own (Name.withoutExtension path) = own path := by
  obtain ⟨hfind, hname, -⟩ := owner?_cases h
  rw [← hown _ t hfind, hname]

theorem job {j : Job} (hown : r.Separates own) (h : j.Fits r) : own j.source = own j.compiled := by
  rw [← hown _ _ h.find?, h.compiledName]

end Registry.Separates

/-! ### Stores -/

def Store.Alike (own : String → Bool) (s s' : Store) : Prop :=
  ∀ p, own p = true → s.find? p = s'.find? p

namespace Store.Alike

variable {own : String → Bool} {s s' u u' : Store} {p : String} {d : Document}

theorem update (h : s.Alike own s')
    (hu : ∀ q, u.find? q = if p = q then some d else s.find? q)
    (hu' : ∀ q, u'.find? q = if p = q then some d else s'.find? q) : u.Alike own u' := by
  intro q hq
  rw [hu, hu', h q hq]

theorem frame (hp : own p = false) (hu : ∀ q, u.find? q = if p = q then some d else s.find? q) :
    u.Alike own s := by
  intro q hq
  rw [hu, if_neg]
  rintro rfl
  simp [hp] at hq

end Store.Alike

namespace Overlay

variable {r : Registry} {f : Files} {own : String → Bool} {o o' : Overlay}

/-! ### Overlays that are alike -/

structure Alike (own : String → Bool) (o o' : Overlay) : Prop where
  store : o.store.Alike own o'.store
  records : ∀ p, own p = true → o.records.find? p = o'.records.find? p
  reports : o.reports.filter (fun x => own x.source) = o'.reports.filter fun x => own x.source

theorem Alike.refl (own : String → Bool) (o : Overlay) : o.Alike own o :=
  ⟨fun _ _ => rfl, fun _ _ => rfl, rfl⟩

theorem Alike.symm (h : o.Alike own o') : o'.Alike own o :=
  ⟨fun p hp => (h.store p hp).symm, fun p hp => (h.records p hp).symm, h.reports.symm⟩

theorem Alike.trans {o'' : Overlay} (h : o.Alike own o') (h' : o'.Alike own o'') :
    o.Alike own o'' :=
  ⟨fun p hp => (h.store p hp).trans (h'.store p hp),
    fun p hp => (h.records p hp).trans (h'.records p hp), h.reports.trans h'.reports⟩

theorem Agree.alike (h : o.Agree o') (own : String → Bool) : o.Alike own o' := by
  refine ⟨fun p _ => by rw [h.store], fun p _ => by rw [h.records], by rw [h.reports]⟩

/-! ### Registrations -/

theorem register_records (r : Registry) (o : Overlay) (path text : String) (version : Version) :
    (o.register r path text version).2.records = o.records := by
  simp only [register]

theorem register_reports (r : Registry) (o : Overlay) (path text : String) (version : Version) :
    (o.register r path text version).2.reports = o.reports := by
  simp only [register]

theorem Alike.register {path : String} (h : o.Alike own o') (hr : r.Flat) (ho : o.store.Tidy)
    (ho' : o'.store.Tidy) (hown : r.Separates own) (hpath : own path = true) (text : String)
    (version : Version) :
    (o.register r path text version).1 = (o'.register r path text version).1 ∧
      (o.register r path text version).2.Alike own (o'.register r path text version).2 := by
  have hdoc := h.store path hpath
  have hsame : ∀ store : (o.register r path text version).2.store.Alike own
      (o'.register r path text version).2.store,
      (o.register r path text version).2.Alike own (o'.register r path text version).2 := by
    intro store
    refine ⟨store, ?_, ?_⟩
    · rw [register_records, register_records]
      exact h.records
    · rw [register_reports, register_reports]
      exact h.reports
  cases hfind : r.find? (Name.extension path) with
  | none =>
    refine ⟨?_, hsame ?_⟩
    · simp only [Overlay.register, Store.register_native hfind]
    · rw [register_store, register_store]
      apply h.store.update (Store.find?_register_native ho hfind text version)
      rw [hdoc]
      exact Store.find?_register_native ho' hfind text version
  | some t =>
    have hne := Registry.compiledName_ne (hr.not_compiles_source hfind) hfind
    have hcompiled := h.store _ ((hown path t hfind).trans hpath)
    refine ⟨?_, hsame ?_⟩
    · simp only [Overlay.register, Store.register_alternate hfind]
    · rw [register_store, register_store]
      intro q hq
      rw [Store.find?_register_alternate ho hfind hne, Store.find?_register_alternate ho' hfind hne,
        hdoc, hcompiled, h.store q hq]

theorem register_frame {path : String} (hr : r.Flat) (ho : o.store.Tidy)
    (hown : r.Separates own) (hpath : own path = false) (text : String) (version : Version) :
    (o.register r path text version).2.Alike own o := by
  refine ⟨?_, fun _ _ => by rw [register_records], by rw [register_reports]⟩
  rw [register_store]
  cases hfind : r.find? (Name.extension path) with
  | none => exact .frame hpath (Store.find?_register_native ho hfind text version)
  | some t =>
    have hne := Registry.compiledName_ne (hr.not_compiles_source hfind) hfind
    have hcompiled := (hown path t hfind).trans hpath
    intro q hq
    have hq' : path ≠ q ∧ t.compiledName path ≠ q := by
      constructor <;> rintro rfl <;> simp_all
    rw [Store.find?_register_alternate ho hfind hne, if_neg hq'.2, if_neg hq'.1]

/-! ### Commits -/

theorem committed_reports (o : Overlay) (j : Job) (d : Document) (result : Result) :
    (o.committed j d result).reports =
      o.reports ++ match result with
        | .ok _ => []
        | .error error =>
          [⟨j.source, j.compiled, j.transpiler.extension, j.version, error, none⟩] := by
  cases result with
  | ok => exact (List.append_nil _).symm
  | error => rfl

theorem Alike.committed {j : Job} {d : Document} (h : o.Alike own o') (ho : o.store.Tidy)
    (ho' : o'.store.Tidy) (hd : o.store.find? j.compiled = some d)
    (hd' : o'.store.find? j.compiled = some d) (result : Result) :
    (o.committed j d result).Alike own (o'.committed j d result) := by
  refine ⟨h.store.update (committed_tidy ho hd result).2.2 (committed_tidy ho' hd' result).2.2,
    ?_, ?_⟩
  · intro p hp
    rw [committed_records, committed_records]
    cases result with
    | ok output => simp only [Records.find?_note, h.records p hp]
    | error error => exact h.records p hp
  · rw [committed_reports, committed_reports, List.filter_append, List.filter_append, h.reports]

theorem committed_frame {j : Job} {d : Document} (ho : o.store.Tidy)
    (hd : o.store.find? j.compiled = some d) (hcompiled : own j.compiled = false)
    (hsource : own j.source = false) (result : Result) :
    (o.committed j d result).Alike own o := by
  refine ⟨.frame hcompiled (committed_tidy ho hd result).2.2, ?_, ?_⟩
  · intro p hp
    have hne : j.source ≠ p := by
      rintro rfl
      simp [hsource] at hp
    rw [committed_records]
    cases result with
    | ok output => exact (Records.find?_note ..).trans (if_neg hne)
    | error error => rfl
  · rw [committed_reports, List.filter_append]
    cases result <;> simp [hsource]

/-! ### Settling -/

theorem Alike.holds {j : Job} (h : o.Alike own o') (hj : own j.source = true) :
    o.holds j = o'.holds j := by
  simp only [Overlay.holds, Store.source?, h.store _ hj]

theorem settle_of_some {j : Job} {d : Document} (hd : o.store.find? j.compiled = some d)
    (result : Result) :
    (o.settle j result).2 =
      if o.holds j = true ∧ d.version < j.version then o.committed j d result else o := by
  obtain ⟨hholds, hlt, heq⟩ | ⟨hnot, heq⟩ := settle_cases hd result
  · rw [heq, if_pos ⟨hholds, hlt⟩]
  · rw [heq, if_neg hnot]

theorem Alike.settle {j : Job} (h : o.Alike own o') (ho : o.store.Tidy) (ho' : o'.store.Tidy)
    (hown : r.Separates own) (hj : j.Fits r) (hcompiled : own j.compiled = true)
    (hd : (o.store.find? j.compiled).isSome = true) :
    (o.settle j j.run).2.Alike own (o'.settle j j.run).2 := by
  obtain ⟨d, hd⟩ := Option.isSome_iff_exists.mp hd
  have hd' : o'.store.find? j.compiled = some d := by rw [← h.store _ hcompiled, hd]
  rw [settle_of_some hd, settle_of_some hd', h.holds ((hown.job hj).trans hcompiled)]
  split
  · exact h.committed ho ho' hd hd' j.run
  · exact h

theorem settle_frame {j : Job} (ho : o.store.Tidy) (hown : r.Separates own) (hj : j.Fits r)
    (hcompiled : own j.compiled = false) (hd : (o.store.find? j.compiled).isSome = true) :
    (o.settle j j.run).2.Alike own o := by
  obtain ⟨d, hd⟩ := Option.isSome_iff_exists.mp hd
  rw [settle_of_some hd]
  split
  · exact committed_frame ho hd hcompiled ((hown.job hj).trans hcompiled) j.run
  · exact .refl own o

def Ready (r : Registry) (o : Overlay) (jobs : List Job) : Prop :=
  ∀ j ∈ jobs, j.Fits r ∧ (o.store.find? j.compiled).isSome = true

theorem Ready.settle {j : Job} {jobs : List Job} (h : o.Ready r (j :: jobs)) (ho : o.store.Tidy) :
    (o.settle j j.run).2.store.Tidy ∧ (o.settle j j.run).2.Ready r jobs := by
  obtain ⟨-, hd⟩ := h j List.mem_cons_self
  obtain ⟨js, m⟩ := settle_moves (r := r) (f := .ofRead fun _ => none)
    (List.mem_singleton_self j) hd
  obtain ⟨htidy, hext⟩ := m.tidy ho
  refine ⟨htidy, fun i hi => ?_⟩
  obtain ⟨hi, hdoc⟩ := h i (List.mem_cons_of_mem _ hi)
  exact ⟨hi, hext.isSome hdoc⟩

/-- Settling some jobs does to the files of the set what settling only their own jobs does. -/
theorem Alike.settleAll_filter (hown : r.Separates own) (jobs : List Job)
    (counts counts' : Refreshed) (h : o.Alike own o') (ho : o.store.Tidy) (ho' : o'.store.Tidy)
    (hjobs : o.Ready r jobs) (hjobs' : o'.Ready r (jobs.filter fun j => own j.compiled)) :
    (settleAll (jobs.map fun j => (j, j.run)) (counts, o)).2.Alike own
      (settleAll ((jobs.filter fun j => own j.compiled).map fun j => (j, j.run))
        (counts', o')).2 := by
  induction jobs generalizing o o' counts counts' with
  | nil => exact h
  | cons j jobs ih =>
    obtain ⟨hfits, hd⟩ := hjobs j List.mem_cons_self
    obtain ⟨htidy, hready⟩ := hjobs.settle ho
    cases hj : own j.compiled with
    | true =>
      rw [List.filter_cons_of_pos (by exact hj)] at hjobs' ⊢
      obtain ⟨htidy', hready'⟩ := hjobs'.settle ho'
      exact ih _ _ (h.settle ho ho' hown hfits hj hd) htidy htidy' hready hready'
    | false =>
      rw [List.filter_cons_of_neg (by simp [hj])] at hjobs' ⊢
      exact ih _ _ ((settle_frame ho hown hfits hj hd).trans h) htidy ho' hready hjobs'

theorem Alike.settleAll (hown : r.Separates own) {jobs jobs' : List Job}
    (heq : (jobs.filter fun j => own j.compiled) = jobs'.filter fun j => own j.compiled)
    (h : o.Alike own o') (ho : o.store.Tidy) (ho' : o'.store.Tidy) (hjobs : o.Ready r jobs)
    (hjobs' : o'.Ready r jobs') (counts counts' : Refreshed) :
    (Overlay.settleAll (jobs.map fun j => (j, j.run)) (counts, o)).2.Alike own
      (Overlay.settleAll (jobs'.map fun j => (j, j.run)) (counts', o')).2 := by
  have hready : o'.Ready r (jobs'.filter fun j => own j.compiled) := fun j hj =>
    hjobs' j (List.mem_of_mem_filter hj)
  have hleft := h.settleAll_filter hown jobs counts {} ho ho' hjobs (heq ▸ hready)
  have hright := (Alike.refl own o').settleAll_filter hown jobs' counts' {} ho' ho' hjobs' hready
  rw [heq] at hleft
  exact hleft.trans hright.symm

/-! ### Collecting -/

theorem Alike.due {j : Job} (h : o.Alike own o') (hr : r.Flat) (hown : r.Separates own)
    (ho : o.Arranged r) (hj : own j.compiled = true) (hdue : o.Due r j) : o'.Due r j := by
  have hsource := (hown.job (hdue.fits hr.unambiguous ho.placed)).trans hj
  obtain ⟨howner, d, source, hd, hrest⟩ := hdue
  rw [h.store _ hj] at hd
  rw [h.store _ hsource] at hrest
  exact ⟨howner, d, source, hd, hrest⟩

theorem collect_ascending (ho : o.store.Tidy) :
    (o.collect r f).1.Pairwise fun i j => i.compiled < j.compiled := by
  have hpairs : (o.store.pairs.map (·.1)).Pairwise (· < ·) :=
    List.pairwise_map.mpr (Store.pairs_ascending ho)
  exact List.pairwise_map.mp (hpairs.sublist (collectFrom_sublist o.store.pairs o))

theorem Alike.collect (h : o.Alike own o') (hr : r.Flat) (hown : r.Separates own)
    (ho : o.Arranged r) (ho' : o'.Arranged r) :
    ((o.collect r f).1.filter fun j => own j.compiled) =
      (o'.collect r f).1.filter fun j => own j.compiled := by
  have hmem : ∀ j, j ∈ ((o.collect r f).1.filter fun j => own j.compiled) ↔
      j ∈ (o'.collect r f).1.filter fun j => own j.compiled := by
    intro j
    rw [List.mem_filter, List.mem_filter, (collect_eq ho.tidy).2, (collect_eq ho'.tidy).2]
    exact ⟨fun hj => ⟨h.due hr hown ho hj.2 hj.1, hj.2⟩,
      fun hj => ⟨h.symm.due hr hown ho' hj.2 hj.1, hj.2⟩⟩
  -- Both lists are in the order of the compiled paths, so equal members make equal lists.
  have hsorted := (collect_ascending (r := r) (f := f) ho.tidy).filter fun j => own j.compiled
  have hsorted' := (collect_ascending (r := r) (f := f) ho'.tidy).filter fun j => own j.compiled
  have hnodup : ∀ jobs : List Job, (jobs.Pairwise fun i j => i.compiled < j.compiled) →
      jobs.Nodup := by
    intro jobs hjobs
    apply hjobs.imp
    rintro i j hlt rfl
    exact String.lt_irrefl _ hlt
  refine List.Perm.eq_of_pairwise (fun i j _ _ hij hji => ?_) hsorted hsorted'
    ((List.perm_ext_iff_of_nodup (hnodup _ hsorted) (hnodup _ hsorted')).mpr hmem)
  exact absurd (String.lt_trans hij hji) (String.lt_irrefl _)

/-! ### Serving -/

theorem agree_serveFile (f : Files) (o : Overlay) (path : String) :
    (o.serveFile f path).2.Agree o := by
  unfold serveFile
  simp only
  split
  · exact ⟨rfl, rfl, rfl, rfl, rfl, rfl⟩
  · split <;> exact ⟨rfl, rfl, rfl, rfl, rfl, rfl⟩

theorem Alike.serveFile {path : String} (h : o.Alike own o') (hpath : own path = true) :
    (o.serveFile f path).1.text = (o'.serveFile f path).1.text ∧
      (o.serveFile f path).1.version = (o'.serveFile f path).1.version := by
  simp only [Overlay.serveFile, countMiss, h.store path hpath]
  split
  · exact ⟨rfl, rfl⟩
  · split <;> exact ⟨rfl, rfl⟩

section Stale

variable {j : Job}

def target (o : Overlay) (j : Job) : Document :=
  (o.store.find? j.compiled).getD (.ofSource j.compiled j.source)

theorem find?_missed (ho : o.store.Tidy) (hj : o.Current r j) (q : String) :
    (o.missed j).store.find? q =
      if j.compiled = q then some (o.target j) else o.store.find? q := by
  obtain ⟨-, source, hs, -⟩ := hj
  have hsource : (o.store.find? j.source).isSome = true := by simp [hs]
  rw [target, ← Store.reserve_fst]
  exact (ho.reserve hsource j.compiled).2.2 q

theorem missed_tidy_of_current (ho : o.store.Tidy) (hj : o.Current r j) :
    (o.missed j).store.Tidy ∧ (o.missed j).store.find? j.compiled = some (o.target j) := by
  have hfind := (find?_missed ho hj j.compiled).trans (if_pos rfl)
  obtain ⟨hfits, source, hs, -⟩ := hj
  exact ⟨(missed_tidy ho hs hfits.ne).1, hfind⟩

/-- Under a flat registry no source is a compiled document, so a newer one is always compiled. -/
theorem serveStale_eq (hr : r.Flat) (ho : o.Arranged r) (hj : o.Current r j) :
    o.serveStale j =
      if (o.target j).version < j.version then
        (.ofDocument ((o.target j).settled j.version j.run),
          (((o.missed j).call [j]).committed j (o.target j) j.run).keptFor j
            ((o.target j).settled j.version j.run))
      else (.ofDocument (o.target j), (o.missed j).keptFor j (o.target j)) := by
  have hfind := (missed_tidy_of_current ho.tidy hj).2
  obtain ⟨hfits, source, hs, hbuffer, -⟩ := hj
  have hplain := ho.source?_eq_none hr hfits.owner (hfits.source ▸ hs)
  obtain ⟨hlt, -, -, heq⟩ | ⟨-, hcompiled, -⟩ | ⟨hle, heq⟩ :=
    serveStale_cases ho.tidy hs hbuffer hfits.ne hfind
  · rw [heq, if_pos hlt]
  · exact absurd hplain hcompiled
  · rw [heq, if_neg (Int.not_lt.mpr hle)]

theorem Alike.serveStale (h : o.Alike own o') (hr : r.Flat) (ho : o.Arranged r)
    (ho' : o'.Arranged r) (hj : o.Current r j) (hj' : o'.Current r j)
    (hcompiled : own j.compiled = true) :
    (o.serveStale j).1 = (o'.serveStale j).1 ∧
      (o.serveStale j).2.Alike own (o'.serveStale j).2 := by
  have htarget : o.target j = o'.target j := by
    rw [target, target, h.store _ hcompiled]
  obtain ⟨htidy, hd⟩ := missed_tidy_of_current ho.tidy hj
  obtain ⟨htidy', hd'⟩ := missed_tidy_of_current ho'.tidy hj'
  have hmissed : (o.missed j).Alike own (o'.missed j) := by
    refine ⟨h.store.update (find?_missed ho.tidy hj) ?_, h.records, h.reports⟩
    rw [htarget]
    exact find?_missed ho'.tidy hj'
  have hcall : ((o.missed j).call [j]).Alike own ((o'.missed j).call [j]) :=
    ⟨hmissed.store, hmissed.records, hmissed.reports⟩
  rw [serveStale_eq hr ho hj, serveStale_eq hr ho' hj', ← htarget]
  rw [← htarget] at hd'
  split
  · have hcommit := hcall.committed htidy htidy' hd hd' j.run
    exact ⟨rfl, hcommit.store, hcommit.records, hcommit.reports⟩
  · exact ⟨rfl, hmissed.store, hmissed.records, hmissed.reports⟩

theorem serveStale_frame (hr : r.Flat) (ho : o.Arranged r) (hown : r.Separates own)
    (hj : o.Current r j) (hcompiled : own j.compiled = false) :
    (o.serveStale j).2.Alike own o := by
  have hsource := (hown.job hj.fits).trans hcompiled
  obtain ⟨htidy, hd⟩ := missed_tidy_of_current ho.tidy hj
  have hmissed : (o.missed j).Alike own o :=
    ⟨.frame hcompiled (find?_missed ho.tidy hj), fun _ _ => rfl, rfl⟩
  rw [serveStale_eq hr ho hj]
  split
  · have hcommit := (committed_frame (o := (o.missed j).call [j]) htidy hd hcompiled hsource
      j.run).trans ⟨hmissed.store, hmissed.records, hmissed.reports⟩
    exact ⟨hcommit.store, hcommit.records, hcommit.reports⟩
  · exact ⟨hmissed.store, hmissed.records, hmissed.reports⟩

end Stale

section Sources

variable {source : String} {t : Transpiler}

theorem Alike.sourceText (h : o.Alike own o') (ho : o.store.Tidy) (ho' : o'.store.Tidy)
    (hsource : own source = true) :
    (o.sourceText f source).1 = (o'.sourceText f source).1 ∧
      (o.sourceText f source).2.Alike own (o'.sourceText f source).2 := by
  cases hs : o.store.find? source with
  | some d =>
    have hs' : o'.store.find? source = some d := by rw [← h.store _ hsource, hs]
    rw [sourceText_of_some hs, sourceText_of_some hs']
    exact ⟨rfl, h⟩
  | none =>
    have hs' : o'.store.find? source = none := by rw [← h.store _ hsource, hs]
    cases hread : f.read? source with
    | none =>
      rw [sourceText_of_none hs hread, sourceText_of_none hs' hread]
      exact ⟨rfl, h⟩
    | some text =>
      rw [sourceText_of_read hs hread, sourceText_of_read hs' hread]
      exact ⟨rfl, h.store.update (ho.materialize hs text).2.2 (ho'.materialize hs' text).2.2,
        h.records, h.reports⟩

theorem sourceText_frame (ho : o.store.Tidy) (hsource : own source = false) :
    (o.sourceText f source).2.Alike own o := by
  cases hs : o.store.find? source with
  | some d =>
    rw [sourceText_of_some hs]
    exact .refl own o
  | none =>
    cases hread : f.read? source with
    | none =>
      rw [sourceText_of_none hs hread]
      exact .refl own o
    | some text =>
      rw [sourceText_of_read hs hread]
      exact ⟨.frame hsource (ho.materialize hs text).2.2, fun _ _ => rfl, rfl⟩

theorem sourceText_current {path : String} (hr : r.Flat) (ho : o.Arranged r)
    (howner : r.owner? path = some t) :
    (o.sourceText f (Name.withoutExtension path)).2.Arranged r ∧
      ∀ buffer version,
        (o.sourceText f (Name.withoutExtension path)).1 = some (buffer, version) →
        (o.sourceText f (Name.withoutExtension path)).2.Current r
          ⟨t, Name.withoutExtension path, path, buffer, version⟩ := by
  cases hs : o.store.find? (Name.withoutExtension path) with
  | some d =>
    rw [sourceText_of_some hs]
    refine ⟨ho, ?_⟩
    rintro buffer version ⟨⟩
    exact ⟨⟨howner, rfl⟩, d, hs, rfl, rfl⟩
  | none =>
    cases hread : f.read? (Name.withoutExtension path) with
    | none =>
      rw [sourceText_of_none hs hread]
      exact ⟨ho, fun _ _ h => by simp at h⟩
    | some text =>
      rw [sourceText_of_read hs hread]
      have hmat : Move r f [] o [] _ := .materialize (Registry.owner?_cases howner).1 hs hread
      refine ⟨ho.moves hr hmat.moves, ?_⟩
      rintro buffer version ⟨⟩
      exact ⟨⟨howner, rfl⟩, _, ((ho.tidy.materialize hs text).2.2 _).trans (if_pos rfl), rfl, rfl⟩

end Sources

section Cold

variable {path : String}

theorem serveFound_of_cold {j : Job} (hcache : o.cache = {}) : o.serveFound j = o.serveStale j := by
  rw [serveFound, hcache]
  rfl

theorem serveNative_of_cold (f : Files) (hcache : o.cache = {}) :
    o.serveNative f path = o.serveFile f path := by
  rw [serveNative_eq, hcache]
  rfl

theorem Alike.serve_of_cold (h : o.Alike own o') (hr : r.Flat) (hown : r.Separates own)
    (ho : o.Arranged r) (ho' : o'.Arranged r) (hcache : o.cache = {}) (hcache' : o'.cache = {})
    (hpath : own path = true) :
    (o.serve r f path).1.text = (o'.serve r f path).1.text ∧
      (o.serve r f path).1.version = (o'.serve r f path).1.version ∧
      (o.serve r f path).2.Alike own (o'.serve r f path).2 := by
  unfold Overlay.serve
  split
  · next t howner =>
    obtain ⟨hfst, hsnd⟩ := h.sourceText (f := f) ho.tidy ho'.tidy ((hown.owner howner).trans hpath)
    obtain ⟨harranged, hcurrent⟩ := sourceText_current (f := f) hr ho howner
    obtain ⟨harranged', hcurrent'⟩ := sourceText_current (f := f) hr ho' howner
    have hcold := (sourceText_cache f o (Name.withoutExtension path)).trans hcache
    have hcold' := (sourceText_cache f o' (Name.withoutExtension path)).trans hcache'
    -- From here on only what was found of the source matters, and that is the same in both.
    rw [serveCompiled_eq, serveCompiled_eq]
    generalize o.sourceText f (Name.withoutExtension path) = a at *
    generalize o'.sourceText f (Name.withoutExtension path) = a' at *
    obtain ⟨found, u⟩ := a
    obtain ⟨found', u'⟩ := a'
    obtain rfl : found = found' := hfst
    cases found with
    | none => exact ⟨rfl, rfl, hsnd.store, hsnd.records, hsnd.reports⟩
    | some found =>
      simp only [serveFound_of_cold hcold, serveFound_of_cold hcold']
      obtain ⟨hserved, halike⟩ := hsnd.serveStale hr harranged harranged' (hcurrent _ _ rfl)
        (hcurrent' _ _ rfl) hpath
      rw [hserved]
      exact ⟨rfl, rfl, halike⟩
  · rw [serveNative_of_cold f hcache, serveNative_of_cold f hcache']
    obtain ⟨htext, hversion⟩ := h.serveFile (f := f) hpath
    refine ⟨htext, hversion, ?_⟩
    exact ((agree_serveFile f o path).alike own).trans
      (h.trans ((agree_serveFile f o' path).alike own).symm)

theorem serve_frame_of_cold (hr : r.Flat) (hown : r.Separates own) (ho : o.Arranged r)
    (hcache : o.cache = {}) (hpath : own path = false) : (o.serve r f path).2.Alike own o := by
  unfold serve
  split
  · next t howner =>
    have hsource := sourceText_frame (f := f) ho.tidy ((hown.owner howner).trans hpath)
    obtain ⟨harranged, hcurrent⟩ := sourceText_current (f := f) hr ho howner
    have hcold := (sourceText_cache f o (Name.withoutExtension path)).trans hcache
    rw [serveCompiled_eq]
    generalize o.sourceText f (Name.withoutExtension path) = a at *
    obtain ⟨found, u⟩ := a
    cases found with
    | none => exact ⟨hsource.store, hsource.records, hsource.reports⟩
    | some found =>
      simp only [serveFound_of_cold hcold]
      exact (serveStale_frame hr harranged hown (hcurrent _ _ rfl) hpath).trans hsource
  · rw [serveNative_of_cold f hcache]
    exact (agree_serveFile f o path).alike own

end Cold

/-- Documents are in their places, and the cache holds what would be served without it. -/
structure Kept (r : Registry) (f : Files) (o : Overlay) : Prop where
  arranged : o.Arranged r
  compiled : o.CachedCompiled r
  native : o.CachedNative r f

theorem Kept.uncached (h : o.Kept r f) (own : String → Bool) (path : String) :
    (o.serve r f path).1.text = (o.uncached.serve r f path).1.text ∧
      (o.serve r f path).1.version = (o.uncached.serve r f path).1.version ∧
      (o.serve r f path).2.Alike own (o.uncached.serve r f path).2 ∧
      o.uncached.Arranged r := by
  obtain ⟨htext, hversion, hagree⟩ := serve_uncached h.arranged.tidy h.compiled h.native path
  exact ⟨htext, hversion, hagree.alike own, h.arranged.tidy, h.arranged.placed⟩

theorem Alike.serve {path : String} (h : o.Alike own o') (hr : r.Flat) (hown : r.Separates own)
    (ho : o.Kept r f) (ho' : o'.Kept r f) (hpath : own path = true) :
    (o.serve r f path).1.text = (o'.serve r f path).1.text ∧
      (o.serve r f path).1.version = (o'.serve r f path).1.version ∧
      (o.serve r f path).2.Alike own (o'.serve r f path).2 := by
  obtain ⟨htext, hversion, hcold, harranged⟩ := ho.uncached own path
  obtain ⟨htext', hversion', hcold', harranged'⟩ := ho'.uncached own path
  have hbare : o.uncached.Alike own o'.uncached := ⟨h.store, h.records, h.reports⟩
  obtain ⟨htext'', hversion'', hserved⟩ :=
    hbare.serve_of_cold (f := f) hr hown harranged harranged' rfl rfl hpath
  exact ⟨htext.trans (htext''.trans htext'.symm), hversion.trans (hversion''.trans hversion'.symm),
    hcold.trans (hserved.trans hcold'.symm)⟩

theorem serve_frame {path : String} (hr : r.Flat) (hown : r.Separates own) (ho : o.Kept r f)
    (hpath : own path = false) : (o.serve r f path).2.Alike own o := by
  obtain ⟨-, -, hcold, harranged⟩ := ho.uncached own path
  have hframe := serve_frame_of_cold (f := f) hr hown harranged rfl hpath
  exact hcold.trans (hframe.trans (o.agree_uncached.alike own).symm)

/-! ### Queries -/

theorem Alike.versionText {path : String} (h : o.Alike own o') (hown : r.Separates own)
    (ho : o.Arranged r) (hpath : own path = true) : o.versionText path = o'.versionText path := by
  have hsource : ∀ d, o.store.find? path = some d →
      d.source?.bind o.store.find? = d.source?.bind o'.store.find? := by
    intro d hd
    cases hs : d.source? with
    | none => rfl
    | some source =>
      have hplaced := ho.placed path d hd
      rw [Document.Placed, hs] at hplaced
      obtain ⟨t, hfind, rfl⟩ := hplaced
      exact h.store source ((hown source t hfind).symm.trans hpath)
  simp only [Overlay.versionText, ← h.store path hpath]
  cases hd : o.store.find? path with
  | none => rfl
  | some d => simp only [hsource d hd]

theorem Alike.sourcePosition? {path : String} (h : o.Alike own o') (hown : r.Separates own)
    (hpath : own path = true) (line column : Nat) :
    o.sourcePosition? r path line column = o'.sourcePosition? r path line column := by
  simp only [Overlay.sourcePosition?, Option.bind_eq_bind]
  cases howner : r.owner? path with
  | none => rfl
  | some t =>
    cases hsplit : Name.Layered.split? path with
    | none => rfl
    | some n =>
      have hsource := (hown.owner howner).trans hpath
      rw [← Name.Layered.source_of_split? hsplit] at hsource
      simp only [Option.bind_some, h.records _ hsource]

end Overlay

end SourceOverlay
