import SourceOverlay.Proofs.Caching
import SourceOverlay.Proofs.Jobs

/-!
# Freshness

A compiled document is never newer than its source, and where the two have the same version its text
is what the source compiles to, or else what it last compiled to. Both need that an editor gives the
same text whenever it gives the same version, and that it gives no text for a compiled path. Then
what is served for a compiled path is decided by the text of the source and by the results that were
taken before, whatever the order in which texts arrived and jobs were settled.
-/

set_option autoImplicit false

namespace SourceOverlay

/-! ### What editors give -/

/-- Versions are not negative, there is one text for each path and version, and none for a compiled
path. -/
structure Regular (r : Registry) (given : List Edit) : Prop where
  nonneg : ∀ e ∈ given, 0 ≤ e.version
  unique : ∀ e ∈ given, ∀ e' ∈ given, e.path = e'.path → e.version = e'.version → e.text = e'.text
  apart : ∀ e ∈ given, ¬ r.Compiles e.path

/-- The text of an editor's document was given, and the version of one read from the backing store
is the fixed one. Neither is at a compiled path. -/
def Document.Known (r : Registry) (given : List Edit) (p : String) (d : Document) : Prop :=
  match d.kind with
  | .compiled _ => True
  | .editor => ¬ r.Compiles p ∧ ⟨p, d.text, d.version⟩ ∈ given
  | .disk => ¬ r.Compiles p ∧ d.version = storedVersion

namespace Document.Known

variable {r : Registry} {given : List Edit} {p : String} {d : Document}

theorem apart (h : d.Known r given p) (hsource : d.source? = none) : ¬ r.Compiles p := by
  unfold Known at h
  split at h
  · next hkind => simp [Document.source?, hkind] at hsource
  · exact h.1
  · exact h.1

theorem nonneg (hgiven : Regular r given) (h : d.Known r given p) (hsource : d.source? = none) :
    0 ≤ d.version := by
  unfold Known at h
  split at h
  · next hkind => simp [Document.source?, hkind] at hsource
  · exact hgiven.nonneg _ h.2
  · exact Int.le_of_eq h.2.symm

theorem congr {d' : Document} (h : d.Known r given p) (hp : r.Compiles p)
    (hkind : d'.kind = d.kind) : d'.Known r given p := by
  unfold Known at h ⊢
  rw [hkind]
  split at h
  · trivial
  · exact absurd hp h.1
  · exact absurd hp h.1

theorem received {path text : String} {version : Version} (hgiven : ⟨path, text, version⟩ ∈ given)
    (hpath : ¬ r.Compiles path) {d? : Option Document}
    (h : ∀ d, d? = some d → d.Known r given path) :
    (Document.received d? path text version).Known r given path := by
  cases d? with
  | none => exact ⟨hpath, hgiven⟩
  | some d =>
    have hd := h d rfl
    simp only [Document.received]
    split
    · exact hd
    · cases hkind : d.kind with
      | editor => simpa [Known, write, promote, isDisk, hkind] using ⟨hpath, hgiven⟩
      | disk => simpa [Known, write, promote, isDisk, hkind] using ⟨hpath, hgiven⟩
      | compiled source => simp [Known, write, promote, isDisk, hkind]

end Document.Known

/-! ### Compiled text -/

/-- The code of the last job for a compiled path that succeeded, where the latest job comes first. -/
def lastCode (js : List Job) (compiled : String) : String :=
  (js.findSome? fun j => if j.compiled = compiled then j.run.toOption.map (·.code) else none).getD ""

theorem lastCode_cons_of_ne {js : List Job} {j : Job} {compiled : String}
    (h : j.compiled ≠ compiled) : lastCode (j :: js) compiled = lastCode js compiled := by
  simp [lastCode, h]

theorem lastCode_cons_ok {js : List Job} {j : Job} {output : Output} (h : j.run = .ok output) :
    lastCode (j :: js) j.compiled = output.code := by
  simp [lastCode, h, Except.toOption]

theorem lastCode_cons_error {js : List Job} {j : Job} {error : CompileError}
    (h : j.run = .error error) : lastCode (j :: js) j.compiled = lastCode js j.compiled := by
  simp [lastCode, h, Except.toOption]

theorem lastCode_of_ne {js : List Job} {compiled : String}
    (h : ∀ j ∈ js, j.compiled ≠ compiled) : lastCode js compiled = "" := by
  induction js with
  | nil => rfl
  | cons j js ih =>
    rw [lastCode_cons_of_ne (h j List.mem_cons_self)]
    exact ih fun i hi => h i (List.mem_cons_of_mem j hi)

theorem lastCode_append {new js : List Job} {compiled : String}
    (h : ∀ j ∈ new, j.compiled = compiled → ∀ output, j.run ≠ .ok output) :
    lastCode (new ++ js) compiled = lastCode js compiled := by
  induction new with
  | nil => rfl
  | cons j new ih =>
    have hrest := ih fun i hi => h i (List.mem_cons_of_mem j hi)
    by_cases hj : j.compiled = compiled
    · subst hj
      cases hrun : j.run with
      | ok output => exact absurd hrun (h j List.mem_cons_self rfl output)
      | error error => rw [List.cons_append, lastCode_cons_error hrun, hrest]
    · rw [List.cons_append, lastCode_cons_of_ne hj, hrest]

/-- The compiled document is no newer than the source at a path. If it is as new, it has the code of
the source, provided that the source compiles. -/
def Document.Reflects (d : Document) (t : Transpiler) (p : String) (source : Document) : Prop :=
  d.version ≤ source.version ∧ (d.version = source.version →
    ∀ output, t.run p source.text = .ok output → d.text = output.code)

theorem Document.reflects_of_lt {d source : Document} (h : d.version < source.version)
    (t : Transpiler) (p : String) : d.Reflects t p source :=
  ⟨Int.le_of_lt h, fun heq => absurd heq (Int.ne_of_lt h)⟩

/-- What reflects a source reflects a later one, if only a new version brought a new text. -/
theorem Document.Reflects.later {d source source' : Document} {t : Transpiler} {p : String}
    (h : d.Reflects t p source) (hle : source.version ≤ source'.version)
    (htext : source.version = source'.version → source.text = source'.text) :
    d.Reflects t p source' := by
  obtain ⟨hbelow, hcode⟩ := h
  refine ⟨Int.le_trans hbelow hle, fun heq output hrun => ?_⟩
  have hversions : source.version = source'.version := Int.le_antisymm hle (heq ▸ hbelow)
  rw [← htext hversions] at hrun
  exact hcode (heq.trans hversions.symm) output hrun

theorem Document.uncompiled_lt {source : Document} (h : 0 ≤ source.version) :
    uncompiled < source.version :=
  Int.lt_of_lt_of_le (by decide) h

namespace Store

def textAt (s : Store) (p : String) : String := ((s.find? p).map (·.text)).getD ""

theorem textAt_of_some {s : Store} {p : String} {d : Document} (h : s.find? p = some d) :
    s.textAt p = d.text := by
  simp [textAt, h]

theorem textAt_congr {s s' : Store} {p : String} (h : s'.find? p = s.find? p) :
    s'.textAt p = s.textAt p := by
  rw [textAt, h, textAt]

def UpToDate (r : Registry) (s : Store) : Prop :=
  ∀ p t source d, r.find? (Name.extension p) = some t → s.find? p = some source →
    source.source? = none → s.find? (t.compiledName p) = some d → d.Reflects t p source

end Store

namespace Overlay

variable {r : Registry} {given : List Edit} {f : Files} {jobs js : List Job} {o o' : Overlay}

structure Sound (r : Registry) (given : List Edit) (jobs js : List Job) (o : Overlay) : Prop where
  traced : Traced r jobs js o
  known : o.store.Every (Document.Known r given)
  upToDate : o.store.UpToDate r
  coded : ∀ c, r.Compiles c → o.store.textAt c = lastCode js c

theorem sound_empty (r : Registry) (given : List Edit) : Sound r given [] [] {} := by
  refine ⟨traced_empty r, Store.every_empty _, ?_, ?_⟩
  · intro p t source d _ hsource
    simp [Store.find?] at hsource
  · intro c _
    simp [Store.textAt, Store.find?, lastCode]

theorem Sound.sourced {p : String} {t : Transpiler} {d : Document} (h : Sound r given jobs js o)
    (hr : r.Unambiguous) (ho : o.store.Tidy) (hp : r.find? (Name.extension p) = some t)
    (hd : o.store.find? (t.compiledName p) = some d) : (o.store.find? p).isSome = true := by
  cases hsource : d.source? with
  | none => exact absurd ⟨p, t, hp, rfl⟩ ((h.known _ d hd).apart hsource)
  | some source =>
    obtain rfl := (h.traced.placed _ d hd).source_eq hr hp hsource
    exact ho.sourced _ d source hd hsource

/-! ### Registrations -/

theorem reflects_received {path text : String} {version : Version} {t : Transpiler}
    {source? compiled? : Option Document} (hgiven : Regular r given)
    (hedit : ⟨path, text, version⟩ ∈ given)
    (hknown : ∀ source, source? = some source → source.Known r given path)
    (hsourced : compiled?.isSome = true → source?.isSome = true)
    (hold : ∀ source d, source? = some source → source.source? = none → compiled? = some d →
      d.Reflects t path source)
    (hnone : (Document.received source? path text version).source? = none) :
    (Store.paired (compiled?.getD (.ofSource (t.compiledName path) path))
      (source?.any (·.isDisk))).Reflects t path (.received source? path text version) := by
  have hversion := hgiven.nonneg _ hedit
  have hbelow : ∀ (d source : Document), d.version = uncompiled → 0 ≤ source.version →
      d.Reflects t path source := fun d source hd hsource =>
    Document.reflects_of_lt (hd ▸ Document.uncompiled_lt hsource) t path
  cases source? with
  | none =>
    have hcompiled : compiled? = none := by
      cases compiled? with
      | none => rfl
      | some => simp at hsourced
    subst hcompiled
    exact hbelow _ _ rfl hversion
  | some source =>
    have hplain : source.source? = none := by
      rw [← (Document.precedes_received source path text version).source?]
      exact hnone
    have hfloor := (hknown source rfl).nonneg hgiven hplain
    simp only [Document.received, Option.any_some]
    split
    · next hstale =>
      rw [source.isDisk_of_isEditor (Bool.and_eq_true_iff.mp hstale).1]
      cases compiled? with
      | none => exact hbelow _ _ rfl hfloor
      | some d => exact hold source d rfl hplain rfl
    · next hnew =>
      cases hdisk : source.isDisk with
      | true => exact hbelow _ _ rfl hversion
      | false =>
        cases compiled? with
        | none => exact hbelow _ _ rfl hversion
        | some d =>
          have hkind : source.kind = .editor := by
            cases hkind : source.kind with
            | editor => rfl
            | disk => simp [Document.isDisk, hkind] at hdisk
            | compiled => simp [Document.source?, hkind] at hplain
          have hlater : source.version ≤ version := by
            simpa [Document.isEditor, hkind] using hnew
          -- If the version did not change the editor gave the same text again.
          refine (hold source d rfl hplain rfl).later hlater fun hversions => ?_
          have hsource := hknown source rfl
          simp only [Document.Known, hkind] at hsource
          exact hgiven.unique _ hsource.2 _ hedit rfl hversions

theorem Sound.register_known {path text : String} {version : Version}
    (h : Sound r given jobs js o) (ho : o.store.Tidy) (hgiven : Regular r given)
    (hedit : ⟨path, text, version⟩ ∈ given) :
    (o.register r path text version).2.store.Every (Document.Known r given) := by
  have hpath := hgiven.apart _ hedit
  rw [register_store]
  refine h.known.register ho text version (.received hedit hpath fun d => h.known path d) ?_
  intro t hfind
  refine ⟨Registry.compiledName_ne hpath hfind, trivial, fun d hd => ?_⟩
  exact hd.congr ⟨path, t, hfind, rfl⟩ rfl

theorem Sound.register_upToDate {path text : String} {version : Version}
    (h : Sound r given jobs js o) (hr : r.Unambiguous) (ho : o.store.Tidy)
    (hgiven : Regular r given) (hedit : ⟨path, text, version⟩ ∈ given) :
    (o.register r path text version).2.store.UpToDate r := by
  have hpath := hgiven.apart _ hedit
  have hknown := h.register_known ho hgiven hedit
  intro p t source d hp hsource hnone hd
  have hapart : ¬ r.Compiles p := (hknown p source hsource).apart hnone
  have hne := Registry.compiledName_ne hapart hp
  rw [register_store] at hsource hd
  by_cases heq : path = p
  · subst heq
    rw [Store.find?_register_alternate ho hp hne, if_neg hne, if_pos rfl] at hsource
    rw [Store.find?_register_alternate ho hp hne, if_pos rfl] at hd
    rw [← Option.some.inj hsource] at hnone ⊢
    rw [← Option.some.inj hd]
    refine reflects_received hgiven hedit (fun source => h.known path source) ?_ ?_ hnone
    · intro hcompiled
      obtain ⟨d, hd⟩ := Option.isSome_iff_exists.mp hcompiled
      exact h.sourced hr ho hp hd
    · intro source d hsource hnone hd
      exact h.upToDate path t source d hp hsource hnone hd
  · -- The registration of another path touches neither document.
    have hpc : path ≠ t.compiledName p := by
      rintro rfl
      exact hpath ⟨p, t, hp, rfl⟩
    cases hfind : r.find? (Name.extension path) with
    | none =>
      rw [Store.find?_register_native ho hfind, if_neg heq] at hsource
      rw [Store.find?_register_native ho hfind, if_neg hpc] at hd
      exact h.upToDate p t source d hp hsource hnone hd
    | some u =>
      have hne' := Registry.compiledName_ne hpath hfind
      have hup := Registry.compiledName_ne hapart hfind
      have hcc : u.compiledName path ≠ t.compiledName p := fun hcc =>
        heq (hr _ _ _ _ hfind hp hcc)
      rw [Store.find?_register_alternate ho hfind hne', if_neg hup, if_neg heq] at hsource
      rw [Store.find?_register_alternate ho hfind hne', if_neg hcc, if_neg hpc] at hd
      exact h.upToDate p t source d hp hsource hnone hd

theorem register_textAt {path c : String} (ho : o.store.Tidy) (hpath : ¬ r.Compiles path)
    (hc : r.Compiles c) (text : String) (version : Version) :
    (o.register r path text version).2.store.textAt c = o.store.textAt c := by
  have hne : path ≠ c := by
    rintro rfl
    exact hpath hc
  rw [register_store]
  cases hfind : r.find? (Name.extension path) with
  | none =>
    apply Store.textAt_congr
    rw [Store.find?_register_native ho hfind, if_neg hne]
  | some t =>
    have hne' := Registry.compiledName_ne hpath hfind
    by_cases heq : t.compiledName path = c
    · subst heq
      rw [Store.textAt, Store.find?_register_alternate ho hfind hne', if_pos rfl, Store.textAt]
      cases o.store.find? (t.compiledName path) <;> simp [Store.paired_text, Document.ofSource]
    · apply Store.textAt_congr
      rw [Store.find?_register_alternate ho hfind hne', if_neg heq, if_neg hne]

theorem Sound.register {path text : String} {version : Version} (h : Sound r given jobs js o)
    (hr : r.Unambiguous) (ho : o.store.Tidy) (hgiven : Regular r given)
    (hedit : ⟨path, text, version⟩ ∈ given) :
    Sound r given jobs js (o.register r path text version).2 := by
  have hpath := hgiven.apart _ hedit
  refine ⟨h.traced.register ho (fun _ _ => hpath) text version, h.register_known ho hgiven hedit,
    h.register_upToDate hr ho hgiven hedit, fun c hc => ?_⟩
  rw [register_textAt ho hpath hc]
  exact h.coded c hc

/-! ### Moves -/

section Moves

variable {js' : List Job}

theorem Sound.move_known (h : Sound r given jobs js o) (ho : o.store.Tidy) (hfiles : f.Apart r)
    (m : Move r f jobs o js' o') : o'.store.Every (Document.Known r given) := by
  have htaken := h.traced.taken ho m
  refine m.every h.known ho (fun p t text hfind hread => ⟨hfiles p t text hfind hread, rfl⟩)
    (fun _ _ _ => trivial) ?_
  intro j d hj hd
  exact hd.congr (htaken j hj).1.compiles (Document.settled_kind d j.version j.run)

theorem Sound.move_upToDate (h : Sound r given jobs js o) (hr : r.Unambiguous)
    (ho : o.store.Tidy) (hgiven : Regular r given) (hfiles : f.Apart r)
    (m : Move r f jobs o js' o') : o'.store.UpToDate r := by
  have hknown := h.move_known ho hfiles m
  intro p t source d hp hsource hnone hd
  have hapart : ¬ r.Compiles p := (hknown p source hsource).apart hnone
  have hfloor : 0 ≤ source.version := (hknown p source hsource).nonneg hgiven hnone
  -- The source is as it was unless the move read it from the backing store.
  have hsource' : ∀ e, o.store.find? (t.compiledName p) = some e →
      o.store.find? p = some source := by
    intro e he
    obtain ⟨source', hsource'⟩ := Option.isSome_iff_exists.mp (h.sourced hr ho hp he)
    have hstay := m.find?_of_some ho hsource' fun j hj =>
      (h.traced.taken ho m j hj).1.compiled_ne hapart
    rw [hsource', ← hstay, hsource]
  obtain hsame | ⟨-, u, text, hfind, hread, -⟩ | ⟨-, u, -, hnew⟩ |
    ⟨j, e, rfl, hj, hjob, hholds, he, hnew⟩ := m.find?_cases ho (t.compiledName p)
  · rw [hsame] at hd
    exact h.upToDate p t source d hp (hsource' d hd) hnone hd
  · exact absurd ⟨p, t, hp, rfl⟩ (hfiles _ u text hfind hread)
  · rw [← Option.some.inj (hnew.symm.trans hd)]
    exact Document.reflects_of_lt (Document.uncompiled_lt hfloor) t p
  · obtain ⟨hfits, hheld⟩ := h.traced.known ho hjob
    obtain ⟨current, hcurrent, -, hbuffer, hversion⟩ := hheld.current ho hholds
    obtain rfl : j.source = p := hr _ _ _ _ hfits.find? hp (hfits.compiledName.trans hj)
    obtain rfl : t = j.transpiler := Option.some.inj (hp.symm.trans hfits.find?)
    obtain rfl := Option.some.inj (hcurrent.symm.trans (hsource' e he))
    rw [← Option.some.inj (hnew.symm.trans hd)]
    refine ⟨Int.le_of_eq ((Document.settled_version _ _ _).trans hversion), fun _ output hrun => ?_⟩
    have hjrun : j.run = .ok output := by
      rw [Job.run, hbuffer]
      exact hrun
    rw [hjrun]
    rfl

theorem Sound.move_coded (h : Sound r given jobs js o) (ho : o.store.Tidy)
    (hfiles : f.Apart r) (m : Move r f jobs o js' o') :
    ∀ c, r.Compiles c → o'.store.textAt c = lastCode (js' ++ js) c := by
  intro c hc
  have hcoded := h.coded c hc
  cases m with
  | @commit j d hjob hholds hd hlt =>
    have hfind := (committed_tidy ho hd j.run).2.2 c
    by_cases heq : j.compiled = c
    · subst heq
      rw [if_pos rfl] at hfind
      rw [Store.textAt_of_some hfind, List.singleton_append]
      rw [Store.textAt_of_some hd] at hcoded
      cases hrun : j.run with
      | ok output => rw [lastCode_cons_ok hrun]; rfl
      | error error => rw [lastCode_cons_error hrun, ← hcoded]; rfl
    · rw [Store.textAt_congr (hfind.trans (if_neg heq)), hcoded, List.singleton_append,
        lastCode_cons_of_ne heq]
  | count | keep | keepFor | forget => exact hcoded
  | @materialize source text t hfind hnone hread =>
    rw [List.nil_append, ← hcoded]
    apply Store.textAt_congr
    refine ((ho.materialize hnone text).2.2 c).trans (if_neg ?_)
    rintro rfl
    exact hfiles source t text hfind hread hc
  | @reserve compiled t howner hsource =>
    rw [List.nil_append, ← hcoded]
    have hfind := (ho.reserve hsource compiled).2.2 c
    by_cases heq : compiled = c
    · subst heq
      rw [if_pos rfl, Store.reserve_fst] at hfind
      refine (Store.textAt_of_some hfind).trans ?_
      rw [Store.textAt]
      cases o.store.find? compiled <;> rfl
    · exact Store.textAt_congr (hfind.trans (if_neg heq))

theorem Sound.move (h : Sound r given jobs js o) (hr : r.Unambiguous) (ho : o.store.Tidy)
    (hgiven : Regular r given) (hfiles : f.Apart r)
    (m : Move r f jobs o js' o') : Sound r given jobs (js' ++ js) o' :=
  ⟨h.traced.move ho hfiles m, h.move_known ho hfiles m, h.move_upToDate hr ho hgiven hfiles m,
    h.move_coded ho hfiles m⟩

end Moves

theorem Sound.collect {jobs' : List Job} (h : Sound r given jobs js o) (hr : r.Unambiguous)
    (ho : o.store.Tidy) (hdue : ∀ j ∈ jobs', o.Due r j) : Sound r given (jobs ++ jobs') js o :=
  ⟨h.traced.collect ho hr hdue, h.known, h.upToDate, h.coded⟩

/-! ### What is served -/

/-- The text a compiled path shows: the code of its source or, if that does not compile, of the last
job that did. -/
def expected (js : List Job) (compiled : String) : Result → String
  | .ok output => output.code
  | .error _ => lastCode js compiled

theorem Sound.serveStale {j : Job} (h : Sound r given jobs js o) (ho : o.store.Tidy)
    (hgiven : Regular r given) (hj : o.Current r j) (hapart : ¬ r.Compiles j.source) :
    (o.serveStale j).1.version = j.version ∧
      (o.serveStale j).1.text = expected js j.compiled j.run := by
  obtain ⟨hfits, source, hs, hbuffer, hversion⟩ := hj
  have hnone := (h.traced.placed _ source hs).source?_eq_none hapart
  obtain ⟨-, -, -, hd⟩ := missed_tidy ho hs hfits.ne
  have htext : ((o.store.find? j.compiled).getD (.ofSource j.compiled j.source)).text =
      lastCode js j.compiled := by
    rw [← h.coded _ hfits.compiles, Store.textAt]
    cases o.store.find? j.compiled <;> rfl
  obtain ⟨-, -, -, heq⟩ | ⟨-, hsource, -⟩ | ⟨hle, heq⟩ :=
    serveStale_cases ho hs hbuffer hfits.ne hd
  · rw [heq]
    refine ⟨Document.settled_version _ _ _, ?_⟩
    cases j.run with
    | ok output => rfl
    | error error => exact htext
  · exact absurd hnone hsource
  · rw [heq]
    rw [hversion] at hle ⊢
    cases hcompiled : o.store.find? j.compiled with
    | none =>
      rw [hcompiled] at hle
      exact absurd (Document.uncompiled_lt ((h.known _ source hs).nonneg hgiven hnone))
        (Int.not_lt.mpr hle)
    | some d =>
      rw [hcompiled] at hle htext
      have hd' := hcompiled
      rw [← hfits.compiledName] at hd'
      obtain ⟨hbelow, hcode⟩ := h.upToDate _ _ source d hfits.find? hs hnone hd'
      have hversions : d.version = source.version := Int.le_antisymm hbelow hle
      refine ⟨hversions, ?_⟩
      cases hrun : j.run with
      | ok output =>
        rw [Job.run, hbuffer] at hrun
        exact hcode hversions output hrun
      | error error => exact htext

theorem Sound.serve {c text : String} {version : Version} {t : Transpiler}
    (h : Sound r given jobs js o) (hr : r.Unambiguous) (ho : o.store.Tidy)
    (hgiven : Regular r given) (hfiles : f.Apart r) (hcached : o.CachedCompiled r)
    (howner : r.owner? c = some t) (hapart : ¬ r.Compiles (Name.withoutExtension c))
    (hshows : Shows f o (Name.withoutExtension c) text version) :
    (o.serve r f c).1.version = version ∧
      (o.serve r f c).1.text = expected js c (t.run (Name.withoutExtension c) text) := by
  simp only [Overlay.serve, howner, serveCompiled_eq]
  cases hs : o.store.find? (Name.withoutExtension c) with
  | some source =>
    simp only [Shows, hs] at hshows
    have hj : o.Current r ⟨t, Name.withoutExtension c, c, source.buffer, source.version⟩ :=
      ⟨⟨howner, rfl⟩, source, hs, rfl, rfl⟩
    rw [sourceText_of_some hs, hshows.1, hshows.2]
    simp only [(serveFound_eq_serveStale ho hcached hj).1]
    exact h.serveStale ho hgiven hj hapart
  | none =>
    simp only [Shows, hs] at hshows
    obtain ⟨hread, rfl⟩ := hshows
    obtain ⟨htidy, -, hfind⟩ := ho.materialize hs text
    have hmat : Move r f jobs o []
        { o with store := (o.store.materialize (Name.withoutExtension c) text).2 } :=
      .materialize (Registry.owner?_cases howner).1 hs hread
    have hj : Current r { o with store := (o.store.materialize (Name.withoutExtension c) text).2 }
        ⟨t, Name.withoutExtension c, c, (Document.ofDisk (Name.withoutExtension c) text).buffer,
          storedVersion⟩ :=
      ⟨⟨howner, rfl⟩, _, (hfind _).trans (if_pos rfl), rfl, rfl⟩
    rw [sourceText_of_read hs hread]
    simp only [(serveFound_eq_serveStale htidy (hcached.move ho hmat) hj).1]
    exact (h.move hr ho hgiven hfiles hmat).serveStale htidy hgiven hj hapart

end Overlay

theorem Session.keeps_sound {r : Registry} {given : List Edit} {turn : Turn} (hr : r.Unambiguous)
    (hgiven : Regular r given) (hturn : turn.Plain r)
    (hedits : ∀ path text version, turn.request = .register path text version →
      ⟨path, text, version⟩ ∈ given) :
    Keeps turn (Overlay.Sound r given) := by
  obtain ⟨rfl, -, hfiles⟩ := hturn
  refine ⟨?_, ?_, ?_⟩
  · intro jobs js o path text version hrequest ho h
    exact h.register hr ho hgiven (hedits path text version hrequest)
  · intro jobs js o jobs' ho hdue h
    exact h.collect hr ho hdue
  · intro jobs js o js' o' ho m h
    exact h.move hr ho hgiven hfiles m

namespace Session

theorem regular_of_flat {r : Registry} (hr : r.Flat) {given : List Edit}
    (hnonneg : ∀ e ∈ given, 0 ≤ e.version) (howner : ∀ e ∈ given, r.owner? e.path = none)
    (hunique : ∀ e ∈ given, ∀ e' ∈ given, e.path = e'.path → e.version = e'.version →
      e.text = e'.text) : Regular r given := by
  refine ⟨hnonneg, hunique, fun e he hcompiles => ?_⟩
  exact hr.compiles_iff.mp hcompiles (howner e he)

/-- What a session with a flat registry serves for a compiled path at any moment, whatever became of
the backing store: the version is that of the source, and the text is the code of the source if it
compiles and else the code of the last commit that succeeded. -/
theorem serve_fresh {r : Registry} (hr : r.Flat) (project : Project) (turns : List Turn)
    (hregistry : ∀ turn ∈ turns, turn.registry = r)
    (hnonneg : ∀ e ∈ edits turns, 0 ≤ e.version)
    (howner : ∀ e ∈ edits turns, r.owner? e.path = none)
    (hunique : ∀ e ∈ edits turns, ∀ e' ∈ edits turns, e.path = e'.path → e.version = e'.version →
      e.text = e'.text)
    (f : Files) (source text : String) (version : Version) {t : Transpiler}
    (hsource : r.find? (Name.extension source) = some t)
    (hshows : Overlay.Shows f (run turns (opened project)).overlay source text version) :
    let s := run turns (opened project)
    let served := (s.overlay.serve r f (t.compiledName source)).1
    served.version = version ∧
      served.text =
        match t.run source text with
        | .ok output => output.code
        | .error _ => lastCode s.commits (t.compiledName source) := by
  have hopened := steady_opened project
  have hgiven := regular_of_flat hr hnonneg howner hunique
  have hsound := Keeps.run (s := opened project)
    (fun turn hturn => keeps_sound hr.unambiguous hgiven (hr.plain (hregistry turn hturn))
      fun _ _ _ hrequest => mem_edits hturn hrequest)
    hopened (Overlay.sound_empty r _)
  have hcached := run_cachedCompiled project hregistry
  have hname := hr.withoutExtension_compiledName hsource
  have hserve := hsound.serve (f := f) (c := t.compiledName source) hr.unambiguous
    (hopened.run turns).tidy hgiven (fun _ _ _ hfind _ => hr.not_compiles_source hfind) hcached
    (hr.owner?_compiledName hsource) (by rw [hname]; exact hr.not_compiles_source hsource)
    (hname.symm ▸ hshows)
  rw [hname] at hserve
  refine ⟨hserve.1, hserve.2.trans ?_⟩
  cases t.run source text <;> rfl

def copyingTurns : List Turn :=
  [.register "/p/a.v" "one" 1, .serve "/p/a.v.ts", .register "/p/a.v" "bad" 2].map
    (Turn.mk .copying (.ofRead fun _ => none))

/-- The code of the first text is served with the version of the second. -/
theorem serve_fresh_copying :
    let s := run copyingTurns (opened sample)
    let served := (s.overlay.serve .copying (.ofRead fun _ => none) "/p/a.v.ts").1
    served.version = 2 ∧ served.text = lastCode s.commits "/p/a.v.ts" := by
  have hd : (run copyingTurns (opened sample)).overlay.store.find? "/p/a.v" =
      some ⟨"/p/a.v", "bad", 2, .editor, 1⟩ := by decide +kernel
  have hcopies : (Registry.copying.find? (Name.extension "/p/a.v")).any (fun t =>
      t.compiledName "/p/a.v" == "/p/a.v.ts" && !(t.run "/p/a.v" "bad").toBool) = true := by
    decide +kernel
  obtain ⟨t, ht, hcopies⟩ := (Option.any_eq_true _ _).mp hcopies
  simp only [Bool.and_eq_true, beq_iff_eq, Bool.not_eq_true'] at hcopies
  have hfresh := serve_fresh Registry.flat_copying sample copyingTurns (by simp [copyingTurns])
    (by decide +kernel) (by decide +kernel) (by decide +kernel) (.ofRead fun _ => none) "/p/a.v"
    "bad" 2 ht (by simp [Overlay.Shows, hd])
  rw [hcopies.1] at hfresh
  cases hrun : t.run "/p/a.v" "bad" with
  | ok output => simp [hrun, Except.toBool] at hcopies
  | error error =>
    rw [hrun] at hfresh
    exact hfresh

end Session

end SourceOverlay
