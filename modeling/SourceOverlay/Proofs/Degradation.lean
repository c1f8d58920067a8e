import SourceOverlay.Proofs.Bookkeeping
import SourceOverlay.Proofs.Economy
import SourceOverlay.Proofs.Freshness

/-!
# Compiles that fail

A compile that fails costs no more than its result. The compiled document keeps the text it had and
moves on to the version of its source, so that the same source is not compiled again; the failure is
counted and reported once; and nothing else changes but that the source may have become a document.
From then on the snapshot of the old text is kept for the version of the source and served whenever
the path is asked for.
-/

set_option autoImplicit false

namespace SourceOverlay

/-- The outcome is of no use for a source: an error, a breakdown, or blank code although the source
is not blank. -/
def Outcome.Fails (source : String) : Outcome → Prop
  | .done output => Text.isBlankText output.code = true ∧ Text.isBlankText source = false
  | .failed _ => True
  | .broken _ => True

instance (source : String) (outcome : Outcome) : Decidable (outcome.Fails source) :=
  match outcome with
  | .done output =>
    inferInstanceAs (Decidable (Text.isBlankText output.code = true ∧
      Text.isBlankText source = false))
  | .failed _ => .isTrue trivial
  | .broken _ => .isTrue trivial

theorem Outcome.fails_iff (source : String) (outcome : Outcome) :
    outcome.Fails source ↔ ∃ error, Transpiler.settle source outcome = .error error := by
  cases outcome with
  | done output =>
    by_cases hblank : Text.isBlankText output.code = true <;>
      cases hsource : Text.isBlankText source <;> simp [Fails, Transpiler.settle, hblank, hsource]
  | failed error => simp [Fails, Transpiler.settle]
  | broken reason => simp [Fails, Transpiler.settle]

theorem SnapshotCache.findFor?_of_kept {c : SnapshotCache} {path : String} {s : Snapshot}
    {version v : Version} (h : c.kept? path = some ⟨s, some v⟩) (hle : version ≤ v) :
    c.findFor? path version = some s := by
  have hentry : c.entries[path]? = some ⟨s, some v⟩ := h
  simp [findFor?, hentry, hle]

namespace Overlay

variable {r : Registry} {f : Files} {o : Overlay} {c : String}

/-! ### Sources -/

structure Sourced (f : Files) (o : Overlay) (path : String) (source : Document) (o₁ : Overlay) :
    Prop where
  text : o.sourceText f path = (some (source.buffer, source.version), o₁)
  origin : o.store.find? path = some source ∨
    o.store.find? path = none ∧ ∃ text, f.read? path = some text ∧ source = .ofDisk path text
  rest : o₁ = { o with store := o₁.store }
  tidy : o₁.store.Tidy
  found : o₁.store.find? path = some source
  other : ∀ p, p ≠ path → o₁.store.find? p = o.store.find? p
  books : o₁.store.books = o.store.books

theorem sourceText_cases (ho : o.store.Tidy) (f : Files) (path : String) :
    o.sourceText f path = (none, o) ∨ ∃ source o₁, Sourced f o path source o₁ := by
  cases hs : o.store.find? path with
  | some source =>
    exact .inr ⟨source, o, sourceText_of_some hs f, .inl hs, rfl, ho, hs, fun _ _ => rfl, rfl⟩
  | none =>
    cases hread : f.read? path with
    | none => exact .inl (sourceText_of_none hs hread)
    | some text =>
      obtain ⟨htidy, -, hfind⟩ := ho.materialize hs text
      refine .inr ⟨.ofDisk path text, _, sourceText_of_read hs hread, .inr ⟨hs, text, hread, rfl⟩,
        rfl, htidy, (hfind path).trans (if_pos rfl), fun p hp => ?_, ?_⟩
      · exact (hfind p).trans (if_neg (Ne.symm hp))
      · exact Store.books_materialize o.store path text

theorem Sourced.plain {path : String} {source : Document} {o₁ : Overlay}
    (h : Sourced f o path source o₁)
    (hplain : ∀ d, o.store.find? path = some d → d.source? = none) : source.source? = none := by
  obtain hs | ⟨-, text, -, rfl⟩ := h.origin
  · exact hplain source hs
  · rfl

/-! ### Serving -/

def jobOf (t : Transpiler) (path : String) (source : Document) : Job :=
  ⟨t, Name.withoutExtension path, path, source.buffer, source.version⟩

theorem serveStale_calls {j : Job} {source : Document} (ho : o.store.Tidy)
    (hs : o.store.find? j.source = some source) (hbuffer : j.buffer = source.buffer)
    (hne : j.source ≠ j.compiled) :
    (o.serveStale j).2.calls = o.calls ∨ (o.serveStale j).2.calls = o.calls ++ [j] := by
  obtain ⟨-, -, -, heq⟩ | ⟨-, -, heq⟩ | ⟨-, heq⟩ :=
    serveStale_cases ho hs hbuffer hne (missed_tidy ho hs hne).2.2.2
  · rw [heq]
    exact .inr (committed_calls _ _ _ _)
  · rw [heq]
    exact .inr rfl
  · rw [heq]
    exact .inl rfl

/-- Serving a path calls at most one compiler: for the source as it is, if the path is a compiled
one that the cache has no snapshot of. -/
theorem serve_calls_cases (ho : o.store.Tidy) (r : Registry) (f : Files) (c : String) :
    (o.serve r f c).2.calls = o.calls ∨
    ∃ t source o₁, r.owner? c = some t ∧ Sourced f o (Name.withoutExtension c) source o₁ ∧
      (o.serve r f c).2.calls = o.calls ++ [jobOf t c source] ∧
      o.serve r f c = o₁.serveStale (jobOf t c source) := by
  cases howner : r.owner? c with
  | none =>
    simp only [serve, howner]
    exact .inl (serveNative_calls f o c)
  | some t =>
    simp only [serve, howner, serveCompiled_eq]
    obtain hnone | ⟨source, o₁, hsourced⟩ := sourceText_cases ho f (Name.withoutExtension c)
    · rw [hnone]
      exact .inl rfl
    · have hcalls : o₁.calls = o.calls := by rw [hsourced.rest]
      rw [hsourced.text, ← hcalls]
      simp only [serveFound]
      cases hkept : o₁.cache.findFor? c source.version with
      | some s => exact .inl rfl
      | none =>
        obtain hsame | hcalled := serveStale_calls (j := jobOf t c source) hsourced.tidy
          hsourced.found rfl (Registry.owner?_cases howner).2.2
        · exact .inl hsame
        · exact .inr ⟨t, source, o₁, rfl, hsourced, hcalled, rfl⟩

/-- What serving the path of a job comes to when the job fails: its document changes only in its
version, and the document is kept as a snapshot. -/
structure Declines (o : Overlay) (j : Job) (d : Document) (error : CompileError)
    (served : Snapshot × Overlay) : Prop where
  snapshot : served.1 = .ofDocument (d.setVersion j.version)
  documents : ∀ p, served.2.store.find? p =
    if j.compiled = p then some (d.setVersion j.version) else o.store.find? p
  books : served.2.store.books = o.store.books
  kept : served.2.cache.kept? j.compiled =
    some ⟨.ofDocument (d.setVersion j.version), some j.version⟩
  records : served.2.records = o.records
  reports : served.2.reports =
    o.reports ++ [⟨j.source, j.compiled, j.transpiler.extension, j.version, error, none⟩]
  stats : served.2.stats =
    { o.stats with
      misses := o.stats.misses + 1
      compiles := o.stats.compiles + 1
      failures := o.stats.failures + 1 }

theorem serveStale_declines {j : Job} {source : Document} {error : CompileError}
    (ho : o.store.Tidy) (hs : o.store.find? j.source = some source)
    (hplain : source.source? = none) (hbuffer : j.buffer = source.buffer)
    (hne : j.source ≠ j.compiled) (hcalled : (o.serveStale j).2.calls ≠ o.calls)
    (hrun : j.run = .error error) :
    Declines o j ((o.store.find? j.compiled).getD (.ofSource j.compiled j.source)) error
      (o.serveStale j) := by
  obtain ⟨htidy, -, -, hd⟩ := missed_tidy ho hs hne
  generalize (o.store.find? j.compiled).getD (.ofSource j.compiled j.source) = d at hd
  obtain ⟨-, -, -, heq⟩ | ⟨-, hcompiled, -⟩ | ⟨-, heq⟩ := serveStale_cases ho hs hbuffer hne hd
  · have hcommitted := (committed_tidy (o := (o.missed j).call [j]) htidy hd (.error error)).2.2
    have hreserve := (ho.reserve (Option.isSome_iff_exists.mpr ⟨source, hs⟩) j.compiled).2.2
    rw [hrun] at heq
    rw [heq]
    refine ⟨rfl, fun p => (hcommitted p).trans ?_, Store.books_reserve _ _ _, ?_, rfl, rfl, rfl⟩
    · by_cases hp : j.compiled = p
      · rw [if_pos hp, if_pos hp]
        rfl
      · rw [if_neg hp, if_neg hp]
        exact (hreserve p).trans (if_neg hp)
    · exact (SnapshotCache.kept?_insertFor _ _ _ _ _).trans (if_pos rfl)
  · exact absurd hplain hcompiled
  · rw [heq] at hcalled
    exact absurd rfl hcalled

/-! ### Serving again -/

theorem serve_of_kept {t : Transpiler} {source : Document} {s : Snapshot} {v : Version}
    (howner : r.owner? c = some t)
    (hs : o.store.find? (Name.withoutExtension c) = some source)
    (hkept : o.cache.kept? c = some ⟨s, some v⟩) (hle : source.version ≤ v) (f : Files) :
    o.serve r f c = (s, o.countHit) := by
  simp only [serve, howner, serveCompiled_eq, sourceText_of_some hs, serveFound,
    SnapshotCache.findFor?_of_kept hkept hle]

def countHits (o : Overlay) (n : Nat) : Overlay :=
  { o with stats := { o.stats with hits := o.stats.hits + n } }

theorem serve_again {t : Transpiler} {source : Document} {s : Snapshot} {v : Version}
    (howner : r.owner? c = some t)
    (hs : o.store.find? (Name.withoutExtension c) = some source)
    (hkept : o.cache.kept? c = some ⟨s, some v⟩) (hle : source.version ≤ v) (fs : List Files)
    (f : Files) :
    (fs.foldl (fun o f => (o.serve r f c).2) o).serve r f c = (s, o.countHits (fs.length + 1)) := by
  induction fs generalizing o with
  | nil => exact serve_of_kept howner hs hkept hle f
  | cons f' fs ih =>
    rw [List.foldl_cons, serve_of_kept howner hs hkept hle, ih (o := o.countHit) hs hkept]
    simp only [countHit, countHits, List.length_cons]
    rw [Nat.add_assoc, Nat.add_comm 1]

structure Degrades (r : Registry) (f : Files) (o : Overlay) (c : String) (source : Document)
    (error : CompileError) : Prop where
  text : (o.serve r f c).1.text = o.store.textAt c
  version : (o.serve r f c).1.version = source.version
  found : (o.serve r f c).2.store.find? (Name.withoutExtension c) = some source
  document : (o.serve r f c).2.store.find? c =
    some (((o.store.find? c).getD (.ofSource c (Name.withoutExtension c))).setVersion
      source.version)
  other : ∀ p, p ≠ c → (o.serve r f c).2.store.find? p = o.store.find? p ∨
    p = Name.withoutExtension c ∧ o.store.find? p = none ∧
      ∃ text, f.read? p = some text ∧ source = .ofDisk p text
  records : (o.serve r f c).2.records = o.records
  known : (o.serve r f c).2.store.known = o.store.known
  projectVersion : (o.serve r f c).2.store.projectVersion = o.store.projectVersion
  reports : ∃ t, r.owner? c = some t ∧ (o.serve r f c).2.reports = o.reports ++
    [⟨Name.withoutExtension c, c, t.extension, source.version, error, none⟩]
  stats : (o.serve r f c).2.stats =
    { o.stats with
      misses := o.stats.misses + 1
      compiles := o.stats.compiles + 1
      failures := o.stats.failures + 1 }
  again : ∀ (fs : List Files) (f' : Files),
    (fs.foldl (fun o f => (o.serve r f c).2) (o.serve r f c).2).serve r f' c =
      ((o.serve r f c).1, (o.serve r f c).2.countHits (fs.length + 1))

theorem Sourced.degrades {t : Transpiler} {source : Document} {o₁ : Overlay} {error : CompileError}
    (h : Sourced f o (Name.withoutExtension c) source o₁) (hplain : source.source? = none)
    (howner : r.owner? c = some t)
    (hserve : o.serve r f c = o₁.serveStale (jobOf t c source))
    (hcalled : (o.serve r f c).2.calls = o.calls ++ [jobOf t c source])
    (hrun : (jobOf t c source).run = .error error) : o.Degrades r f c source error := by
  have hne : Name.withoutExtension c ≠ c := (Registry.owner?_cases howner).2.2
  have hrest : o₁.calls = o.calls ∧ o₁.records = o.records ∧ o₁.reports = o.reports ∧
      o₁.stats = o.stats := by
    rw [h.rest]
    exact ⟨rfl, rfl, rfl, rfl⟩
  obtain ⟨hcalls, hrecords, hreports, hstats⟩ := hrest
  have hcall : (o₁.serveStale (jobOf t c source)).2.calls ≠ o₁.calls := by
    rw [← hserve, hcalled, hcalls]
    simp
  have hdeclines := serveStale_declines (j := jobOf t c source) h.tidy h.found hplain rfl hne
    hcall hrun
  rw [← hserve] at hdeclines
  obtain ⟨hsnapshot, hdocuments, hbooks, hkept, hrecords', hreports', hstats'⟩ := hdeclines
  have hd : o₁.store.find? (jobOf t c source).compiled = o.store.find? c := h.other c hne.symm
  rw [hd] at hsnapshot hdocuments hkept
  have hfound : (o.serve r f c).2.store.find? (Name.withoutExtension c) = some source :=
    (hdocuments _).trans ((if_neg hne.symm).trans h.found)
  obtain ⟨hknown, hcount⟩ := Prod.mk.inj (hbooks.trans h.books)
  refine ⟨?_, ?_, hfound, ?_, ?_, ?_, hknown, hcount, ⟨t, howner, ?_⟩, ?_, ?_⟩
  · rw [hsnapshot]
    cases hc : o.store.find? c with
    | none => simp [Store.textAt, hc, Snapshot.text, Snapshot.ofDocument, Document.buffer,
        Document.setVersion, Document.ofSource, jobOf]
    | some d => simp [Store.textAt, hc, Snapshot.text, Snapshot.ofDocument, Document.buffer,
        Document.setVersion]
  · rw [hsnapshot]
    rfl
  · exact (hdocuments c).trans (if_pos rfl)
  · intro p hp
    by_cases hps : p = Name.withoutExtension c
    · subst hps
      obtain hs | hdisk := h.origin
      · exact .inl (hfound.trans hs.symm)
      · exact .inr ⟨rfl, hdisk⟩
    · refine .inl ((hdocuments p).trans ((if_neg (Ne.symm hp)).trans (h.other p hps)))
  · exact hrecords'.trans hrecords
  · rw [hreports', hreports]
    rfl
  · rw [hstats', hstats]
  · intro fs f'
    rw [hsnapshot]
    exact serve_again howner hfound hkept (Int.le_refl _) fs f'

end Overlay

namespace Session

/-- A compile that fails costs nothing but its result, in every state of every session. -/
theorem serve_degrades (project : Project) (turns : List Turn) (r : Registry) (f : Files)
    {c : String} {j : Job}
    (hsource : ∀ d, (run turns (opened project)).overlay.store.find? (Name.withoutExtension c) =
      some d → d.source? = none)
    (hcall : ((run turns (opened project)).overlay.serve r f c).2.calls =
      (run turns (opened project)).overlay.calls ++ [j])
    (hfails : (j.transpiler.compiler.call j.source j.buffer.text).Fails j.buffer.text) :
    ∃ source error, j.run = .error error ∧
      (run turns (opened project)).overlay.Degrades r f c source error := by
  have ho := ((steady_opened project).run turns).tidy
  generalize (run turns (opened project)).overlay = o at ho hsource hcall
  obtain hsame | ⟨t, source, o₁, howner, hsourced, hcalled, hserve⟩ :=
    Overlay.serve_calls_cases ho r f c
  · rw [hcall] at hsame
    simp at hsame
  · obtain rfl : j = Overlay.jobOf t c source := by
      rw [hcall] at hcalled
      simpa using hcalled
    obtain ⟨error, hrun⟩ := (Outcome.fails_iff _ _).mp hfails
    have hplain := hsourced.plain hsource
    exact ⟨source, error, hrun, hsourced.degrades hplain howner hserve hcalled hrun⟩

/-- The code of the first text is served for the second, which is no good. -/
theorem serve_degrades_copying :
    let f : Files := .ofRead fun _ => none
    let o := (run copyingTurns (opened sample)).overlay
    ∃ source error, o.Degrades .copying f "/p/a.v.ts" source error ∧
      (o.serve .copying f "/p/a.v.ts").1.text = "one" ∧ o.stats.failures = 0 := by
  intro f o
  have ho : o.store.Tidy := ((steady_opened sample).run copyingTurns).tidy
  have hplain : (o.store.find? (Name.withoutExtension "/p/a.v.ts")).all (·.source?.isNone) =
      true := by
    decide +kernel
  have hlength : (o.serve .copying f "/p/a.v.ts").2.calls.length ≠ o.calls.length := by
    decide +kernel
  have hfails : (o.serve .copying f "/p/a.v.ts").2.calls.getLast?.all (fun j =>
      decide ((j.transpiler.compiler.call j.source j.buffer.text).Fails j.buffer.text)) = true := by
    decide +kernel
  have htext : o.store.textAt "/p/a.v.ts" = "one" := by
    decide +kernel
  have hfailures : o.stats.failures = 0 := by
    decide +kernel
  obtain hsame | ⟨t, source, o₁, -, -, hcalled, -⟩ :=
    Overlay.serve_calls_cases ho .copying f "/p/a.v.ts"
  · exact absurd (congrArg List.length hsame) hlength
  · rw [hcalled] at hfails
    obtain ⟨source', error, -, hdegrades⟩ :=
      serve_degrades sample copyingTurns .copying f (j := Overlay.jobOf t "/p/a.v.ts" source)
        (fun d hd => by simpa [o, hd] using hplain) hcalled (by simpa using hfails)
    exact ⟨source', error, hdegrades, hdegrades.text.trans htext, hfailures⟩

end Session

end SourceOverlay
