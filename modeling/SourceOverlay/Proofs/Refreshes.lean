import SourceOverlay.Proofs.Economy
import SourceOverlay.Proofs.Versions

/-!
# One refresh after another

A refresh raises compiled documents and leaves all others as they were. A job whose source is an
editor's or was read from disk is always taken, for nothing can have come in between: its source
does not change while jobs are settled. So after a refresh every such document is at the version of
its source, and neither another refresh nor a call that serves it compiles it again.

A job whose source is itself a compiled document is never taken. Nothing is said of it here, beyond
that these are the only jobs which another refresh can have.
-/

set_option autoImplicit false

namespace SourceOverlay

/-! ### Documents that are raised -/

/-- What settling jobs may make of a document. -/
structure Document.Raised (d d' : Document) : Prop where
  kind : d'.kind = d.kind
  version : d.version ≤ d'.version
  plain : d.source? = none → d' = d

theorem Document.Raised.refl (d : Document) : d.Raised d := ⟨rfl, Int.le_refl _, fun _ => rfl⟩

theorem Document.Raised.source? {d d' : Document} (h : d.Raised d') : d'.source? = d.source? := by
  simp [Document.source?, h.kind]

theorem Document.Raised.trans {a b c : Document} (hab : a.Raised b) (hbc : b.Raised c) :
    a.Raised c := by
  refine ⟨hbc.kind.trans hab.kind, Int.le_trans hab.version hbc.version, fun h => ?_⟩
  have hb := hab.plain h
  rw [hbc.plain (hb ▸ h), hb]

theorem Document.raised_settled {d : Document} {version : Version} (hsource : d.source? ≠ none)
    (h : d.version < version) (result : Result) : d.Raised (d.settled version result) := by
  refine ⟨d.settled_kind version result, ?_, fun hnone => absurd hnone hsource⟩
  rw [settled_version]
  exact Int.le_of_lt h

namespace Store

def Raises (s s' : Store) : Prop := ∀ p, Option.Rel Document.Raised (s.find? p) (s'.find? p)

variable {s s' : Store} {p : String} {d : Document}

theorem raises_of_forall
    (h : ∀ p, s'.find? p = s.find? p ∨
      ∃ d d', s.find? p = some d ∧ s'.find? p = some d' ∧ d.Raised d') : s.Raises s' := by
  intro p
  obtain hsame | ⟨d, d', hd, hd', hraised⟩ := h p
  · rw [hsame]
    cases s.find? p with
    | none => exact .none
    | some d => exact .some (.refl d)
  · rw [hd, hd']
    exact .some hraised

theorem Raises.refl (s : Store) : s.Raises s := raises_of_forall fun _ => .inl rfl

theorem Raises.after (h : s.Raises s') (hd : s.find? p = some d) :
    ∃ d', s'.find? p = some d' ∧ d.Raised d' := by
  have hp := h p
  rw [hd] at hp
  cases hd' : s'.find? p with
  | none =>
    rw [hd'] at hp
    cases hp
  | some d' =>
    rw [hd'] at hp
    cases hp with
    | some hraised => exact ⟨d', rfl, hraised⟩

theorem Raises.before (h : s.Raises s') (hd : s'.find? p = some d) :
    ∃ e, s.find? p = some e ∧ e.Raised d := by
  have hp := h p
  cases he : s.find? p with
  | none =>
    rw [he, hd] at hp
    cases hp
  | some e =>
    obtain ⟨d', hd', hraised⟩ := h.after he
    rw [hd] at hd'
    obtain rfl := Option.some.inj hd'
    exact ⟨e, rfl, hraised⟩

theorem Raises.trans {s'' : Store} (h : s.Raises s') (h' : s'.Raises s'') : s.Raises s'' := by
  intro p
  cases hd : s.find? p with
  | none =>
    cases hd'' : s''.find? p with
    | none => exact .none
    | some d'' =>
      obtain ⟨d', hd', -⟩ := h'.before hd''
      obtain ⟨d, hd', -⟩ := h.before hd'
      simp [hd] at hd'
  | some d =>
    obtain ⟨d', hd', hraised⟩ := h.after hd
    obtain ⟨d'', hd'', hraised'⟩ := h'.after hd'
    rw [hd'']
    exact .some (hraised.trans hraised')

theorem Raises.plain (h : s.Raises s') (hd : s.find? p = some d) (hplain : d.source? = none) :
    s'.find? p = some d := by
  obtain ⟨d', hd', hraised⟩ := h.after hd
  rw [hd', hraised.plain hplain]

theorem source?_eq_some : s.source? p = some d ↔ s.find? p = some d ∧ d.source? = none := by
  simp [source?]

end Store

namespace Overlay

variable {r : Registry} {f : Files} {o : Overlay} {j : Job}

/-! ### Settling -/

theorem settle_tidy {d : Document} (ho : o.store.Tidy) (hd : o.store.find? j.compiled = some d) :
    (o.settle j j.run).2.store.Tidy := by
  obtain ⟨-, -, heq⟩ | ⟨-, heq⟩ := settle_cases hd j.run
  · rw [heq]
    exact (committed_tidy ho hd j.run).1
  · rw [heq]
    exact ho

theorem settle_raises {d : Document} (ho : o.store.Tidy) (hd : o.store.find? j.compiled = some d)
    (hcompiled : d.source? ≠ none) : o.store.Raises (o.settle j j.run).2.store := by
  obtain ⟨-, hlt, heq⟩ | ⟨-, heq⟩ := settle_cases hd j.run
  · rw [heq]
    apply Store.raises_of_forall
    intro p
    have hfind := (committed_tidy ho hd j.run).2.2 p
    by_cases hp : j.compiled = p
    · subst hp
      rw [if_pos rfl] at hfind
      exact .inr ⟨d, _, hd, hfind, Document.raised_settled hcompiled hlt j.run⟩
    · rw [if_neg hp] at hfind
      exact .inl hfind
  · rw [heq]
    exact .refl _

/-- The job is taken from a document that is there and is no compiled one. -/
def Plain (o : Overlay) (j : Job) : Prop :=
  ∃ source, o.store.find? j.source = some source ∧ source.source? = none ∧
    j.buffer = source.buffer

theorem Plain.raises {o' : Overlay} (h : o.Plain j) (hraises : o.store.Raises o'.store) :
    o'.Plain j := by
  obtain ⟨source, hs, hplain, hbuffer⟩ := h
  exact ⟨source, hraises.plain hs hplain, hplain, hbuffer⟩

theorem settle_catches {d : Document} (ho : o.store.Tidy)
    (hd : o.store.find? j.compiled = some d) (hj : o.Plain j) :
    ∃ d', (o.settle j j.run).2.store.find? j.compiled = some d' ∧ j.version ≤ d'.version := by
  obtain ⟨source, hs, hplain, hbuffer⟩ := hj
  have hholds : o.holds j = true := by
    rw [holds_of_buffer hs hbuffer, hplain]
    rfl
  obtain ⟨-, -, heq⟩ | ⟨hnot, heq⟩ := settle_cases hd j.run
  · rw [heq]
    refine ⟨_, ((committed_tidy ho hd j.run).2.2 _).trans (if_pos rfl), ?_⟩
    exact Int.le_of_eq (Document.settled_version d j.version j.run).symm
  · rw [heq]
    exact ⟨d, hd, Int.not_lt.mp fun hlt => hnot ⟨hholds, hlt⟩⟩

theorem settleAll_raises (js : List Job) (counts : Refreshed) (ho : o.store.Tidy)
    (hjs : ∀ j ∈ js, ∃ d, o.store.find? j.compiled = some d ∧ d.source? ≠ none) :
    let o' := (settleAll (js.map fun j => (j, j.run)) (counts, o)).2
    o'.store.Tidy ∧ o.store.Raises o'.store ∧ o'.calls = o.calls ∧
      ∀ j ∈ js, o.Plain j →
        ∃ d', o'.store.find? j.compiled = some d' ∧ j.version ≤ d'.version := by
  induction js generalizing o counts with
  | nil => exact ⟨ho, .refl _, rfl, by simp⟩
  | cons j js ih =>
    obtain ⟨d, hd, hcompiled⟩ := hjs j List.mem_cons_self
    have hraises := settle_raises ho hd hcompiled
    have hjs' : ∀ i ∈ js, ∃ d, (o.settle j j.run).2.store.find? i.compiled = some d ∧
        d.source? ≠ none := by
      intro i hi
      obtain ⟨e, he, hsource⟩ := hjs i (List.mem_cons_of_mem _ hi)
      obtain ⟨e', he', hraised⟩ := hraises.after he
      exact ⟨e', he', by rwa [hraised.source?]⟩
    obtain ⟨htidy, hrest, hcalls, hcaught⟩ :=
      ih (counts.count (o.settle j j.run).1 j.run.toBool) (settle_tidy ho hd) hjs'
    refine ⟨htidy, hraises.trans hrest, hcalls.trans (settle_calls (by simp [hd])), ?_⟩
    intro i hi hplain
    rcases List.mem_cons.mp hi with rfl | hi
    · obtain ⟨e, he, hle⟩ := settle_catches ho hd hplain
      obtain ⟨e', he', hraised⟩ := hrest.after he
      exact ⟨e', he', Int.le_trans hle hraised.version⟩
    · exact hcaught i hi (hplain.raises hraises)

/-! ### Refreshing -/

theorem refresh_of_none (ho : o.store.Tidy) (h : (o.collect r f).1 = []) :
    o.refresh r f = ({}, o) := by
  simp [refresh, refreshWith, (collect_eq ho).1, h]

theorem refresh_of_some (ho : o.store.Tidy) (h : (o.collect r f).1 ≠ []) :
    o.refresh r f = settleAll ((o.collect r f).1.map fun j => (j, j.run))
      ({}, o.call (o.collect r f).1) := by
  simp only [refresh, refreshWith, (collect_eq ho).1, List.isEmpty_iff, if_neg h]

theorem refresh_raises (ho : o.store.Tidy) (r : Registry) (f : Files) :
    (o.refresh r f).2.store.Tidy ∧ o.store.Raises (o.refresh r f).2.store ∧
      (o.refresh r f).2.calls = o.calls ++ (o.collect r f).1 ∧
      ∀ j, o.Due r j → o.Plain j →
        ∃ d', (o.refresh r f).2.store.find? j.compiled = some d' ∧ j.version ≤ d'.version := by
  obtain ⟨-, hdue⟩ := collect_eq (r := r) (f := f) ho
  by_cases hempty : (o.collect r f).1 = []
  · rw [refresh_of_none ho hempty]
    refine ⟨ho, .refl _, by simp [hempty], fun j hj => ?_⟩
    simp [hempty] at hdue
    exact absurd hj (hdue j)
  · rw [refresh_of_some ho hempty]
    have hjobs : ∀ j ∈ (o.collect r f).1,
        ∃ d, (o.call (o.collect r f).1).store.find? j.compiled = some d ∧ d.source? ≠ none := by
      intro j hj
      obtain ⟨-, d, -, hd, hsource, -⟩ := (hdue j).mp hj
      exact ⟨d, hd, by simp [hsource]⟩
    obtain ⟨htidy, hraises, hcalls, hcaught⟩ :=
      settleAll_raises (o.collect r f).1 {} (o := o.call (o.collect r f).1) ho hjobs
    exact ⟨htidy, hraises, hcalls, fun j hj hplain => hcaught j ((hdue j).mpr hj) hplain⟩

/-- What is due after a refresh has a compiled document for its source. -/
theorem refresh_due (ho : o.store.Tidy) (h : (o.refresh r f).2.Due r j) :
    o.store.source? j.source = none := by
  obtain ⟨-, hraises, -, hcaught⟩ := refresh_raises ho r f
  obtain ⟨howner, d', source', hd', hpair, hs', hbuffer, hversion, hlt⟩ := h
  by_contra hnone
  obtain ⟨source, hsource⟩ := Option.ne_none_iff_exists'.mp hnone
  obtain ⟨hs, hplain⟩ := Store.source?_eq_some.mp hsource
  rw [hraises.plain hs hplain] at hs'
  obtain rfl := Option.some.inj hs'
  obtain ⟨d, hd, hraised⟩ := hraises.before hd'
  -- The document was older than its source before the refresh, so the job was among those settled.
  have hdue : o.Due r j := by
    refine ⟨howner, d, source, hd, ?_, hs, hbuffer, hversion, ?_⟩
    · rw [← hraised.source?, hpair]
    · exact Int.lt_of_le_of_lt hraised.version hlt
  obtain ⟨d'', hd'', hle⟩ := hcaught j hdue ⟨source, hs, hplain, hbuffer⟩
  rw [hd'] at hd''
  obtain rfl := Option.some.inj hd''
  rw [hversion] at hle
  exact absurd hlt (Int.not_lt.mpr hle)

theorem serveFound_calls_of_le {source d : Document} (ho : o.store.Tidy)
    (hs : o.store.find? j.source = some source) (hbuffer : j.buffer = source.buffer)
    (hne : j.source ≠ j.compiled) (hd : o.store.find? j.compiled = some d)
    (hle : j.version ≤ d.version) : (o.serveFound j).2.calls = o.calls := by
  have hd' : (o.missed j).store.find? j.compiled = some d := by
    rw [(missed_tidy ho hs hne).2.2.2, hd, Option.getD_some]
  unfold serveFound
  split
  · rfl
  · obtain ⟨hlt, -⟩ | ⟨hlt, -⟩ | ⟨-, heq⟩ := serveStale_cases ho hs hbuffer hne hd'
    · exact absurd hlt (Int.not_lt.mpr hle)
    · exact absurd hlt (Int.not_lt.mpr hle)
    · rw [heq]
      rfl

theorem serve_calls_of_le {c : String} {t : Transpiler} {source d : Document}
    (ho : o.store.Tidy) (howner : r.owner? c = some t)
    (hs : o.store.find? (Name.withoutExtension c) = some source) (hd : o.store.find? c = some d)
    (hle : source.version ≤ d.version) (f : Files) : (o.serve r f c).2.calls = o.calls := by
  simp only [serve, howner, serveCompiled_eq, sourceText_of_some hs]
  exact serveFound_calls_of_le ho hs rfl (Registry.owner?_cases howner).2.2 hd hle

/-- If no compiled document is made from another one, a second refresh finds nothing to do. -/
theorem refresh_again (ho : o.store.Tidy) (f' : Files)
    (h : ∀ c source, (c, source) ∈ o.store.pairs → r.owner? c ≠ none →
      (o.store.source? source).isSome = true) :
    (o.refresh r f).2.refresh r f' = ({}, (o.refresh r f).2) := by
  obtain ⟨ho', hraises, -⟩ := refresh_raises ho r f
  obtain ⟨-, hdue⟩ := collect_eq (r := r) (f := f') ho'
  apply refresh_of_none ho'
  apply List.eq_nil_iff_forall_not_mem.mpr
  intro j hj
  have hnone := refresh_due ho ((hdue j).mp hj)
  obtain ⟨howner, d', -, hd', hpair, -⟩ := (hdue j).mp hj
  obtain ⟨d, hd, hraised⟩ := hraises.before hd'
  have hlisted : (j.compiled, j.source) ∈ o.store.pairs :=
    (Store.mem_pairs ho).mpr ⟨d, hd, by rw [← hraised.source?, hpair]⟩
  have hsome := h _ _ hlisted (by simp [howner])
  simp [hnone] at hsome

/-- After a refresh a compiled path that was listed with its source is served as it is. -/
theorem serve_calls_of_refresh {c : String} {t : Transpiler} (ho : o.store.Tidy)
    (howner : r.owner? c = some t) (hlisted : (c, Name.withoutExtension c) ∈ o.store.pairs)
    (hsome : (o.store.source? (Name.withoutExtension c)).isSome = true) (f' : Files) :
    ((o.refresh r f).2.serve r f' c).2.calls = (o.refresh r f).2.calls := by
  obtain ⟨ho', hraises, -⟩ := refresh_raises ho r f
  obtain ⟨e, he⟩ := Option.isSome_iff_exists.mp hsome
  obtain ⟨hs, hplain⟩ := Store.source?_eq_some.mp he
  obtain ⟨d, hd, hpair⟩ := (Store.mem_pairs ho).mp hlisted
  obtain ⟨d', hd', hraised⟩ := hraises.after hd
  have hs' := hraises.plain hs hplain
  apply serve_calls_of_le ho' howner hs' hd'
  -- Were the document older than its source, it would be due again.
  by_contra hlt
  have hdue : (o.refresh r f).2.Due r ⟨t, Name.withoutExtension c, c, e.buffer, e.version⟩ :=
    ⟨howner, d', e, hd', by rw [hraised.source?, hpair], hs', rfl, rfl, Int.not_le.mp hlt⟩
  have hnone := refresh_due ho hdue
  simp [he] at hnone

end Overlay

namespace Session

/-- A refresh brings the compiled documents to a state that another one keeps, in every state of
every session. Another refresh compiles nothing whose source is an editor's document or one read
from disk; if that is so of the source of every compiled document, it compiles nothing at all and
leaves everything as it was. Nor is anything compiled to serve a path that was listed with such a
source before, provided that it is the source which the name of the path gives. -/
theorem refresh_settles (project : Project) (turns : List Turn) (r : Registry) (f f' : Files) :
    let o := (run turns (opened project)).overlay
    let o' := (o.refresh r f).2
    (∃ js, (o'.refresh r f').2.calls = o'.calls ++ js ∧
      ∀ j ∈ js, o.store.source? j.source = none) ∧
    ((∀ c source, (c, source) ∈ o.store.pairs → r.owner? c ≠ none →
        (o.store.source? source).isSome = true) →
      o'.refresh r f' = ({}, o')) ∧
    ∀ c source, (c, source) ∈ o.store.pairs →
      (r.owner? c ≠ none →
        source = Name.withoutExtension c ∧ (o.store.source? source).isSome = true) →
      (o'.serve r f' c).2.calls = o'.calls := by
  intro o o'
  have ho : o.store.Tidy := ((steady_opened project).run turns).tidy
  have ho' : o'.store.Tidy := (Overlay.refresh_raises ho r f).1
  refine ⟨⟨(o'.collect r f').1, ?_, ?_⟩, Overlay.refresh_again ho f', ?_⟩
  · exact (Overlay.refresh_raises ho' r f').2.2.1
  · intro j hj
    exact Overlay.refresh_due ho (((Overlay.collect_eq ho').2 j).mp hj)
  · intro c source hlisted hplain
    cases howner : r.owner? c with
    | none =>
      simp only [Overlay.serve, howner]
      exact Overlay.serveNative_calls f' o' c
    | some t =>
      obtain ⟨rfl, hsome⟩ := hplain (by simp [howner])
      exact Overlay.serve_calls_of_refresh ho howner hlisted hsome f'

def mixedTurns : List Turn :=
  [.register "/p/a.v" "one" 1, .serve "/p/b.v.ts", .register "/p/a.v" "two" 2].map
    (Turn.mk .copying (.ofRead fun path => if path = "/p/b.v" then some "disk" else none))

theorem refresh_settles_copying :
    let f : Files := .ofRead fun _ => none
    let o := (run mixedTurns (opened sample)).overlay
    let o' := (o.refresh .copying f).2
    o.store.pairs = [("/p/a.v.ts", "/p/a.v"), ("/p/b.v.ts", "/p/b.v")] ∧
      o'.refresh .copying f = ({}, o') ∧ (o'.serve .copying f "/p/a.v.ts").2.calls = o'.calls := by
  intro f o o'
  have hpairs : o.store.pairs = [("/p/a.v.ts", "/p/a.v"), ("/p/b.v.ts", "/p/b.v")] := by
    decide +kernel
  have hsources : ∀ pair ∈ o.store.pairs, pair.2 = Name.withoutExtension pair.1 ∧
      (o.store.source? pair.2).isSome = true := by
    decide +kernel
  have hlisted : ("/p/a.v.ts", "/p/a.v") ∈ o.store.pairs := by
    rw [hpairs]
    exact List.mem_cons_self
  obtain ⟨-, hrefresh, hserve⟩ := refresh_settles sample mixedTurns .copying f f
  have hidle := hrefresh fun c source hpair _ => (hsources (c, source) hpair).2
  have hquiet := hserve _ _ hlisted fun _ => hsources _ hlisted
  exact ⟨hpairs, hidle, hquiet⟩

/-- Another refresh is not always idle: a compiled document whose source is compiled too is due
again and again. And a path that two sources claim is compiled from one of them when it is served,
although a refresh found nothing to do for the other. -/
theorem refreshes_repeat :
    let f : Files := .ofRead fun _ => none
    (let o := (run [⟨chained, f, .register "/p/x.a" "one" 1⟩, ⟨chained, f, .serve "/p/x.a.b.c"⟩]
        (opened sample)).overlay
      let o' := (o.refresh chained f).2
      (o'.refresh chained f).1 = { superseded := 1 } ∧
        (o'.refresh chained f).2.calls.length = o'.calls.length + 1) ∧
    (let o := (run [⟨ambiguous, f, .register "/p/m.a" "one" 1⟩,
        ⟨ambiguous, f, .register "/p/m.a.x" "five" 5⟩] (opened sample)).overlay
      let o' := (o.refresh ambiguous f).2
      "/p/m.a.x.y" ∈ o.store.pairs.map (·.1) ∧
        (o'.serve ambiguous f "/p/m.a.x.y").2.calls.length = o'.calls.length + 1) := by
  decide +kernel

end Session

end SourceOverlay
