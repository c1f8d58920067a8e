import SourceOverlay.Proofs.Bookkeeping

/-!
# Documents of editors

A document that an editor registered is decided by what was registered for its path and by nothing
else: it has the greatest version that was given, and the text that came last with that version.
Serving, settling and the registration of other paths do not reach it.

This is so as long as no source lays claim to the path. A source whose compiled name is the path
brings a compiled document there, or compiles into the editor's. No operation does so before the
source has a document itself, and documents are never taken away. So it is enough that at the moment
in question no such source is in the store. The sessions at the end show what happens otherwise.
-/

set_option autoImplicit false

namespace SourceOverlay

-- A registration is used through its laws; unfolded it would make every comparison run lookups.
attribute [local irreducible] Store.register

/-! ### What prevails of a history -/

/-- Of all that was given for its path, the edit is the latest one with the greatest version. -/
def Prevails (given : List Edit) (e : Edit) : Prop :=
  ∃ before after, given = before ++ e :: after ∧
    (∀ e' ∈ before, e'.path = e.path → e'.version ≤ e.version) ∧
    ∀ e' ∈ after, e'.path = e.path → e'.version < e.version

namespace Prevails

variable {given : List Edit} {e new : Edit}

theorem mem (h : Prevails given e) : e ∈ given := by
  obtain ⟨before, after, rfl, -, -⟩ := h
  simp

theorem le (h : Prevails given e) : ∀ e' ∈ given, e'.path = e.path → e'.version ≤ e.version := by
  obtain ⟨before, after, rfl, hbefore, hafter⟩ := h
  intro e' he' hpath
  rcases List.mem_append.mp he' with he' | he'
  · exact hbefore e' he' hpath
  · rcases List.mem_cons.mp he' with rfl | he'
    · exact Int.le_refl _
    · exact Int.le_of_lt (hafter e' he' hpath)

theorem concat (h : Prevails given e) (hnew : new.path = e.path → new.version < e.version) :
    Prevails (given ++ [new]) e := by
  obtain ⟨before, after, rfl, hbefore, hafter⟩ := h
  refine ⟨before, after ++ [new], by simp, hbefore, fun e' he' hpath => ?_⟩
  rcases List.mem_append.mp he' with he' | he'
  · exact hafter e' he' hpath
  · obtain rfl : e' = new := by simpa using he'
    exact hnew hpath

theorem of_last (h : ∀ e' ∈ given, e'.path = new.path → e'.version ≤ new.version) :
    Prevails (given ++ [new]) new :=
  ⟨given, [], rfl, h, by simp⟩

end Prevails

/-- What there is at a path, in view of what was given for it: an editor's document with what
prevails or, if nothing was given, a stored text or no document. -/
def Decides (given : List Edit) (p : String) : Option Document → Prop
  | none => ∀ e ∈ given, e.path ≠ p
  | some d =>
    match d.kind with
    | .editor => Prevails given ⟨p, d.text, d.version⟩
    | .disk => ∀ e ∈ given, e.path ≠ p
    | .compiled _ => False

namespace Decides

variable {given : List Edit} {p : String} {d : Document} {d? : Option Document}

theorem source?_eq_none (h : Decides given p (some d)) : d.source? = none := by
  simp only [Decides] at h
  split at h
  · next hkind => simp [Document.source?, hkind]
  · next hkind => simp [Document.source?, hkind]
  · exact h.elim

theorem editor (h : Decides given p d?) (hgiven : ∃ e ∈ given, e.path = p) :
    ∃ d, d? = some d ∧ d.kind = .editor ∧ Prevails given ⟨p, d.text, d.version⟩ := by
  obtain ⟨e, he, hpath⟩ := hgiven
  cases d? with
  | none => exact absurd hpath (h e he)
  | some d =>
    simp only [Decides] at h
    split at h
    · next hkind => exact ⟨d, rfl, hkind, h⟩
    · exact absurd hpath (h e he)
    · exact h.elim

theorem concat {new : Edit} (h : Decides given p d?) (hnew : new.path ≠ p) :
    Decides (given ++ [new]) p d? := by
  have hothers : (∀ e ∈ given, e.path ≠ p) → ∀ e ∈ given ++ [new], e.path ≠ p := by
    intro hgiven e he
    rcases List.mem_append.mp he with he | he
    · exact hgiven e he
    · obtain rfl : e = new := by simpa using he
      exact hnew
  cases d? with
  | none => exact hothers h
  | some d =>
    simp only [Decides] at h ⊢
    split at h
    · exact h.concat fun hpath => absurd hpath hnew
    · exact hothers h
    · exact h

theorem received (h : Decides given p d?) (text : String) (version : Version) :
    Decides (given ++ [⟨p, text, version⟩]) p
      (some (Document.received d? p text version)) := by
  have hfirst : (∀ e ∈ given, e.path ≠ p) →
      Prevails (given ++ [⟨p, text, version⟩]) ⟨p, text, version⟩ := fun hnone =>
    .of_last fun e he hpath => absurd hpath (hnone e he)
  cases d? with
  | none => exact hfirst h
  | some d =>
    simp only [Decides] at h
    simp only [Document.received]
    split at h
    · next hkind =>
      split
      · next hold =>
        have hlt : version < d.version := by simpa [Document.isEditor, hkind] using hold
        simp only [Decides, hkind]
        exact h.concat fun _ => hlt
      · next hnew =>
        have hle : d.version ≤ version := by simpa [Document.isEditor, hkind] using hnew
        have hdisk : d.isDisk = false := by simp [Document.isDisk, hkind]
        simp only [Decides, Document.promote, hdisk, Document.write, hkind, Bool.false_eq_true,
          if_false]
        exact .of_last fun e he hpath => Int.le_trans (h.le e he hpath) hle
    · next hkind =>
      have hdisk : d.isDisk = true := by simp [Document.isDisk, hkind]
      have heditor : d.isEditor = false := by simp [Document.isEditor, hkind]
      simp only [heditor, Bool.false_and, Bool.false_eq_true, if_false, Decides, Document.promote,
        hdisk, if_true, Document.write]
      exact hfirst h
    · exact h.elim

end Decides

/-! ### Paths that no source claims -/

/-- No source that the registry compiles to the path has a document. -/
def Store.Unclaimed (r : Registry) (p : String) (s : Store) : Prop :=
  ∀ source t, r.find? (Name.extension source) = some t → t.compiledName source = p →
    s.find? source = none

theorem Store.Unclaimed.earlier {r : Registry} {p : String} {s s' : Store}
    (h : s'.Unclaimed r p) (hext : s.Extends s') : s.Unclaimed r p := by
  intro source t hfind hname
  cases hs : s.find? source with
  | none => rfl
  | some d =>
    have hsome := hext.isSome (p := source) (by simp [hs])
    simp [h source t hfind hname] at hsome

namespace Overlay

variable {r : Registry} {f : Files} {jobs js : List Job} {o o' : Overlay} {p : String}

/-- A registration that leaves a path unclaimed reaches it only by naming it. -/
theorem register_unclaimed {path : String} (ho : o.store.Tidy) (text : String) (version : Version)
    (h : (o.register r path text version).2.store.Unclaimed r p) :
    (o.register r path text version).2.store.find? p =
      if path = p then some (.received (o.store.find? p) p text version)
      else o.store.find? p := by
  rw [register_store] at h ⊢
  -- The registered path has a document now, so its compiled name is another path.
  have hthere := Store.find?_register_path ho r path text version
  have hunpaired : ∀ t, r.find? (Name.extension path) = some t → t.compiledName path ≠ p := by
    intro t hfind hname
    simp [h path t hfind hname] at hthere
  rw [Store.find?_register_unpaired ho hunpaired]
  split
  · next hp => rw [hp]
  · rfl

theorem Move.unclaimed {js' : List Job} (m : Move r f jobs o js' o') (ho : o.store.Tidy)
    (hjobs : ∀ j ∈ jobs, j.compiled ≠ p) (h : o'.store.Unclaimed r p) :
    o'.store.find? p = o.store.find? p ∨
      o.store.find? p = none ∧ ∃ text, o'.store.find? p = some (.ofDisk p text) := by
  have hbefore : o.store.Unclaimed r p := h.earlier (m.tidy ho).2
  obtain hsame | ⟨hnone, -, text, -, -, hnew⟩ | ⟨hnone, t, howner, hnew⟩ |
    ⟨j, d, rfl, rfl, hjob, -, -, -⟩ := m.find?_cases ho p
  · exact .inl hsame
  · exact .inr ⟨hnone, text, hnew⟩
  · -- A compiled document would have its source beside it.
    obtain ⟨hfind, hname, -⟩ := Registry.owner?_cases howner
    have hsource := (m.tidy ho).1.sourced p _ _ hnew rfl
    simp [h _ t hfind hname] at hsource
  · rcases hjob with hjob | ⟨hfits, source, hsource, -, -⟩
    · exact absurd rfl (hjobs j hjob)
    · simp [hbefore _ _ hfits.find? hfits.compiledName] at hsource

end Overlay

namespace Session

variable {turn : Turn} {s : Session} {p : String}

structure Apart (p : String) (jobs : List Job) (o : Overlay) : Prop where
  jobs : ∀ j ∈ jobs, j.compiled ≠ p
  plain : ∀ d, o.store.find? p = some d → d.source? = none

theorem step_unclaimed (hs : s.Steady) (hapart : Apart p s.jobs s.overlay)
    (hedit : turn.request.edit? = none)
    (h : (step turn s).2.overlay.store.Unclaimed turn.registry p) :
    Apart p (step turn s).2.jobs (step turn s).2.overlay ∧
      ((step turn s).2.overlay.store.find? p = s.overlay.store.find? p ∨
        s.overlay.store.find? p = none ∧
          ∃ text, (step turn s).2.overlay.store.find? p = some (.ofDisk p text)) := by
  have hkeep : Keeps turn fun jobs _ o => o.store.Unclaimed turn.registry p →
      Apart p jobs o ∧ (o.store.find? p = s.overlay.store.find? p ∨
        s.overlay.store.find? p = none ∧ ∃ text, o.store.find? p = some (.ofDisk p text)) := by
    refine ⟨?_, ?_, ?_⟩
    · intro jobs js o path text version hrequest
      simp [hrequest, Request.edit?] at hedit
    · intro jobs js o jobs' ho hdue hold h
      obtain ⟨hapart, hfind⟩ := hold h
      refine ⟨⟨fun j hj => ?_, hapart.plain⟩, hfind⟩
      rcases List.mem_append.mp hj with hj | hj
      · exact hapart.jobs j hj
      · rintro rfl
        obtain ⟨-, d, -, hd, hsource, -⟩ := hdue j hj
        simp [hapart.plain d hd] at hsource
    · intro jobs js o js' o' ho m hold h
      obtain ⟨hapart, hfind⟩ := hold (h.earlier (m.tidy ho).2)
      have hmove := m.unclaimed ho hapart.jobs h
      refine ⟨⟨hapart.jobs, fun d hd => ?_⟩, ?_⟩
      · rcases hmove with hsame | ⟨-, text, hnew⟩
        · exact hapart.plain d (hsame.symm.trans hd)
        · rw [← Option.some.inj (hnew.symm.trans hd)]
          rfl
      · rcases hmove with hsame | ⟨hnone, text, hnew⟩
        · rw [hsame]
          exact hfind
        · rcases hfind with hsame | ⟨-, text', hdisk⟩
          · exact .inr ⟨hsame.symm.trans hnone, text, hnew⟩
          · simp [hnone] at hdisk
  exact hkeep.step hs (fun _ => ⟨hapart, .inl rfl⟩) h

theorem step_decides {given : List Edit} (hs : s.Steady) (hjobs : ∀ j ∈ s.jobs, j.compiled ≠ p)
    (hgiven : Decides given p (s.overlay.store.find? p))
    (h : (step turn s).2.overlay.store.Unclaimed turn.registry p) :
    (∀ j ∈ (step turn s).2.jobs, j.compiled ≠ p) ∧
      Decides (given ++ turn.request.edit?.toList) p ((step turn s).2.overlay.store.find? p) := by
  obtain hnone | ⟨path, text, version, hrequest⟩ := turn.request.edit?_cases
  · have hapart : Apart p s.jobs s.overlay :=
      ⟨hjobs, fun d hd => (hd ▸ hgiven : Decides given p (some d)).source?_eq_none⟩
    obtain ⟨hapart', hfind⟩ := step_unclaimed hs hapart hnone h
    refine ⟨hapart'.jobs, ?_⟩
    rw [hnone, Option.toList_none, List.append_nil]
    rcases hfind with hsame | ⟨hmissing, text, hdisk⟩
    · rw [hsame]
      exact hgiven
    · rw [hmissing] at hgiven
      rw [hdisk]
      exact hgiven
  · have hkept : (step turn s).2.jobs = s.jobs := by simp only [step, hrequest]
    rw [step_register hrequest] at h ⊢
    rw [hkept, hrequest, Overlay.register_unclaimed hs.tidy text version h]
    refine ⟨hjobs, ?_⟩
    split
    · next hp =>
      subst hp
      exact hgiven.received text version
    · next hp => exact hgiven.concat hp

theorem run_decides {project : Project} {turns : List Turn} {p : String}
    (h : ∀ turn ∈ turns, (run turns (opened project)).overlay.store.Unclaimed turn.registry p) :
    (∀ j ∈ (run turns (opened project)).jobs, j.compiled ≠ p) ∧
      Decides (edits turns) p ((run turns (opened project)).overlay.store.find? p) := by
  induction turns using List.reverseRecOn with
  | nil =>
    exact ⟨by simp [run, opened], by simp [run, opened, overlay, Store.find?, Decides, edits]⟩
  | append_singleton turns turn ih =>
    have hs := (steady_opened project).run turns
    rw [run_concat] at h ⊢
    obtain ⟨hjobs, hgiven⟩ := ih fun turn' hturn' =>
      (h turn' (List.mem_append_left [turn] hturn')).earlier (step_extends hs turn)
    rw [edits_concat]
    exact step_decides hs hjobs hgiven (h turn (by simp))

def Decided (project : Project) (turns : List Turn) (p : String) : Prop :=
  ∃ d, (run turns (opened project)).overlay.store.find? p = some d ∧ d.kind = .editor ∧
    Prevails (edits turns) ⟨p, d.text, d.version⟩

/-- At any moment at which no source lays claim to a path, the document there is decided by what was
registered for the path, if anything was. Any turn that leaves the path unclaimed leaves the document
as it is, unless it registers the path at a version that is no older. -/
theorem run_decided {project : Project} {turns : List Turn} {p : String}
    (hclaims : ∀ turn ∈ turns,
      (run turns (opened project)).overlay.store.Unclaimed turn.registry p)
    (hgiven : ∃ e ∈ edits turns, e.path = p) :
    let s := run turns (opened project)
    Decided project turns p ∧
      ∀ d turn, s.overlay.store.find? p = some d →
        (step turn s).2.overlay.store.Unclaimed turn.registry p →
        (∀ text version, turn.request = .register p text version → version < d.version) →
        (step turn s).2.overlay.store.find? p = some d := by
  obtain ⟨hjobs, hdecides⟩ := run_decides hclaims
  have hs := (steady_opened project).run turns
  obtain ⟨d, hd, hkind, hprevails⟩ := hdecides.editor hgiven
  refine ⟨⟨d, hd, hkind, hprevails⟩, fun d' turn hd' h hold => ?_⟩
  obtain rfl := Option.some.inj (hd.symm.trans hd')
  obtain hnone | ⟨path, text, version, hrequest⟩ := turn.request.edit?_cases
  · have hplain : d.source? = none := by simp [Document.source?, hkind]
    have hapart : Apart p (run turns (opened project)).jobs (run turns (opened project)).overlay :=
      ⟨hjobs, fun e he => Option.some.inj (hd.symm.trans he) ▸ hplain⟩
    rcases (step_unclaimed hs hapart hnone h).2 with hsame | ⟨hmissing, -⟩
    · exact hsame.trans hd
    · simp [hd] at hmissing
  · rw [step_register hrequest] at h ⊢
    rw [Overlay.register_unclaimed hs.tidy text version h]
    split
    · next hp =>
      subst hp
      have hlt := hold text version hrequest
      simp [hd, Document.received, Document.isEditor, hkind, hlt]
    · exact hd

/-- A file may well have the name of a compiled one. As long as its source is missing it stays what
the editor made it, although the compiled path is served and an older text comes in. -/
def namesakeTurns : List Turn :=
  [.register "/p/a.v.ts" "two" 2, .serve "/p/a.v.ts", .register "/p/a.v.ts" "one" 1,
    .register "/p/b.v" "other" 7, .collect, .settle 0].map
    (Turn.mk .copying (.ofRead fun _ => none))

theorem run_decided_copying :
    (run namesakeTurns (opened sample)).jobs ≠ [] ∧ Decided sample namesakeTurns "/p/a.v.ts" := by
  refine ⟨by decide +kernel, (run_decided ?_ (by decide +kernel)).1⟩
  have hmissing : (run namesakeTurns (opened sample)).overlay.store.find? "/p/a.v" = none := by
    decide +kernel
  have hname : Name.withoutExtension "/p/a.v.ts" = "/p/a.v" := by decide +kernel
  intro turn hturn source t hfind hcompiled
  have hregistry : turn.registry = .copying := by
    simp only [namesakeTurns, List.map_cons, List.map_nil, List.mem_cons, List.not_mem_nil,
      or_false] at hturn
    rcases hturn with rfl | rfl | rfl | rfl | rfl | rfl <;> rfl
  rw [hregistry] at hfind
  rw [← Registry.flat_copying.withoutExtension_compiledName hfind, hcompiled, hname]
  exact hmissing

/-! ### Sessions in which a source claims the path -/

def Displaces (r : Registry) (f : Files) (requests : List Request) (p : String) : Prop :=
  (∃ e ∈ edits (requests.map (Turn.mk r f)), e.path = p) ∧
    ¬ Decided sample (requests.map (Turn.mk r f)) p

theorem displaces_of {r : Registry} {f : Files} {requests : List Request} {p : String}
    {d : Document} (hgiven : ∃ e ∈ edits (requests.map (Turn.mk r f)), e.path = p)
    (hd : (run (requests.map (Turn.mk r f)) (opened sample)).overlay.store.find? p = some d)
    (h : d.kind ≠ .editor ∨ ⟨p, d.text, d.version⟩ ∉ edits (requests.map (Turn.mk r f))) :
    Displaces r f requests p := by
  refine ⟨hgiven, ?_⟩
  rintro ⟨d', hd', hkind, hprevails⟩
  obtain rfl := Option.some.inj (hd.symm.trans hd')
  rcases h with h | h
  · exact h hkind
  · exact h hprevails.mem

/-- A text registered where a compiled document is does not make it an editor's; an editor's document
is compiled into when its path is served and the source is newer; and it loses its version when an
editor takes the source over from the backing store. -/
theorem claims_displace :
    Displaces .copying (.ofRead fun _ => none)
      [.register "/p/a.v" "one" 1, .register "/p/a.v.ts" "mine" 1] "/p/a.v.ts" ∧
    Displaces .copying (.ofRead fun _ => none)
      [.register "/p/a.v.ts" "mine" 1, .register "/p/a.v" "two" 2, .serve "/p/a.v.ts"]
      "/p/a.v.ts" ∧
    Displaces .copying (.ofRead fun p => if p = "/p/a.v" then some "disk" else none)
      [.register "/p/a.v.ts" "mine" 5, .serve "/p/a.v.ts", .register "/p/a.v" "two" 2]
      "/p/a.v.ts" := by
  refine ⟨displaces_of (d := ⟨"/p/a.v.ts", "mine", 1, .compiled "/p/a.v", 1⟩) ?_ ?_ ?_,
    displaces_of (d := ⟨"/p/a.v.ts", "two", 2, .editor, 1⟩) ?_ ?_ ?_,
    displaces_of (d := ⟨"/p/a.v.ts", "mine", -1, .editor, 0⟩) ?_ ?_ ?_⟩ <;>
    decide +kernel

end Session

end SourceOverlay
