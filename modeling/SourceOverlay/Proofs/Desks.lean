import SourceOverlay.Proofs.Separation

/-!
# Desks

A desk is an overlay at work with one registry and one backing store. A refresh is begun and
finished by separate actions, and anything may be done in between, also other refreshes; it settles
its jobs all at once. The actions of a desk are turns of a session, so what holds in every session
holds of every desk.

Two desks may differ in what was done to files outside of a separate set. They then give the same
replies for the files of the set and report the same failures for them. A source and its compiled
form are such a set, so no other file can be told from them.
-/

set_option autoImplicit false

namespace SourceOverlay

inductive Action where
  | register (path text : String) (version : Version)
  | serve (path : String)
  | begin
  | finish (refresh : Nat)
  | version (path : String)
  | provenance (source : String)
  | position (path : String) (line column : Nat)
  deriving Repr, DecidableEq

inductive Reply where
  | registered (registration : Registration)
  | snapshot (text : String) (version : Version)
  | begun (jobs : Nat)
  | finished (counts : Overlay.Refreshed)
  | version (text : String)
  | provenance (found : Option Provenance)
  | position (found : Option (String × Nat × Nat))
  deriving Repr, DecidableEq

structure Desk where
  overlay : Overlay := {}
  refreshes : List (List Job) := []

-- A registration is used through its laws; unfolded it would make every comparison run lookups.
attribute [local irreducible] Store.register

namespace Desk

def step (r : Registry) (f : Files) (d : Desk) : Action → Reply × Desk
  | .register path text version =>
    let (registration, overlay) := d.overlay.register r path text version
    (.registered registration, { d with overlay })
  | .serve path =>
    let (s, overlay) := d.overlay.serve r f path
    (.snapshot s.text s.version, { d with overlay })
  | .begin =>
    let (jobs, o) := d.overlay.collect r f
    (.begun jobs.length, { overlay := o.call jobs, refreshes := d.refreshes ++ [jobs] })
  | .finish refresh =>
    let jobs := d.refreshes[refresh]?.getD []
    let (counts, overlay) := Overlay.settleAll (jobs.map fun j => (j, j.run)) ({}, d.overlay)
    (.finished counts, { d with overlay })
  | .version path => (.version (d.overlay.versionText path), d)
  | .provenance source => (.provenance (d.overlay.records.find? source), d)
  | .position path line column =>
    (.position (d.overlay.sourcePosition? r path line column), d)

theorem step_register (r : Registry) (f : Files) (d : Desk) (path text : String)
    (version : Version) :
    step r f d (.register path text version) =
      (.registered (d.overlay.register r path text version).1,
        { d with overlay := (d.overlay.register r path text version).2 }) := by
  simp only [step]

theorem step_serve (r : Registry) (f : Files) (d : Desk) (path : String) :
    step r f d (.serve path) =
      (.snapshot (d.overlay.serve r f path).1.text (d.overlay.serve r f path).1.version,
        { d with overlay := (d.overlay.serve r f path).2 }) := by
  simp only [step]

def run (r : Registry) (f : Files) : List Action → Desk → Desk
  | [], d => d
  | a :: actions, d => run r f actions (step r f d a).2

/-- The actions with their replies. -/
def replies (r : Registry) (f : Files) : List Action → Desk → List (Action × Reply)
  | [], _ => []
  | a :: actions, d => (a, (step r f d a).1) :: replies r f actions (step r f d a).2

theorem run_append (r : Registry) (f : Files) (actions rest : List Action) (d : Desk) :
    run r f (actions ++ rest) d = run r f rest (run r f actions d) := by
  induction actions generalizing d with
  | nil => rfl
  | cons a actions ih => exact ih _

theorem run_refreshes (r : Registry) (f : Files) (actions : List Action) (d : Desk) :
    d.refreshes <+: (run r f actions d).refreshes := by
  induction actions generalizing d with
  | nil => exact List.prefix_rfl
  | cons a actions ih =>
    have hstep : d.refreshes <+: (step r f d a).2.refreshes := by
      cases a with
      | begin => exact List.prefix_append _ _
      | _ =>
        simp only [step]
        exact List.prefix_rfl
    exact hstep.trans (ih _)

/-- A refresh is begun, then come the actions in between, and then it is finished. -/
theorem run_refreshWith {α : Type} (r : Registry) (f : Files) (d : Desk)
    (hjobs : (d.overlay.collect r f).1 ≠ []) (actions : List Action) (idle : α)
    (between : Overlay → α × Overlay)
    (hbetween : (between (step r f d .begin).2.overlay).2 =
      (run r f actions (step r f d .begin).2).overlay) :
    (d.overlay.refreshWith r f idle between).2.2 =
      (run r f (.begin :: actions ++ [.finish d.refreshes.length]) d).overlay := by
  obtain ⟨later, hlater⟩ := run_refreshes r f actions (step r f d .begin).2
  have hrefresh : (run r f actions (step r f d .begin).2).refreshes[d.refreshes.length]? =
      some (d.overlay.collect r f).1 := by
    rw [← hlater]
    simp [step]
  have hfinish : ∀ d' : Desk, d'.refreshes[d.refreshes.length]? =
      some (d.overlay.collect r f).1 → (step r f d' (.finish d.refreshes.length)).2.overlay =
        (Overlay.settleAll ((d.overlay.collect r f).1.map fun j => (j, j.run))
          ({}, d'.overlay)).2 := by
    intro d' hd'
    simp only [step, hd', Option.getD_some]
  simp only [List.cons_append, run, run_append]
  rw [hfinish _ hrefresh, ← hbetween]
  simp only [Overlay.refreshWith, List.isEmpty_iff, if_neg hjobs]
  rfl

/-! ### Desks and sessions -/

variable {r : Registry} {f : Files} {d d' : Desk} {own : String → Bool}

def Backed (r : Registry) (f : Files) (d : Desk) : Prop :=
  ∃ s : Session, s.Cached r f ∧ Overlay.Traced r s.jobs s.commits s.overlay ∧
    s.overlay = d.overlay ∧ s.jobs = d.refreshes.flatten

theorem backed_empty (r : Registry) (f : Files) : Backed r f {} :=
  ⟨.opened Session.sample, Session.cached_opened r f _, Overlay.traced_empty r, rfl, rfl⟩

theorem backed_of_requests (hr : r.Flat) {s : Session} (hs : s.Cached r f)
    (htraced : Overlay.Traced r s.jobs s.commits s.overlay) (requests : List Request)
    (hoverlay : (Session.run (requests.map (Turn.mk r f)) s).overlay = d.overlay)
    (hjobs : (Session.run (requests.map (Turn.mk r f)) s).jobs = d.refreshes.flatten) :
    d.Backed r f := by
  refine ⟨_, hs.run requests, ?_, hoverlay, hjobs⟩
  refine Session.Keeps.run (motive := Overlay.Traced r) (fun turn hturn => ?_) hs.steady htraced
  obtain ⟨request, -, rfl⟩ := List.mem_map.mp hturn
  exact Session.keeps_traced hr.unambiguous (hr.plain rfl)

theorem jobs_settles (r : Registry) (f : Files) (first count : Nat) (s : Session) :
    (Session.run (Session.settles r f first count) s).jobs = s.jobs := by
  induction count generalizing first s with
  | zero => rfl
  | succ count ih =>
    rw [Session.settles, List.range'_succ, List.map_cons, Session.run]
    refine (ih (first + 1) _).trans ?_
    simp only [Session.step]
    split <;> rfl

theorem refresh_prefix {refreshes : List (List Job)} {refresh : Nat} {jobs : List Job}
    (h : refreshes[refresh]? = some jobs) :
    jobs <+: refreshes.flatten.drop (refreshes.take refresh).flatten.length := by
  obtain ⟨hlt, rfl⟩ := List.getElem?_eq_some_iff.mp h
  have hsplit : refreshes.flatten = (refreshes.take refresh).flatten ++
      (refreshes[refresh] ++ (refreshes.drop (refresh + 1)).flatten) := by
    rw [← List.flatten_cons, ← List.drop_eq_getElem_cons hlt, ← List.flatten_append,
      List.take_append_drop]
  rw [hsplit, List.drop_left]
  exact List.prefix_append _ _

theorem Backed.step (h : d.Backed r f) (hr : r.Flat) (a : Action) :
    (step r f d a).2.Backed r f := by
  obtain ⟨s, hs, htraced, hoverlay, hjobs⟩ := h
  cases a with
  | register path text version =>
    rw [step_register, ← hoverlay]
    refine backed_of_requests hr hs htraced [.register path text version] ?_ hjobs
    simp only [List.map_cons, List.map_nil, Session.run, Session.step, Session.overlay,
      Project.register_overlay]
  | serve path =>
    rw [step_serve, ← hoverlay]
    refine backed_of_requests hr hs htraced [.serve path] ?_ ?_
    · simp only [List.map_cons, List.map_nil, Session.run, Session.step, Session.overlay,
        Project.serve_overlay]
    · simp only [List.map_cons, List.map_nil, Session.run, Session.step, hjobs]
  | begin =>
    refine backed_of_requests hr hs htraced [.collect] ?_ ?_
    · simp only [Desk.step, ← hoverlay]
      rfl
    · simp only [Desk.step, ← hoverlay, List.flatten_append, ← hjobs, List.flatten_singleton]
      rfl
  | finish refresh =>
    simp only [Desk.step]
    cases hrefresh : d.refreshes[refresh]? with
    | none => exact ⟨s, hs, htraced, hoverlay, hjobs⟩
    | some jobs =>
      -- The session settles the jobs by their numbers, which follow one another.
      have hprefix := refresh_prefix hrefresh
      rw [← hjobs] at hprefix
      let requests := (List.range' (d.refreshes.take refresh).flatten.length jobs.length).map
        Request.settle
      have hturns : Session.settles r f (d.refreshes.take refresh).flatten.length jobs.length =
          requests.map (Turn.mk r f) := by
        simp [Session.settles, requests]
      refine backed_of_requests hr hs htraced requests ?_ ?_
      · rw [← hturns, Session.run_settles r f jobs _ s hprefix {}, hoverlay]
        rfl
      · rw [← hturns, jobs_settles]
        exact hjobs
  | version | provenance | position => exact ⟨s, hs, htraced, hoverlay, hjobs⟩

theorem Backed.kept (h : d.Backed r f) : d.overlay.Kept r f := by
  obtain ⟨s, hs, htraced, hoverlay, -⟩ := h
  rw [← hoverlay]
  exact ⟨⟨hs.steady.tidy, htraced.placed⟩, hs.compiled, hs.native⟩

theorem Backed.ready (h : d.Backed r f) (refresh : Nat) :
    d.overlay.Ready r (d.refreshes[refresh]?.getD []) := by
  obtain ⟨s, hs, htraced, hoverlay, hjobs⟩ := h
  rw [← hoverlay]
  intro j hj
  have hmem : j ∈ s.jobs := by
    rw [hjobs, List.mem_flatten]
    cases hrefresh : d.refreshes[refresh]? with
    | none => simp [hrefresh] at hj
    | some jobs =>
      rw [hrefresh] at hj
      exact ⟨jobs, List.mem_of_getElem? hrefresh, hj⟩
  exact ⟨htraced.fits j (.inl hmem), hs.steady.reserved j hmem⟩

end Desk

/-! ### Files of a set -/

def Action.path? : Action → Option String
  | .register path _ _ | .serve path | .version path | .provenance path | .position path _ _ =>
    some path
  | .begin | .finish _ => none

def Action.touched? : Action → Option String
  | .register path _ _ | .serve path => some path
  | _ => none

def Action.concerns (own : String → Bool) (a : Action) : Bool := a.path?.any own

/-- A file, its compiled form and its source, where it has them. -/
def Registry.kin (r : Registry) (path : String) : List String :=
  path :: (((r.find? (Name.extension path)).map fun t => t.compiledName path).toList ++
    ((r.owner? path).map fun _ => Name.withoutExtension path).toList)

def Action.stays (r : Registry) (own : String → Bool) (a : Action) : Bool :=
  a.touched?.all fun path => (r.kin path).any own

theorem Registry.Separates.any_kin {r : Registry} {own : String → Bool} (hown : r.Separates own)
    (path : String) : (r.kin path).any own = own path := by
  have hall : ∀ q ∈ r.kin path, own q = own path := by
    intro q hq
    simp only [Registry.kin, List.mem_cons, List.mem_append, Option.mem_toList,
      Option.map_eq_some_iff] at hq
    rcases hq with rfl | ⟨t, hfind, rfl⟩ | ⟨t, howner, rfl⟩
    · rfl
    · exact hown path t hfind
    · exact hown.owner howner
  rw [Bool.eq_iff_iff, List.any_eq_true]
  constructor
  · rintro ⟨q, hq, hin⟩
    rwa [← hall q hq]
  · intro hin
    exact ⟨path, List.mem_cons_self, hin⟩

theorem Registry.Separates.stays {r : Registry} {own : String → Bool} (hown : r.Separates own)
    (a : Action) : a.stays r own = a.touched?.all own := by
  simp only [Action.stays, hown.any_kin]

namespace Desk

variable {r : Registry} {f : Files} {d d' : Desk} {own : String → Bool}

structure Alike (own : String → Bool) (d d' : Desk) : Prop where
  overlay : d.overlay.Alike own d'.overlay
  refreshes : (d.refreshes.map fun jobs => jobs.filter fun j => own j.compiled) =
    d'.refreshes.map fun jobs => jobs.filter fun j => own j.compiled

theorem Alike.refl (own : String → Bool) (d : Desk) : d.Alike own d := ⟨.refl own _, rfl⟩

theorem Alike.trans {d'' : Desk} (h : d.Alike own d') (h' : d'.Alike own d'') : d.Alike own d'' :=
  ⟨h.overlay.trans h'.overlay, h.refreshes.trans h'.refreshes⟩

theorem Alike.refresh (h : d.Alike own d') (refresh : Nat) :
    ((d.refreshes[refresh]?.getD []).filter fun j => own j.compiled) =
      (d'.refreshes[refresh]?.getD []).filter fun j => own j.compiled := by
  have hget := congrArg (·[refresh]?) h.refreshes
  simp only [List.getElem?_map] at hget
  cases hd : d.refreshes[refresh]? <;> cases hd' : d'.refreshes[refresh]? <;>
    simp_all

theorem Alike.step (h : d.Alike own d') (hr : r.Flat) (hown : r.Separates own)
    (hd : d.Backed r f) (hd' : d'.Backed r f) {a : Action} (ha : a.touched?.all own = true) :
    (a.concerns own = true → (step r f d a).1 = (step r f d' a).1) ∧
      (step r f d a).2.Alike own (step r f d' a).2 := by
  have hkept := hd.kept
  have hkept' := hd'.kept
  cases a with
  | register path text version =>
    obtain ⟨hreply, halike⟩ := h.overlay.register hr hkept.arranged.tidy hkept'.arranged.tidy hown
      (by simpa [Action.touched?] using ha) text version
    rw [step_register, step_register]
    exact ⟨fun _ => congrArg Reply.registered hreply, halike, h.refreshes⟩
  | serve path =>
    obtain ⟨htext, hversion, halike⟩ := h.overlay.serve hr hown hkept hkept'
      (by simpa [Action.touched?] using ha)
    rw [step_serve, step_serve]
    exact ⟨fun _ => congrArg₂ Reply.snapshot htext hversion, halike, h.refreshes⟩
  | begin =>
    have hjobs := h.overlay.collect (f := f) hr hown hkept.arranged hkept'.arranged
    obtain ⟨hstay, -⟩ := Overlay.collect_eq (r := r) (f := f) hkept.arranged.tidy
    obtain ⟨hstay', -⟩ := Overlay.collect_eq (r := r) (f := f) hkept'.arranged.tidy
    refine ⟨fun hconcerns => by simp [Action.concerns, Action.path?] at hconcerns, ?_, ?_⟩
    · simp only [Desk.step, hstay, hstay']
      exact ⟨h.overlay.store, h.overlay.records, h.overlay.reports⟩
    · simp only [Desk.step, List.map_append, List.map_cons, List.map_nil, h.refreshes, hjobs]
  | finish refresh =>
    refine ⟨fun hconcerns => by simp [Action.concerns, Action.path?] at hconcerns, ?_,
      h.refreshes⟩
    exact h.overlay.settleAll hown (h.refresh refresh) hkept.arranged.tidy hkept'.arranged.tidy
      (hd.ready refresh) (hd'.ready refresh) {} {}
  | version path =>
    refine ⟨fun hconcerns => congrArg Reply.version ?_, h⟩
    exact h.overlay.versionText hown hkept.arranged
      (by simpa [Action.concerns, Action.path?] using hconcerns)
  | provenance source =>
    refine ⟨fun hconcerns => congrArg Reply.provenance ?_, h⟩
    exact h.overlay.records source (by simpa [Action.concerns, Action.path?] using hconcerns)
  | position path line column =>
    refine ⟨fun hconcerns => congrArg Reply.position ?_, h⟩
    exact h.overlay.sourcePosition? hown
      (by simpa [Action.concerns, Action.path?] using hconcerns) line column

/-- An action on another file leaves the desk as it was for the files of the set. -/
theorem step_frame (hr : r.Flat) (hown : r.Separates own) (hd : d.Backed r f) {a : Action}
    (ha : a.touched?.all own = false) :
    a.concerns own = false ∧ (step r f d a).2.Alike own d := by
  have hkept := hd.kept
  cases a with
  | register path text version =>
    have hpath : own path = false := by simpa [Action.touched?] using ha
    rw [step_register]
    refine ⟨by simpa [Action.concerns, Action.path?] using hpath, ?_, rfl⟩
    exact Overlay.register_frame hr hkept.arranged.tidy hown hpath text version
  | serve path =>
    have hpath : own path = false := by simpa [Action.touched?] using ha
    rw [step_serve]
    refine ⟨by simpa [Action.concerns, Action.path?] using hpath, ?_, rfl⟩
    exact Overlay.serve_frame hr hown hkept hpath
  | _ => simp [Action.touched?] at ha

theorem Alike.run (hr : r.Flat) (hown : r.Separates own) (actions : List Action)
    (h : d.Alike own d') (hd : d.Backed r f) (hd' : d'.Backed r f) :
    ((replies r f actions d).filter fun x => x.1.concerns own) =
        ((replies r f (actions.filter fun a => a.touched?.all own) d').filter fun x =>
          x.1.concerns own) ∧
      (run r f actions d).Alike own
        (run r f (actions.filter fun a => a.touched?.all own) d') := by
  induction actions generalizing d d' with
  | nil => exact ⟨rfl, h⟩
  | cons a actions ih =>
    cases ha : a.touched?.all own with
    | true =>
      obtain ⟨hreply, hstep⟩ := h.step hr hown hd hd' ha
      obtain ⟨hreplies, hrun⟩ := ih hstep (hd.step hr a) (hd'.step hr a)
      rw [List.filter_cons_of_pos (by exact ha)]
      refine ⟨?_, hrun⟩
      simp only [replies, List.filter_cons, hreplies]
      split
      · next hconcerns => rw [hreply hconcerns]
      · rfl
    | false =>
      obtain ⟨hconcerns, hframe⟩ := step_frame hr hown hd ha
      obtain ⟨hreplies, hrun⟩ := ih (hframe.trans h) (hd.step hr a) hd'
      rw [List.filter_cons_of_neg (by simp [ha])]
      refine ⟨?_, hrun⟩
      rw [replies, List.filter_cons_of_neg (by simp [hconcerns])]
      exact hreplies

end Desk

def couple (source compiled : String) (path : String) : Bool := path == source || path == compiled

theorem Registry.Flat.separates_couple {r : Registry} (hr : r.Flat) {s : String} {t : Transpiler}
    (hs : r.find? (Name.extension s) = some t) : r.Separates (couple s (t.compiledName s)) := by
  intro p u hp
  have hsource : u.compiledName p ≠ s := Registry.compiledName_ne (hr.not_compiles_source hs) hp
  have hcompiled : p ≠ t.compiledName s := by
    rintro rfl
    exact hr.not_compiles_source hp ⟨s, t, hs, rfl⟩
  have hsame : u.compiledName p = t.compiledName s ↔ p = s := by
    refine ⟨hr.unambiguous _ _ _ _ hp hs, ?_⟩
    rintro rfl
    rw [Option.some.inj (hp.symm.trans hs)]
  rw [Bool.eq_iff_iff]
  simp [couple, hsource, hcompiled, hsame]

namespace Desk

/-- What is done with other files shows neither in the replies for a source and its compiled form
nor in the reports for the source. -/
theorem run_couple {r : Registry} (hr : r.Flat) (f : Files) {s : String} {t : Transpiler}
    (hs : r.find? (Name.extension s) = some t) (actions : List Action) :
    let own := couple s (t.compiledName s)
    let kept := actions.filter fun a => a.stays r own
    ((replies r f actions {}).filter fun x => x.1.concerns own) =
        ((replies r f kept {}).filter fun x => x.1.concerns own) ∧
      ((run r f actions {}).overlay.reports.filter fun x => x.source == s) =
        (run r f kept {}).overlay.reports.filter fun x => x.source == s := by
  have hown := hr.separates_couple hs
  have hempty := backed_empty r f
  obtain ⟨hreplies, hrun⟩ := (Alike.refl _ {}).run hr hown actions hempty hempty
  simp only [hown.stays]
  refine ⟨hreplies, ?_⟩
  have hreports := congrArg (List.filter fun x : Failure => x.source == s) hrun.overlay.reports
  have hboth : ∀ x : Failure,
      (x.source == s && couple s (t.compiledName s) x.source) = (x.source == s) := by
    intro x
    rw [Bool.eq_iff_iff]
    simp only [couple, Bool.and_eq_true, Bool.or_eq_true, beq_iff_eq]
    exact ⟨And.left, fun h => ⟨h, .inl h⟩⟩
  simpa only [List.filter_filter, hboth] using hreports

/-- Another file fails to compile while a refresh is under way, and is then left out. -/
theorem run_couple_copying :
    let f := Files.ofRead fun _ => none
    let own := couple "/p/a.v" "/p/a.v.ts"
    let actions : List Action := [.register "/p/b.v" "bad" 1, .register "/p/a.v" "one" 1, .begin,
      .serve "/p/b.v.ts", .finish 0, .register "/p/a.v" "bad" 2, .serve "/p/a.v.ts"]
    let kept : List Action := [.register "/p/a.v" "one" 1, .begin, .finish 0,
      .register "/p/a.v" "bad" 2, .serve "/p/a.v.ts"]
    (actions.filter fun a => a.stays .copying own) = kept ∧
      (run .copying f actions {}).overlay.reports.length = 2 ∧
      ((replies .copying f actions {}).filter fun x => x.1.concerns own) =
        ((replies .copying f kept {}).filter fun x => x.1.concerns own) ∧
      ((run .copying f actions {}).overlay.reports.filter fun x => x.source == "/p/a.v") =
        (run .copying f kept {}).overlay.reports.filter fun x => x.source == "/p/a.v" := by
  intro f own actions kept
  have hkept : (actions.filter fun a => a.stays .copying own) = kept := by decide +kernel
  have hnamed : (Registry.copying.find? (Name.extension "/p/a.v")).any
      (fun t => t.compiledName "/p/a.v" == "/p/a.v.ts") = true := by decide +kernel
  obtain ⟨t, ht, hname⟩ := (Option.any_eq_true _ _).mp hnamed
  have hcouple := run_couple Registry.flat_copying f ht actions
  simp only [beq_iff_eq.mp hname] at hcouple
  rw [show couple "/p/a.v" "/p/a.v.ts" = own from rfl, hkept] at hcouple
  exact ⟨hkept, by decide +kernel, hcouple⟩

end Desk

end SourceOverlay
