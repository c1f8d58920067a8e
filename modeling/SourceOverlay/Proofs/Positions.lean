import SourceOverlay.Proofs.Bookkeeping

/-!
# Positions

Texts are kept by compiled path and records by source. A record is always that of the latest compile
of its source that succeeded, whichever compiled path that went to, and the text at a compiled path
is the code of the latest compile that succeeded there. As long as all compiles of a source go to
one path, and no other source is compiled into that path, these are the same compile, and a position
is led back by the map of the text it stands in. A transpiler that is replaced by one with another
target breaks the first condition, and then a position may be led back by a map of another text.
-/

set_option autoImplicit false

namespace SourceOverlay

/-! ### The latest success -/

/-- The latest of some jobs that passes a test and succeeded, with its output. The jobs are given
the latest first. -/
def latest? (p : Job → Bool) (js : List Job) : Option (Job × Output) :=
  js.findSome? fun j => if p j then j.run.toOption.map (j, ·) else none

theorem latest?_cons_ok {p : Job → Bool} {j : Job} {output : Output} (hp : p j = true)
    (hrun : j.run = .ok output) (js : List Job) : latest? p (j :: js) = some (j, output) := by
  simp [latest?, hp, hrun, Except.toOption]

theorem latest?_cons_error {j : Job} {error : CompileError} (hrun : j.run = .error error)
    (p : Job → Bool) (js : List Job) : latest? p (j :: js) = latest? p js := by
  simp [latest?, hrun, Except.toOption]

theorem latest?_cons_of_not {p : Job → Bool} {j : Job} (hp : p j = false) (js : List Job) :
    latest? p (j :: js) = latest? p js := by
  simp [latest?, hp]

theorem mem_of_latest? {p : Job → Bool} {js : List Job} {j : Job} {output : Output}
    (h : latest? p js = some (j, output)) : j ∈ js ∧ p j = true ∧ j.run = .ok output := by
  obtain ⟨i, hi, hj⟩ := List.exists_of_findSome?_eq_some h
  split at hj
  · next hp =>
    obtain ⟨out, hout, heq⟩ := Option.map_eq_some_iff.mp hj
    obtain ⟨rfl, rfl⟩ := Prod.mk.inj heq
    cases hrun : i.run with
    | ok output =>
      rw [hrun] at hout
      exact ⟨hi, hp, by rw [← Option.some.inj hout]⟩
    | error error => simp [hrun, Except.toOption] at hout
  · simp at hj

/-- The latest success that passes a test is also the latest to pass a stricter one, if it does. -/
theorem latest?_of_imp {p q : Job → Bool} {js : List Job} {j : Job} {output : Output}
    (h : latest? p js = some (j, output)) (hj : q j = true)
    (himp : ∀ i ∈ js, q i = true → p i = true) : latest? q js = some (j, output) := by
  induction js with
  | nil => simp [latest?] at h
  | cons i js ih =>
    have hrest := fun i hi => himp i (List.mem_cons_of_mem _ hi)
    cases hp : p i with
    | false =>
      have hq : q i = false := by
        cases hq : q i with
        | false => rfl
        | true => rw [himp i List.mem_cons_self hq] at hp; exact hp
      rw [latest?_cons_of_not hp] at h
      rw [latest?_cons_of_not hq]
      exact ih h hrest
    | true =>
      cases hrun : i.run with
      | ok out =>
        rw [latest?_cons_ok hp hrun] at h
        obtain ⟨rfl, rfl⟩ := Prod.mk.inj (Option.some.inj h)
        exact latest?_cons_ok hj hrun js
      | error error =>
        rw [latest?_cons_error hrun] at h ⊢
        exact ih h hrest

def Job.provenance (j : Job) (output : Output) : Provenance :=
  ⟨j.source, j.compiled, output.map, j.version⟩

theorem Records.find?_note (r : Records) (p : Provenance) (source : String) :
    (r.note p).find? source = if p.source = source then some p else r.find? source := by
  simp [note, find?, Std.TreeMap.getElem?_insert]

namespace Overlay

variable {r : Registry} {f : Files} {jobs js js' : List Job} {o o' : Overlay}

theorem committed_records (o : Overlay) (j : Job) (d : Document) (result : Result) :
    (o.committed j d result).records =
      match result with
      | .ok output => o.records.note (j.provenance output)
      | .error _ => o.records := by
  cases result <;> rfl

/-! ### Records -/

def Recorded (js : List Job) (o : Overlay) : Prop :=
  ∀ source, o.records.find? source =
    (latest? (·.source == source) js).map fun (j, output) => j.provenance output

theorem Recorded.register (h : Recorded js o) (r : Registry) (path text : String)
    (version : Version) : Recorded js (o.register r path text version).2 := by
  simpa only [Recorded, Overlay.register] using h

theorem Recorded.move (h : Recorded js o) (m : Move r f jobs o js' o') :
    Recorded (js' ++ js) o' := by
  intro source
  cases m with
  | @commit j d =>
    rw [committed_records, List.singleton_append]
    cases hrun : j.run with
    | error error =>
      rw [latest?_cons_error hrun]
      exact h source
    | ok output =>
      simp only [Records.find?_note]
      by_cases hj : j.source = source
      · rw [latest?_cons_ok (by simpa using hj) hrun]
        exact if_pos hj
      · rw [latest?_cons_of_not (by simpa using hj), ← h source]
        exact if_neg hj
  | _ => exact h source

theorem record_of_sourcePosition? {c path : String} {line column : Nat} {place : Nat × Nat}
    (h : o.sourcePosition? r c line column = some (path, place)) :
    ∃ p, o.records.find? (Name.withoutExtension c) = some p ∧ p.source = path ∧
      p.source? line column = some place := by
  simp only [sourcePosition?, Option.bind_eq_bind, Option.bind_eq_some_iff] at h
  obtain ⟨-, -, n, hn, p, hp, found, hfound, heq⟩ := h
  rw [Name.Layered.source_of_split? hn] at hp
  obtain ⟨rfl, rfl⟩ := Prod.mk.inj (Option.some.inj heq)
  exact ⟨p, hp, rfl, hfound⟩

/-! ### The text at a compiled path -/

def Coded (c : String) (js : List Job) (o : Overlay) : Prop :=
  ∀ j output, latest? (·.compiled == c) js = some (j, output) →
    ∃ d, o.store.find? c = some d ∧ d.text = output.code

theorem Coded.register {c path : String} (h : Coded c js o) (ho : o.store.Tidy) (hne : path ≠ c)
    (r : Registry) (text : String) (version : Version) :
    Coded c js (o.register r path text version).2 := by
  intro j output hlatest
  obtain ⟨d, hd, htext⟩ := h j output hlatest
  rw [register_store]
  by_cases hp : ∀ t, r.find? (Name.extension path) = some t → t.compiledName path ≠ c
  · refine ⟨d, ?_, htext⟩
    rw [Store.find?_register_unpaired ho hp, if_neg hne, hd]
  · push Not at hp
    obtain ⟨t, hfind, rfl⟩ := hp
    have hfind' := Store.find?_register_alternate ho hfind (Ne.symm hne) text version
      (t.compiledName path)
    rw [if_pos rfl, hd] at hfind'
    exact ⟨_, hfind', (Store.paired_text d _).trans htext⟩

theorem Coded.move {c : String} (h : Coded c js o) (ho : o.store.Tidy)
    (m : Move r f jobs o js' o') : Coded c (js' ++ js) o' := by
  have hquiet : js' = [] → Coded c (js' ++ js) o' := by
    rintro rfl j output hlatest
    obtain ⟨d, hd, htext⟩ := h j output hlatest
    exact ⟨d, m.find?_of_some ho hd (by simp), htext⟩
  cases m with
  | @commit j d hjob hholds hd hlt =>
    intro i output hlatest
    rw [List.singleton_append] at hlatest
    have hfind := (committed_tidy ho hd j.run).2.2 c
    by_cases hj : j.compiled = c
    · subst hj
      rw [if_pos rfl] at hfind
      refine ⟨_, hfind, ?_⟩
      -- A failure leaves the text to the success before it.
      cases hrun : j.run with
      | ok out =>
        rw [latest?_cons_ok (by simp) hrun] at hlatest
        obtain ⟨-, rfl⟩ := Prod.mk.inj (Option.some.inj hlatest)
        rfl
      | error error =>
        rw [latest?_cons_error hrun] at hlatest
        obtain ⟨d', hd', htext⟩ := h i output hlatest
        obtain rfl := Option.some.inj (hd.symm.trans hd')
        exact htext
    · rw [latest?_cons_of_not (by simpa using hj)] at hlatest
      obtain ⟨d', hd', htext⟩ := h i output hlatest
      exact ⟨d', hfind.trans ((if_neg hj).trans hd'), htext⟩
  | _ => exact hquiet rfl

/-! ### Where jobs come from -/

/-- The job is one for a compiled path in some turn's registry, or its compiled document is there
and names the job's source as its own. -/
def Rooted (turns : List Turn) (o : Overlay) (j : Job) : Prop :=
  (∃ turn ∈ turns, j.Fits turn.registry) ∨
    ∃ d, o.store.find? j.compiled = some d ∧ d.source? = some j.source

theorem Rooted.later {turns : List Turn} {j : Job} (h : Rooted turns o j)
    (hext : o.store.Extends o'.store) : Rooted turns o' j := by
  rcases h with hfits | ⟨d, hd, hsource⟩
  · exact .inl hfits
  · obtain ⟨d', hd', hprecedes⟩ := hext j.compiled d hd
    exact .inr ⟨d', hd', hprecedes.source?.trans hsource⟩

end Overlay

namespace Session

open Overlay

variable {turn : Turn}

theorem keeps_recorded (turn : Turn) : Keeps turn fun _ => Recorded := by
  refine ⟨?_, fun _ _ _ _ _ _ h => h, fun _ _ _ _ _ _ m h => h.move m⟩
  intro jobs js o path text version _ _ h
  exact h.register turn.registry path text version

theorem keeps_coded {c : String}
    (hturn : ∀ path text version, turn.request = .register path text version → path ≠ c) :
    Keeps turn fun _ => Coded c := by
  refine ⟨?_, fun _ _ _ _ _ _ h => h, fun _ _ _ _ _ ho m h => h.move ho m⟩
  intro jobs js o path text version hrequest ho h
  exact h.register ho (hturn path text version hrequest) turn.registry text version

theorem keeps_rooted {turns : List Turn} (hturn : turn ∈ turns) :
    Keeps turn fun jobs js o => ∀ j ∈ jobs ++ js, Rooted turns o j := by
  refine ⟨?_, ?_, ?_⟩
  · intro jobs js o path text version _ ho h j hj
    apply (h j hj).later
    rw [register_store]
    exact (ho.register turn.registry path text version).2
  · intro jobs js o jobs' _ hdue h j hj
    simp only [List.mem_append] at hj
    rcases hj with (hj | hj) | hj
    · exact h j (List.mem_append_left _ hj)
    · obtain ⟨-, d, -, hd, hsource, -⟩ := hdue j hj
      exact .inr ⟨d, hd, hsource⟩
    · exact h j (List.mem_append_right _ hj)
  · intro jobs js o js' o' ho m h j hj
    have hold : ∀ j ∈ jobs ++ js, Rooted turns o' j := fun j hj => (h j hj).later (m.tidy ho).2
    cases m with
    | @commit i d hjob =>
      simp only [List.mem_append, List.mem_singleton] at hj
      rcases hj with hj | rfl | hj
      · exact hold j (List.mem_append_left _ hj)
      · rcases hjob with hjob | hcurrent
        · exact hold j (List.mem_append_left _ hjob)
        · exact .inl ⟨turn, hturn, hcurrent.fits⟩
      · exact hold j (List.mem_append_right _ hj)
    | _ => exact hold j hj

theorem run_rooted (project : Project) (turns : List Turn) {j : Job}
    (hj : j ∈ (run turns (opened project)).commits) :
    Rooted turns (run turns (opened project)).overlay j :=
  Keeps.run (motive := fun jobs js o => ∀ j ∈ jobs ++ js, Rooted turns o j)
    (fun _ hturn => keeps_rooted hturn) (steady_opened project) (by simp [opened]) j
    (List.mem_append_right _ hj)

/-- What was compiled from a source went to one path, if every turn's transpiler for the source
leads there. -/
theorem compiled_of_targets (project : Project) {turns : List Turn} {path c : String}
    (htarget : ∀ turn ∈ turns, ∀ t, turn.registry.find? (Name.extension path) = some t →
      t.compiledName path = c) {j : Job} (hj : j ∈ (run turns (opened project)).commits)
    (hsource : j.source = path) : j.compiled = c := by
  subst hsource
  rcases run_rooted project turns hj with ⟨turn, hturn, hfits⟩ | ⟨d, hd, hsource⟩
  · exact hfits.compiledName.symm.trans (htarget turn hturn _ hfits.find?)
  · obtain ⟨before, turn, after, t, rfl, -, -, hfind, hname⟩ := run_created project hd hsource
    exact hname.trans (htarget turn (by simp) t hfind)

/-- What was compiled into a path was compiled from the source that its name says, if its document
has no other source. -/
theorem source_of_document (project : Project) {turns : List Turn} {c : String}
    (hdocument : ∀ d source, (run turns (opened project)).overlay.store.find? c = some d →
      d.source? = some source → source = Name.withoutExtension c)
    {j : Job} (hj : j ∈ (run turns (opened project)).commits) (hc : j.compiled = c) :
    j.source = Name.withoutExtension c := by
  subst hc
  rcases run_rooted project turns hj with ⟨turn, -, hfits⟩ | ⟨d, hd, hsource⟩
  · exact hfits.source
  · exact hdocument d j.source hd hsource

/-- A position that is found is found by the latest success of the source. That success made the
text in which the position stands, provided that it went there and that the document has no other
source; and it did go there if no turn's transpiler leads the source elsewhere. -/
theorem position_by_latest (project : Project) (turns : List Turn) (r : Registry)
    {c path : String} {line column : Nat} {place : Nat × Nat}
    (hedits : ∀ e ∈ edits turns, e.path ≠ c)
    (h : (run turns (opened project)).overlay.sourcePosition? r c line column =
      some (path, place)) :
    let s := run turns (opened project)
    path = Name.withoutExtension c ∧
    ∃ j output, latest? (·.source == path) s.commits = some (j, output) ∧
      (j.provenance output).source? line column = some place ∧
      ((∀ turn ∈ turns, ∀ t, turn.registry.find? (Name.extension path) = some t →
        t.compiledName path = c) → j.compiled = c) ∧
      (j.compiled = c →
        (∀ d source, s.overlay.store.find? c = some d → d.source? = some source →
          source = path) →
        latest? (·.compiled == c) s.commits = some (j, output) ∧
          ∃ d, s.overlay.store.find? c = some d ∧ d.text = output.code) := by
  have hopened := steady_opened project
  have hrecorded : Recorded (run turns (opened project)).commits
      (run turns (opened project)).overlay :=
    Keeps.run (motive := fun _ => Recorded) (fun turn _ => keeps_recorded turn) hopened
      (fun _ => rfl)
  have hcoded : Coded c (run turns (opened project)).commits
      (run turns (opened project)).overlay :=
    Keeps.run (motive := fun _ => Coded c)
      (fun turn hturn => keeps_coded fun path text version hrequest =>
        hedits _ (mem_edits hturn hrequest)) hopened
      (fun _ _ hlatest => by simp [opened, latest?] at hlatest)
  obtain ⟨p, hp, rfl, hplace⟩ := record_of_sourcePosition? h
  rw [hrecorded] at hp
  obtain ⟨⟨j, output⟩, hlatest, rfl⟩ := Option.map_eq_some_iff.mp hp
  obtain ⟨hmem, hsource, hrun⟩ := mem_of_latest? hlatest
  have hpath : j.source = Name.withoutExtension c := by simpa using hsource
  rw [← hpath] at hlatest
  refine ⟨hpath, j, output, hlatest, hplace, fun htarget => ?_, fun hc hdocument => ?_⟩
  · exact compiled_of_targets project htarget hmem rfl
  · have hthere : latest? (·.compiled == c) (run turns (opened project)).commits =
        some (j, output) := by
      -- Every commit to the path was of this source, so the latest of the source is the latest there.
      apply latest?_of_imp hlatest (by simpa using hc)
      intro i hi hic
      rw [beq_iff_eq] at hic ⊢
      rw [source_of_document project (fun d source hd hsource =>
        (hdocument d source hd hsource).trans hpath) hi hic, ← hpath]
    exact ⟨hthere, hcoded j output hthere⟩

def mapping (target : String) (map : Option LineMap) : Registry :=
  .ofList [.make ".v" target { call := fun _ text => .done ⟨text, map⟩ }]

def eighth : LineMap := ⟨[[⟨0, 7, 0⟩]]⟩

def mappedTurns : List Turn :=
  [.register "/p/a.v" "one" 1, .serve "/p/a.v.ts"].map
    (Turn.mk (mapping ".ts" (some eighth)) (.ofRead fun _ => none))

theorem position_by_latest_mapping :
    let s := run mappedTurns (opened sample)
    s.overlay.sourcePosition? (mapping ".ts" (some eighth)) "/p/a.v.ts" 0 4 =
        some ("/p/a.v", 7, 4) ∧
      ∃ j output, latest? (·.source == "/p/a.v") s.commits = some (j, output) ∧
        latest? (·.compiled == "/p/a.v.ts") s.commits = some (j, output) := by
  have hfound : (run mappedTurns (opened sample)).overlay.sourcePosition?
      (mapping ".ts" (some eighth)) "/p/a.v.ts" 0 4 = some ("/p/a.v", 7, 4) := by decide +kernel
  have htarget : ((mapping ".ts" (some eighth)).find? (Name.extension "/p/a.v")).all
      (fun t => t.compiledName "/p/a.v" == "/p/a.v.ts") = true := by decide +kernel
  have hdocument : ((run mappedTurns (opened sample)).overlay.store.find? "/p/a.v.ts").all
      (fun d => d.source? == some "/p/a.v") = true := by decide +kernel
  obtain ⟨-, j, output, hlatest, -, hthere, htext⟩ :=
    position_by_latest sample mappedTurns _ (by decide +kernel) hfound
  have hc : j.compiled = "/p/a.v.ts" := by
    apply hthere
    intro turn hturn t ht
    have hregistry : turn.registry = mapping ".ts" (some eighth) := by
      obtain ⟨request, -, rfl⟩ := List.mem_map.mp hturn
      rfl
    rw [hregistry] at ht
    simpa [ht] using htarget
  refine ⟨hfound, j, output, hlatest, (htext hc ?_).1⟩
  intro d source hd hsource
  rw [hd] at hdocument
  simpa [hsource] using hdocument

/-- After a transpiler was replaced by one with another target, a position is found in a document
that was never compiled, and one in the first document is led back without its map. -/
theorem override_misplaces :
    let f := Files.ofRead fun _ => none
    let ts := mapping ".ts" (some eighth)
    let js := mapping ".js" none
    let before : List Turn := [⟨ts, f, .register "/p/a.v" "one" 1⟩, ⟨ts, f, .serve "/p/a.v.ts"⟩]
    let s := run (before ++ [⟨js, f, .register "/p/a.v" "two" 2⟩]) (opened sample)
    let s' := run (before ++ [⟨js, f, .serve "/p/a.v.js"⟩]) (opened sample)
    (s.overlay.sourcePosition? js "/p/a.v.js" 0 0 = some ("/p/a.v", 7, 0) ∧
      (latest? (·.compiled == "/p/a.v.js") s.commits).isNone = true) ∧
    s'.overlay.sourcePosition? ts "/p/a.v.ts" 0 0 = some ("/p/a.v", 0, 0) ∧
      (latest? (·.compiled == "/p/a.v.ts") s'.commits).map (·.2) = some ⟨"one", some eighth⟩ ∧
      (s'.overlay.store.find? "/p/a.v.ts").map (·.text) = some "one" := by
  refine ⟨⟨?_, ?_⟩, ?_, ?_, ?_⟩ <;> decide +kernel

end Session

end SourceOverlay
