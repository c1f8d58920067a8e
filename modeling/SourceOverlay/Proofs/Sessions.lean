import SourceOverlay.Project
import SourceOverlay.Proofs.Moves

/-!
# Sessions

A session is a project under requests. Each request comes with the registry and the backing store as
they are at that moment, so both may change from turn to turn. A refresh is two kinds of requests:
jobs are collected in one turn and settled in later ones, in any order and with anything in between,
and `run_refreshWith` says that a refresh as a whole is such a sequence. A session also notes the
jobs whose results were taken, the latest first; the project does not see these notes.

Every turn is either a registration or a sequence of moves, which is all that invariants need to
know about it.
-/

set_option autoImplicit false

namespace SourceOverlay

@[simp] theorem Project.register_overlay (r : Registry) (p : Project) (path text : String)
    (version : Version) :
    (p.register r path text version).2.overlay = (p.overlay.register r path text version).2 := by
  simp only [Project.register]

@[simp] theorem Project.serve_overlay (r : Registry) (f : Files) (p : Project) (path : String) :
    (p.serve r f path).2.overlay = (p.overlay.serve r f path).2 := by
  simp only [Project.serve]

inductive Request where
  | register (path text : String) (version : Version)
  | serve (path : String)
  | collect
  | settle (number : Nat)
  | version (path : String)
  | provenance (source : String)
  | position (path : String) (line column : Nat)
  | resolve (importer : String) (names : List String)
  | forget (path : String)
  | forgetAll
  deriving Repr, DecidableEq

inductive Answer where
  | registered (registration : Registration)
  | snapshot (text : String) (version : Version)
  | collected (jobs : Nat)
  | settled (taken : Bool)
  | version (text : String)
  | provenance (found : Option Provenance)
  | position (found : Option (String × Nat × Nat))
  | modules (found : List (Option Import.Module))
  | forgotten
  deriving Repr, DecidableEq

structure Turn where
  registry : Registry
  files : Files
  request : Request

structure Edit where
  path : String
  text : String
  version : Version
  deriving Repr, DecidableEq

def Request.edit? : Request → Option Edit
  | .register path text v => some ⟨path, text, v⟩
  | _ => none

def edits (turns : List Turn) : List Edit := turns.filterMap (·.request.edit?)

theorem mem_edits {turns : List Turn} {turn : Turn} {path text : String} {version : Version}
    (hturn : turn ∈ turns) (h : turn.request = .register path text version) :
    ⟨path, text, version⟩ ∈ edits turns :=
  List.mem_filterMap.mpr ⟨turn, hturn, by rw [h]; rfl⟩

structure Session where
  project : Project
  /-- The jobs that were collected, the oldest first. -/
  jobs : List Job := []
  /-- The jobs whose results were taken, the latest first. -/
  commits : List Job := []

namespace Session

def overlay (s : Session) : Overlay := s.project.overlay

def withOverlay (s : Session) (overlay : Overlay) : Session :=
  { s with project := { s.project with overlay } }

def sample : Project where
  settings := ⟨"/p", none, "/p", {}, [], "/p/plugins"⟩
  resolver := Import.native
  memo := { root := "/p" }

def opened (project : Project) : Session := { project := { project with overlay := {} } }

def step (turn : Turn) (s : Session) : Answer × Session :=
  match turn.request with
  | .register path text version =>
    let (registration, project) := s.project.register turn.registry path text version
    (.registered registration, { s with project })
  | .serve path =>
    let (snapshot, project) := s.project.serve turn.registry turn.files path
    (.snapshot snapshot.text snapshot.version,
      { s with project, commits := s.overlay.taken project.overlay ++ s.commits })
  | .collect =>
    let (jobs, o) := s.overlay.collect turn.registry turn.files
    (.collected jobs.length, { s.withOverlay (o.call jobs) with jobs := s.jobs ++ jobs })
  | .settle number =>
    match s.jobs[number]? with
    | none => (.settled false, s)
    | some j =>
      let (taken, o) := s.overlay.settle j j.run
      (.settled taken,
        { s.withOverlay o with commits := if taken then j :: s.commits else s.commits })
  | .version path => (.version (s.overlay.versionText path), s)
  | .provenance source => (.provenance (s.overlay.records.find? source), s)
  | .position path line column =>
    (.position (s.overlay.sourcePosition? turn.registry path line column), s)
  | .resolve importer names =>
    let (found, project) := s.project.resolveAll turn.registry turn.files importer names
    (.modules found, { s with project })
  | .forget path =>
    (.forgotten, s.withOverlay { s.overlay with cache := s.overlay.cache.drop path })
  | .forgetAll => (.forgotten, s.withOverlay { s.overlay with cache := {} })

def run : List Turn → Session → Session
  | [], s => s
  | turn :: turns, s => run turns (step turn s).2

def answers : List Turn → Session → List Answer
  | [], _ => []
  | turn :: turns, s => (step turn s).1 :: answers turns (step turn s).2

theorem run_append (turns rest : List Turn) (s : Session) :
    run (turns ++ rest) s = run rest (run turns s) := by
  induction turns generalizing s with
  | nil => rfl
  | cons turn turns ih => exact ih _

/-- What every turn of a run keeps is kept by the run. -/
theorem run_keep {motive : Session → Prop} {turns : List Turn} {s : Session}
    (hstep : ∀ turn ∈ turns, ∀ s, motive s → motive (step turn s).2) (hs : motive s) :
    motive (run turns s) := by
  induction turns generalizing s with
  | nil => exact hs
  | cons turn turns ih =>
    exact ih (fun t ht => hstep t (List.mem_cons_of_mem _ ht)) (hstep turn List.mem_cons_self s hs)

/-! ### Turns as moves -/

/-- The documents are tidy, and every collected job has its document. -/
structure Steady (s : Session) : Prop where
  tidy : s.overlay.store.Tidy
  reserved : ∀ j ∈ s.jobs, (s.overlay.store.find? j.compiled).isSome = true

theorem steady_opened (project : Project) : (opened project).Steady :=
  ⟨Store.tidy_empty, by simp [opened]⟩

/-- A property of collected jobs, taken jobs and overlay that a turn keeps, whatever kind of turn it
is. -/
structure Keeps (turn : Turn) (motive : List Job → List Job → Overlay → Prop) : Prop where
  register : ∀ jobs js o path text version, turn.request = .register path text version →
    o.store.Tidy → motive jobs js o →
    motive jobs js (o.register turn.registry path text version).2
  collect : ∀ jobs js o jobs', o.store.Tidy → (∀ j ∈ jobs', o.Due turn.registry j) →
    motive jobs js o → motive (jobs ++ jobs') js o
  move : ∀ jobs js o js' o', o.store.Tidy →
    Overlay.Move turn.registry turn.files jobs o js' o' → motive jobs js o →
    motive jobs (js' ++ js) o'

theorem Keeps.moves {turn : Turn} {motive : List Job → List Job → Overlay → Prop}
    (hkeep : Keeps turn motive) {jobs js taken : List Job} {o o' : Overlay} (ho : o.store.Tidy)
    (h : Overlay.Moves turn.registry turn.files jobs o taken o') (hbase : motive jobs js o) :
    motive jobs (taken ++ js) o' :=
  h.keep ho (fun js js' o o' ho m => hkeep.move jobs js o js' o' ho m) hbase

theorem Keeps.step {turn : Turn} {motive : List Job → List Job → Overlay → Prop}
    (hkeep : Keeps turn motive) {s : Session} (hs : s.Steady)
    (h : motive s.jobs s.commits s.overlay) :
    motive (step turn s).2.jobs (step turn s).2.commits (step turn s).2.overlay := by
  obtain ⟨r, f, request⟩ := turn
  cases request with
  | register path text version =>
    simp only [Session.step, overlay, Project.register_overlay]
    exact hkeep.register _ _ _ path text version rfl hs.tidy h
  | serve path =>
    simp only [Session.step, overlay, Project.serve_overlay]
    exact hkeep.moves hs.tidy (Overlay.serve_moves hs.tidy path) h
  | collect =>
    obtain ⟨hstay, hdue⟩ := Overlay.collect_eq (r := r) (f := f) hs.tidy
    have hjobs := hkeep.collect _ _ _ _ hs.tidy (fun j hj => (hdue j).mp hj) h
    simp only [Session.step, hstay]
    exact hkeep.move _ _ _ _ _ hs.tidy (.count _ _ _ (s.overlay.calls ++ _)) hjobs
  | settle number =>
    simp only [Session.step]
    split
    · exact h
    · next j hj =>
      have hmem : j ∈ s.jobs := List.mem_of_getElem? hj
      obtain ⟨d, hd⟩ := Option.isSome_iff_exists.mp (hs.reserved j hmem)
      obtain ⟨hholds, hlt, heq⟩ | ⟨-, heq⟩ := Overlay.settle_cases hd j.run
      · simp only [heq, if_true]
        exact hkeep.move _ _ _ _ _ hs.tidy (.commit (.inl hmem) hholds hd hlt) h
      · simp only [heq, Bool.false_eq_true, if_false]
        exact h
  | version | provenance | position | resolve => exact h
  | forget path =>
    refine hkeep.move _ _ _ [] _ hs.tidy (.forget fun p e he => ?_) h
    rw [SnapshotCache.kept?_drop] at he
    split at he
    · simp at he
    · exact he
  | forgetAll =>
    refine hkeep.move _ _ _ [] _ hs.tidy (.forget fun p e he => ?_) h
    simp [SnapshotCache.kept?] at he

theorem keeps_steady (turn : Turn) :
    Keeps turn fun jobs _ o => o.store.Tidy ∧ ∀ j ∈ jobs, (o.store.find? j.compiled).isSome := by
  refine ⟨?_, ?_, ?_⟩
  · intro jobs js o path text version _ ho h
    obtain ⟨htidy, hext⟩ := ho.register turn.registry path text version
    rw [Overlay.register_store]
    exact ⟨htidy, fun j hj => hext.isSome (h.2 j hj)⟩
  · intro jobs js o jobs' ho hdue h
    refine ⟨ho, fun j hj => ?_⟩
    rcases List.mem_append.mp hj with hj | hj
    · exact h.2 j hj
    · obtain ⟨-, d, -, hd, -⟩ := hdue j hj
      simp [hd]
  · intro jobs js o js' o' ho m h
    obtain ⟨htidy, hext⟩ := m.tidy ho
    exact ⟨htidy, fun j hj => hext.isSome (h.2 j hj)⟩

theorem Steady.step {s : Session} (hs : s.Steady) (turn : Turn) : (step turn s).2.Steady :=
  have h := (keeps_steady turn).step hs ⟨hs.tidy, hs.reserved⟩
  ⟨h.1, h.2⟩

theorem Steady.run {s : Session} (hs : s.Steady) (turns : List Turn) : (run turns s).Steady :=
  run_keep (fun turn _ _ h => h.step turn) hs

theorem Keeps.run {motive : List Job → List Job → Overlay → Prop} {turns : List Turn} {s : Session}
    (hkeep : ∀ turn ∈ turns, Keeps turn motive) (hs : s.Steady)
    (h : motive s.jobs s.commits s.overlay) :
    motive (run turns s).jobs (run turns s).commits (run turns s).overlay :=
  (run_keep (motive := fun s => s.Steady ∧ motive s.jobs s.commits s.overlay)
    (fun turn hturn _ h => ⟨h.1.step turn, (hkeep turn hturn).step h.1 h.2⟩) ⟨hs, h⟩).2

theorem keeps_counted (turn : Turn) : Keeps turn fun _ js o => js.length = o.stats.compiles := by
  refine ⟨?_, fun _ _ _ _ _ _ h => h, ?_⟩
  · intro jobs js o path text version _ _ h
    simpa only [Overlay.register] using h
  · intro jobs js o js' o' _ m h
    cases m with
    | commit => simp [h]
    | _ => exact h

/-- The notes of a session are complete: there is one for every compile that the project counts. -/
theorem length_commits (project : Project) (turns : List Turn) :
    (run turns (opened project)).commits.length =
      (run turns (opened project)).overlay.stats.compiles :=
  Keeps.run (motive := fun _ js o => js.length = o.stats.compiles)
    (fun turn _ => keeps_counted turn) (steady_opened project) rfl

/-! ### Refreshes -/

theorem step_jobs (turn : Turn) (s : Session) : s.jobs <+: (step turn s).2.jobs := by
  obtain ⟨r, f, request⟩ := turn
  cases request with
  | collect => exact List.prefix_append _ _
  | settle number =>
    simp only [step]
    split <;> exact List.prefix_rfl
  | _ =>
    simp only [step]
    exact List.prefix_rfl

theorem run_jobs (turns : List Turn) (s : Session) : s.jobs <+: (run turns s).jobs := by
  induction turns generalizing s with
  | nil => exact List.prefix_rfl
  | cons turn turns ih => exact (step_jobs turn s).trans (ih _)

def settles (r : Registry) (f : Files) (first count : Nat) : List Turn :=
  (List.range' first count).map fun number => ⟨r, f, .settle number⟩

theorem step_settle {s : Session} {number : Nat} {j : Job} (h : s.jobs[number]? = some j)
    (r : Registry) (f : Files) :
    (step ⟨r, f, .settle number⟩ s).2.overlay = (s.overlay.settle j j.run).2 ∧
      (step ⟨r, f, .settle number⟩ s).2.jobs = s.jobs := by
  simp [step, h, withOverlay, overlay]

theorem run_settles (r : Registry) (f : Files) (jobs : List Job) (first : Nat) (s : Session)
    (h : jobs <+: s.jobs.drop first) (counts : Overlay.Refreshed) :
    (run (settles r f first jobs.length) s).overlay =
      (Overlay.settleAll (jobs.map fun j => (j, j.run)) (counts, s.overlay)).2 := by
  induction jobs generalizing first s counts with
  | nil => rfl
  | cons j jobs ih =>
    obtain ⟨rest, hrest⟩ := h
    have hj : s.jobs[first]? = some j := by
      have hhead := congrArg (·[0]?) hrest
      simpa using hhead.symm
    obtain ⟨hoverlay, hjobs⟩ := step_settle hj r f
    have hdrop : jobs <+: (step ⟨r, f, .settle first⟩ s).2.jobs.drop (first + 1) := by
      rw [hjobs, ← List.drop_drop, ← hrest]
      exact List.prefix_append jobs rest
    have hrun := ih (first + 1) _ hdrop
      (counts.count (s.overlay.settle j j.run).1 j.run.toBool)
    rw [hoverlay] at hrun
    exact hrun

/-- A refresh is the collection of its jobs, what takes place between, and their settlement. -/
theorem run_refreshWith {α : Type} {s : Session} (r : Registry) (f : Files)
    (hjobs : (s.overlay.collect r f).1 ≠ []) (turns : List Turn) (idle : α)
    (between : Overlay → α × Overlay)
    (hbetween : (between (step ⟨r, f, .collect⟩ s).2.overlay).2 =
      (run turns (step ⟨r, f, .collect⟩ s).2).overlay) :
    (s.overlay.refreshWith r f idle between).2.2 =
      (run (⟨r, f, .collect⟩ ::
        turns ++ settles r f s.jobs.length (s.overlay.collect r f).1.length) s).overlay := by
  obtain ⟨rest, hrest⟩ := run_jobs turns (step ⟨r, f, .collect⟩ s).2
  have hjobs' : (step ⟨r, f, .collect⟩ s).2.jobs = s.jobs ++ (s.overlay.collect r f).1 := rfl
  have hdrop : (s.overlay.collect r f).1 <+:
      (run turns (step ⟨r, f, .collect⟩ s).2).jobs.drop s.jobs.length := by
    rw [← hrest, hjobs', List.append_assoc, List.drop_left]
    exact List.prefix_append _ rest
  rw [run_append]
  rw [show run (⟨r, f, .collect⟩ :: turns) s = run turns (step ⟨r, f, .collect⟩ s).2 from rfl,
    run_settles r f _ _ _ hdrop {}, ← hbetween]
  simp only [Overlay.refreshWith, List.isEmpty_iff, if_neg hjobs]
  rfl

end Session

end SourceOverlay
