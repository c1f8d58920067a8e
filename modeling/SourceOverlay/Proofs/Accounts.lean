import SourceOverlay.Proofs.Caching
import SourceOverlay.Proofs.Positions

/-!
# Accounts

The result of a job is offered to an overlay once it is there, by the call that serves its path or
by a refresh. An offer that is taken is entered in the accounts: it counts as a compile, and either
as a failure that is reported or as a success that is put on record. One that is refused leaves the
accounts as they were, and nothing but an offer changes them. So the accounts at any moment of any
session follow from the offers up to then.

Snapshots are counted apart from that. Each call that serves one is a hit or a miss, unless it is
for a compiled path that has no source.
-/

set_option autoImplicit false

namespace SourceOverlay

def Job.failure? (j : Job) : Option Failure :=
  match j.run with
  | .ok _ => none
  | .error error => some ⟨j.source, j.compiled, j.transpiler.extension, j.version, error, none⟩

def Job.provenance? (j : Job) : Option Provenance :=
  match j.run with
  | .ok output => some (j.provenance output)
  | .error _ => none

theorem Job.outcome_of_ok {j : Job} {output : Output} (h : j.run = .ok output) :
    j.failure? = none ∧ j.provenance? = some (j.provenance output) := by
  simp [failure?, provenance?, h]

theorem Job.outcome_of_error {j : Job} {error : CompileError} (h : j.run = .error error) :
    j.failure? = some ⟨j.source, j.compiled, j.transpiler.extension, j.version, error, none⟩ ∧
      j.provenance? = none := by
  simp [failure?, provenance?, h]

namespace Overlay

/-! ### Entries -/

structure Accounts where
  compiles : Nat
  failures : Nat
  reports : List Failure
  records : Records

def accounts (o : Overlay) : Accounts :=
  ⟨o.stats.compiles, o.stats.failures, o.reports, o.records⟩

def Accounts.enter (a : Accounts) (j : Job) : Accounts where
  compiles := a.compiles + 1
  failures := a.failures + j.failure?.toList.length
  reports := a.reports ++ j.failure?.toList
  records := j.provenance?.toList.foldl .note a.records

theorem Accounts.foldl_enter (a : Accounts) (js : List Job) :
    js.foldl enter a =
      { compiles := a.compiles + js.length
        failures := a.failures + (js.filterMap (·.failure?)).length
        reports := a.reports ++ js.filterMap (·.failure?)
        records := (js.filterMap (·.provenance?)).foldl .note a.records } := by
  induction js generalizing a with
  | nil => simp
  | cons j js ih =>
    rw [List.foldl_cons, ih, enter]
    cases hfailure : j.failure? <;> cases hprovenance : j.provenance? <;>
      simp [hfailure, hprovenance] <;> omega

theorem entered {o o' : Overlay} {js : List Job} (h : o'.accounts = js.foldl .enter o.accounts) :
    o'.stats.compiles = o.stats.compiles + js.length ∧
      o'.stats.failures = o.stats.failures + (js.filterMap (·.failure?)).length ∧
      o'.reports = o.reports ++ js.filterMap (·.failure?) ∧
      o'.records = (js.filterMap (·.provenance?)).foldl .note o.records := by
  rw [Accounts.foldl_enter] at h
  exact Accounts.mk.inj h

theorem length_outcomes (js : List Job) :
    (js.filterMap (·.failure?)).length + (js.filterMap (·.provenance?)).length = js.length := by
  induction js with
  | nil => rfl
  | cons j js ih =>
    cases hrun : j.run with
    | ok output =>
      obtain ⟨hfailure, hprovenance⟩ := Job.outcome_of_ok hrun
      simp [hfailure, hprovenance]
      omega
    | error error =>
      obtain ⟨hfailure, hprovenance⟩ := Job.outcome_of_error hrun
      simp [hfailure, hprovenance]
      omega

/-! ### Offers -/

structure Offer where
  overlay : Overlay
  job : Job

namespace Offer

def isTaken (x : Offer) : Bool := (x.overlay.settle x.job x.job.run).1

def after (x : Offer) : Overlay := (x.overlay.settle x.job x.job.run).2

def taken (xs : List Offer) : List Job := (xs.filter (·.isTaken)).map (·.job)

theorem taken_append (xs ys : List Offer) : taken (xs ++ ys) = taken xs ++ taken ys := by
  simp [taken]

theorem taken_singleton (x : Offer) : taken [x] = if x.isTaken then [x.job] else [] := by
  cases h : x.isTaken <;> simp [taken, h]

end Offer

theorem committed_accounts (o : Overlay) (j : Job) (d : Document) :
    (o.committed j d j.run).accounts = o.accounts.enter j := by
  unfold Accounts.enter
  cases hrun : j.run with
  | ok output =>
    obtain ⟨hfailure, hprovenance⟩ := Job.outcome_of_ok hrun
    simp [hfailure, hprovenance, committed, accept, accounts, Job.provenance]
  | error error =>
    obtain ⟨hfailure, hprovenance⟩ := Job.outcome_of_error hrun
    simp [hfailure, hprovenance, committed, decline, accounts]

/-- Settling a job changes no more than documents, or commits the job after that. -/
theorem settle_inv (o : Overlay) (j : Job) (result : Result) :
    (∃ store, o.settle j result = (false, { o with store })) ∨
      ∃ store d, o.settle j result = (true, { o with store }.committed j d result) := by
  rw [settle_eq]
  split
  · exact .inl ⟨o.store, rfl⟩
  · split
    · exact .inl ⟨_, rfl⟩
    · exact .inr ⟨_, _, rfl⟩

/-- An offer that is refused changes neither the counts nor the reports nor the records. -/
theorem settle_refused {o : Overlay} {j : Job} {result : Result}
    (h : (o.settle j result).1 = false) :
    (o.settle j result).2.stats = o.stats ∧ (o.settle j result).2.reports = o.reports ∧
      (o.settle j result).2.records = o.records := by
  obtain ⟨store, heq⟩ | ⟨store, d, heq⟩ := settle_inv o j result
  · rw [heq]
    exact ⟨rfl, rfl, rfl⟩
  · rw [heq] at h
    cases h

theorem settle_accounts (x : Offer) :
    x.after.accounts = (Offer.taken [x]).foldl .enter x.overlay.accounts := by
  rw [Offer.taken_singleton, Offer.isTaken, Offer.after]
  obtain ⟨store, heq⟩ | ⟨store, d, heq⟩ := settle_inv x.overlay x.job x.job.run
  · rw [heq]
    rfl
  · rw [heq]
    exact committed_accounts _ _ _

theorem register_accounts (r : Registry) (o : Overlay) (path text : String) (version : Version) :
    (o.register r path text version).2.accounts = o.accounts := by
  simp only [register, accounts]

def offers (r : Registry) (f : Files) (o : Overlay) (path : String) : List Offer :=
  match r.owner? path with
  | none => []
  | some t =>
    match o.sourceText f (Name.withoutExtension path) with
    | (none, _) => []
    | (some (buffer, version), o) =>
      let j : Job := ⟨t, Name.withoutExtension path, path, buffer, version⟩
      match o.cache.findFor? path version with
      | some _ => []
      | none =>
        if (o.store.reserve path j.source).1.version < version then [⟨(o.missed j).call [j], j⟩]
        else []

theorem sourceText_accounts (f : Files) (o : Overlay) (source : String) :
    (o.sourceText f source).2.accounts = o.accounts ∧
      (o.sourceText f source).2.stats = o.stats := by
  unfold sourceText
  split
  · exact ⟨rfl, rfl⟩
  · split <;> exact ⟨rfl, rfl⟩

theorem serveFile_accounts (f : Files) (o : Overlay) (path : String) :
    (o.serveFile f path).2.accounts = o.accounts := by
  unfold serveFile
  simp only
  split
  · rfl
  · split <;> rfl

theorem serveStale_accounts (o : Overlay) (j : Job) :
    (o.serveStale j).2.accounts =
      (Offer.taken (if (o.store.reserve j.compiled j.source).1.version < j.version then
        [⟨(o.missed j).call [j], j⟩] else [])).foldl .enter o.accounts := by
  have hstale : (o.serveStale j).2.accounts =
      ((o.missed j).bringUp j (o.store.reserve j.compiled j.source).1).accounts := rfl
  rw [hstale, bringUp]
  split
  · exact settle_accounts ⟨(o.missed j).call [j], j⟩
  · rfl

theorem serve_accounts (r : Registry) (f : Files) (o : Overlay) (path : String) :
    (o.serve r f path).2.accounts =
      (Offer.taken (o.offers r f path)).foldl .enter o.accounts := by
  unfold serve offers
  cases r.owner? path with
  | none =>
    simp only [serveNative_eq]
    split
    · rfl
    · exact serveFile_accounts f o path
  | some t =>
    simp only [serveCompiled_eq]
    obtain ⟨hsource, -⟩ := sourceText_accounts f o (Name.withoutExtension path)
    generalize o.sourceText f (Name.withoutExtension path) = found at hsource
    rw [← hsource]
    obtain ⟨_ | ⟨buffer, version⟩, o₁⟩ := found
    · rfl
    · simp only [serveFound]
      cases o₁.cache.findFor? path version with
      | some s => rfl
      | none => exact serveStale_accounts _ _

/-! ### Hits and misses -/

def served (o : Overlay) : Nat := o.stats.hits + o.stats.misses

/-- The path is a compiled one, and its source is neither a document nor in the backing store. -/
def lacksSource (r : Registry) (f : Files) (o : Overlay) (path : String) : Bool :=
  (r.owner? path).isSome && (o.store.find? (Name.withoutExtension path)).isNone &&
    (f.read? (Name.withoutExtension path)).isNone

theorem sourceText_isNone (f : Files) (o : Overlay) (source : String) :
    (o.sourceText f source).1.isNone =
      ((o.store.find? source).isNone && (f.read? source).isNone) := by
  unfold sourceText
  cases o.store.find? source with
  | some d => rfl
  | none => cases f.read? source <;> rfl

theorem register_served (r : Registry) (o : Overlay) (path text : String) (version : Version) :
    (o.register r path text version).2.served = o.served := by
  simp only [register, served]

theorem settle_served (o : Overlay) (j : Job) (result : Result) :
    (o.settle j result).2.served = o.served := by
  obtain ⟨store, heq⟩ | ⟨store, d, heq⟩ := settle_inv o j result
  · rw [heq]
    rfl
  · rw [heq]
    cases result <;> rfl

theorem serveNative_served (f : Files) (o : Overlay) (path : String) :
    (o.serveNative f path).2.served = o.served + 1 := by
  rw [serveNative_eq]
  split
  · simp only [served, countHit]
    omega
  · unfold serveFile
    simp only
    split
    · rfl
    · split <;> rfl

theorem serveStale_served (o : Overlay) (j : Job) : (o.serveStale j).2.served = o.served + 1 := by
  have hstale : (o.serveStale j).2.served =
      ((o.missed j).bringUp j (o.store.reserve j.compiled j.source).1).served := rfl
  rw [hstale, bringUp]
  split
  · rw [settle_served]
    rfl
  · rfl

theorem serve_served (r : Registry) (f : Files) (o : Overlay) (path : String) :
    (o.serve r f path).2.served + (o.lacksSource r f path).toNat = o.served + 1 := by
  unfold serve lacksSource
  cases r.owner? path with
  | none => exact serveNative_served f o path
  | some t =>
    simp only [serveCompiled_eq, Option.isSome_some, Bool.true_and, ← sourceText_isNone]
    obtain ⟨-, hstats⟩ := sourceText_accounts f o (Name.withoutExtension path)
    generalize o.sourceText f (Name.withoutExtension path) = found at hstats
    rw [served, served, ← hstats]
    match found with
    | (none, _) => rfl
    | (some (buffer, version), o₁) =>
      simp only [serveFound]
      cases o₁.cache.findFor? path version with
      | some s =>
        simp only [countHit, Option.isNone_some, Bool.toNat_false]
        omega
      | none => exact serveStale_served _ _

/-! ### Refreshes -/

/-- What a refresh reports of its jobs, of which the results of some were taken. -/
structure Refreshed.Reports (report : Refreshed) (jobs taken : List Job) : Prop where
  sublist : taken.Sublist jobs
  compiled : report.compiled = (taken.filterMap (·.provenance?)).length
  failed : report.failed = (taken.filterMap (·.failure?)).length
  superseded : report.superseded + taken.length = jobs.length

theorem Refreshed.Reports.sum {report : Refreshed} {jobs taken : List Job}
    (h : report.Reports jobs taken) :
    report.compiled + report.failed + report.superseded = jobs.length := by
  have houtcomes := length_outcomes taken
  rw [h.compiled, h.failed, ← h.superseded]
  omega

theorem Refreshed.Reports.concat {report : Refreshed} {jobs taken : List Job}
    (h : report.Reports jobs taken) (x : Offer) :
    (report.count x.isTaken x.job.run.toBool).Reports (jobs ++ [x.job])
      (taken ++ Offer.taken [x]) := by
  rw [Offer.taken_singleton]
  obtain ⟨hsublist, hcompiled, hfailed, hsuperseded⟩ := h
  cases x.isTaken with
  | false =>
    refine ⟨hsublist.append (List.nil_sublist _), ?_, ?_, ?_⟩ <;> simp [count] <;> omega
  | true =>
    cases hrun : x.job.run with
    | ok output =>
      obtain ⟨hfailure, hprovenance⟩ := Job.outcome_of_ok hrun
      refine ⟨hsublist.append (.refl _), ?_, ?_, ?_⟩ <;>
        simp [count, Except.toBool, hfailure, hprovenance] <;> omega
    | error error =>
      obtain ⟨hfailure, hprovenance⟩ := Job.outcome_of_error hrun
      refine ⟨hsublist.append (.refl _), ?_, ?_, ?_⟩ <;>
        simp [count, Except.toBool, hfailure, hprovenance] <;> omega

theorem settleAll_reports {report : Refreshed} {jobs taken : List Job} (js : List Job)
    (h : report.Reports jobs taken) (o : Overlay) :
    ∃ taken', (settleAll (js.map fun j => (j, j.run)) (report, o)).1.Reports (jobs ++ js)
        (taken ++ taken') ∧
      (settleAll (js.map fun j => (j, j.run)) (report, o)).2.accounts =
        taken'.foldl .enter o.accounts := by
  induction js generalizing report jobs taken o with
  | nil => exact ⟨[], by simpa [settleAll] using h, rfl⟩
  | cons j js ih =>
    have hx := h.concat ⟨o, j⟩
    obtain ⟨taken', hreports, haccounts⟩ := ih hx (Offer.after ⟨o, j⟩)
    rw [settle_accounts] at haccounts
    refine ⟨Offer.taken [⟨o, j⟩] ++ taken', ?_, ?_⟩
    · rw [List.append_assoc, List.append_assoc] at hreports
      exact hreports
    · rw [List.foldl_append]
      exact haccounts

theorem refreshWith_reports {α : Type} (r : Registry) (f : Files) (idle : α)
    (between : Overlay → α × Overlay) (o : Overlay) :
    let jobs := (o.collect r f).1
    let refreshed := o.refreshWith r f idle between
    ∃ taken, refreshed.1.Reports jobs taken ∧
      (jobs ≠ [] → refreshed.2.2.accounts =
        taken.foldl .enter (between ((o.collect r f).2.call jobs)).2.accounts) := by
  intro jobs refreshed
  by_cases hjobs : jobs = []
  · have hidle : refreshed.1 = {} := by
      simp only [refreshed, refreshWith]
      rw [if_pos (List.isEmpty_iff.mpr hjobs)]
    refine ⟨[], ?_, fun h => absurd hjobs h⟩
    rw [hidle, hjobs]
    exact ⟨.refl _, rfl, rfl, rfl⟩
  · obtain ⟨taken, hreports, haccounts⟩ := settleAll_reports jobs
      (⟨.refl _, rfl, rfl, rfl⟩ : Refreshed.Reports {} [] [])
      (between ((o.collect r f).2.call jobs)).2
    refine ⟨taken, ?_, fun _ => ?_⟩
    · simp only [refreshed, refreshWith, List.isEmpty_iff]
      rw [if_neg hjobs]
      exact hreports
    · simp only [refreshed, refreshWith, List.isEmpty_iff]
      rw [if_neg hjobs]
      exact haccounts

end Overlay

/-! ### Sessions -/

def Request.isServe : Request → Bool
  | .serve _ => true
  | _ => false

namespace Session

open Overlay (Offer)

def trace {α : Type} (entries : Turn → Session → List α) : List Turn → Session → List α
  | [], _ => []
  | turn :: turns, s => entries turn s ++ trace entries turns (step turn s).2

def offers (turn : Turn) (s : Session) : List Offer :=
  match turn.request with
  | .serve path => s.overlay.offers turn.registry turn.files path
  | .settle number => (s.jobs[number]?).toList.map fun j => ⟨s.overlay, j⟩
  | _ => []

def unserved (turn : Turn) (s : Session) : List String :=
  match turn.request with
  | .serve path => [path].filter (s.overlay.lacksSource turn.registry turn.files)
  | _ => []

theorem step_accounts {s : Session} (hs : s.Steady) (turn : Turn) :
    (step turn s).2.overlay.accounts =
      (Offer.taken (offers turn s)).foldl .enter s.overlay.accounts := by
  obtain ⟨r, f, request⟩ := turn
  cases request with
  | register path text version =>
    simp only [step, overlay, Project.register_overlay]
    exact Overlay.register_accounts r _ path text version
  | serve path =>
    simp only [step, overlay, Project.serve_overlay]
    exact Overlay.serve_accounts r f _ path
  | collect =>
    simp only [step, (Overlay.collect_eq (r := r) (f := f) hs.tidy).1]
    rfl
  | settle number =>
    simp only [step, offers]
    cases s.jobs[number]? with
    | none => rfl
    | some j => exact Overlay.settle_accounts ⟨s.overlay, j⟩
  | version | provenance | position | resolve | forget | forgetAll => rfl

theorem step_served {s : Session} (hs : s.Steady) (turn : Turn) :
    (step turn s).2.overlay.served + (unserved turn s).length =
      s.overlay.served + turn.request.isServe.toNat := by
  obtain ⟨r, f, request⟩ := turn
  cases request with
  | register path text version =>
    simp only [step, overlay, Project.register_overlay, Overlay.register_served, unserved,
      Request.isServe]
    rfl
  | serve path =>
    have hserved := Overlay.serve_served r f s.overlay path
    have hlength : ([path].filter (s.overlay.lacksSource r f)).length =
        (s.overlay.lacksSource r f path).toNat := by
      cases hlacks : s.overlay.lacksSource r f path <;> simp [hlacks]
    rw [← hlength] at hserved
    simp only [step, overlay, Project.serve_overlay]
    exact hserved
  | collect =>
    simp only [step, (Overlay.collect_eq (r := r) (f := f) hs.tidy).1]
    rfl
  | settle number =>
    simp only [step]
    cases s.jobs[number]? with
    | none => rfl
    | some j => exact Overlay.settle_served s.overlay j j.run
  | version | provenance | position | resolve | forget | forgetAll => rfl

theorem run_accounts {s : Session} (hs : s.Steady) (turns : List Turn) :
    (run turns s).overlay.accounts =
      (Offer.taken (trace offers turns s)).foldl .enter s.overlay.accounts := by
  induction turns generalizing s with
  | nil => rfl
  | cons turn turns ih =>
    rw [run, ih (hs.step turn), step_accounts hs, trace, Overlay.Offer.taken_append,
      List.foldl_append]

theorem run_served {s : Session} (hs : s.Steady) (turns : List Turn) :
    (run turns s).overlay.served + (trace unserved turns s).length =
      s.overlay.served + turns.countP (·.request.isServe) := by
  induction turns generalizing s with
  | nil => rfl
  | cons turn turns ih =>
    have hstep := step_served hs turn
    have hrun := ih (hs.step turn)
    rw [run, trace, List.length_append, List.countP_cons]
    cases hserve : turn.request.isServe <;> simp [hserve] at hstep ⊢ <;> omega

theorem keeps_registrations (turn : Turn) :
    Keeps turn fun _ _ o => o.stats.registrations = o.store.projectVersion := by
  refine ⟨?_, fun _ _ _ _ _ _ h => h, ?_⟩
  · intro jobs js o path text version _ _ h
    have hbooks := Store.books_register o.store turn.registry path text version
    rw [Overlay.register_store, (Prod.mk.inj hbooks).2, ← h]
    simp only [Overlay.register]
  · intro jobs js o js' o' _ m h
    rw [(Prod.mk.inj m.books).2, ← h]
    cases m with
    | @commit j d => cases j.run <;> rfl
    | _ => rfl

/-- The counts of a project balance after every run, whatever takes place while jobs are compiled.
There is one registration for each step of the project's version, and one report for each failure.
The compiles are the results that were taken; the failures among them are the reports, in order, and
the others are what the records were made of. Every call that serves a snapshot was a hit or a miss
unless it was for a compiled path without a source. A refresh accounts for each of its jobs, and one
that was superseded is neither counted nor reported. -/
theorem accounts_balance (project : Project) (turns : List Turn) :
    let o := (run turns (opened project)).overlay
    let offered := trace offers turns (opened project)
    let failed := (Offer.taken offered).filterMap (·.failure?)
    let recorded := (Offer.taken offered).filterMap (·.provenance?)
    let unserved := trace unserved turns (opened project)
    o.stats.registrations = o.store.projectVersion ∧
    o.stats.failures = o.reports.length ∧
    o.stats.compiles = offered.countP (·.isTaken) ∧
    o.stats.failures = failed.length ∧ o.reports = failed ∧
    o.stats.compiles - o.stats.failures = recorded.length ∧ o.records = recorded.foldl .note {} ∧
    o.stats.hits + o.stats.misses + unserved.length = turns.countP (·.request.isServe) ∧
    (∀ x ∈ offered, x.isTaken = false → x.after.stats = x.overlay.stats ∧
      x.after.reports = x.overlay.reports ∧ x.after.records = x.overlay.records) ∧
    ∀ (α : Type) (r : Registry) (f : Files) (idle : α) (between : Overlay → α × Overlay)
      (o : Overlay),
      let jobs := (o.collect r f).1
      let report := (o.refreshWith r f idle between).1
      report.compiled + report.failed + report.superseded = jobs.length ∧
      (jobs ≠ [] →
        let o₁ := (between ((o.collect r f).2.call jobs)).2
        let o₂ := (o.refreshWith r f idle between).2.2
        o₂.stats.compiles = o₁.stats.compiles + report.compiled + report.failed ∧
        o₂.stats.failures = o₁.stats.failures + report.failed ∧
        ∃ reports, reports.length = report.failed ∧ o₂.reports = o₁.reports ++ reports) := by
  have hsteady := steady_opened project
  have hserved := run_served hsteady turns
  obtain ⟨hcompiles, hfailures, hreports, hrecords⟩ :=
    Overlay.entered (run_accounts hsteady turns)
  have houtcomes := Overlay.length_outcomes (Offer.taken (trace offers turns (opened project)))
  have htaken : (Offer.taken (trace offers turns (opened project))).length =
      (trace offers turns (opened project)).countP (·.isTaken) := by
    rw [Offer.taken, List.length_map, List.countP_eq_length_filter]
  have hempty : (opened project).overlay = {} := rfl
  simp only [hempty, Nat.zero_add, List.nil_append] at hcompiles hfailures hreports hrecords
  simp only [hempty, Overlay.served, Nat.zero_add] at hserved
  refine ⟨?_, ?_, ?_, hfailures, hreports, ?_, hrecords, hserved, ?_, ?_⟩
  · exact Keeps.run (motive := fun _ _ o => o.stats.registrations = o.store.projectVersion)
      (fun turn _ => keeps_registrations turn) hsteady rfl
  · rw [hreports]
    exact hfailures
  · rw [← htaken]
    exact hcompiles
  · rw [hcompiles, hfailures]
    omega
  · intro x _ hx
    exact Overlay.settle_refused hx
  · intro α r f idle between o jobs report
    obtain ⟨taken, hreport, haccounts⟩ := Overlay.refreshWith_reports r f idle between o
    refine ⟨hreport.sum, fun hjobs => ?_⟩
    obtain ⟨hcompiles, hfailures, hreports, -⟩ := Overlay.entered (haccounts hjobs)
    have hsum : report.compiled + report.failed = taken.length := by
      rw [hreport.compiled, hreport.failed, Nat.add_comm, Overlay.length_outcomes]
    refine ⟨?_, ?_, taken.filterMap (·.failure?), hreport.failed.symm, hreports⟩
    · rw [hcompiles, ← hsum, Nat.add_assoc]
    · rw [hfailures, hreport.failed]

end Session

end SourceOverlay
