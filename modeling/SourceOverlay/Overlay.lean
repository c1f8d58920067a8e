import SourceOverlay.Files
import SourceOverlay.Provenance
import SourceOverlay.Report.Failure
import SourceOverlay.Snapshot
import SourceOverlay.Store

/-!
# The overlay

The overlay serves snapshots of files to the engine. A native path is served from its document or
else from the backing store. A compiled path is served from its compiled document, which is brought
up to date first if its source is newer; that takes one compile at most for each advance of the
source, because a compile that fails advances the document too and only keeps its text.

A compile is taken up as a job: the source text as it was, and its version. The result is settled
later, and only if the source still holds that very text and the document is still older. So
jobs may be collected at one moment and settled at another, with other operations in between.
-/

set_option autoImplicit false

namespace SourceOverlay

structure Stats where
  registrations : Nat := 0
  compiles : Nat := 0
  failures : Nat := 0
  hits : Nat := 0
  misses : Nat := 0
  deriving Repr, DecidableEq

structure Job where
  transpiler : Transpiler
  source : String
  compiled : String
  buffer : Buffer
  version : Version

namespace Job

def run (j : Job) : Result := j.transpiler.run j.source j.buffer.text

def isExternal (j : Job) : Bool := j.transpiler.compiler.program?.isSome

def after (j : Job) (disk : Disk) : Disk := j.transpiler.compiler.after j.source j.buffer.text disk

end Job

structure Overlay where
  store : Store := {}
  cache : SnapshotCache := {}
  records : Records := {}
  stats : Stats := {}
  /-- How many texts were served that belong to no document. -/
  loose : Nat := 0
  reports : List Failure := []
  calls : List Job := []

namespace Overlay

/-! ### Registration -/

def register (registry : Registry) (o : Overlay) (path text : String) (version : Version) :
    Registration × Overlay :=
  let (registration, store) := o.store.register registry path text version
  (registration,
    { o with
      store
      cache := o.cache.dropAll registration.invalidated
      stats := { o.stats with registrations := o.stats.registrations + 1 } })

/-! ### Sources -/

/-- The text and version of a source. One that has no document gets one from the backing store. -/
def sourceText (files : Files) (o : Overlay) (source : String) :
    Option (Buffer × Version) × Overlay :=
  match o.store.find? source with
  | some d => (some (d.buffer, d.version), o)
  | none =>
    match files.read? source with
    | some text =>
      let (d, store) := o.store.materialize source text
      (some (d.buffer, d.version), { o with store })
    | none => (none, o)

/-! ### Settling results -/

/-- Whether the source of a job still holds the text that the job was taken with. -/
def holds (o : Overlay) (j : Job) : Bool :=
  (o.store.source? j.source).any fun d => d.buffer.same j.buffer

def accept (o : Overlay) (j : Job) (d : Document) (output : Output) : Overlay :=
  { o with
    store := o.store.put (d.write output.code j.version)
    records := o.records.note ⟨j.source, j.compiled, output.map, j.version⟩ }

/-- Advances the document of a job without changing its text, and reports the failure. -/
def decline (o : Overlay) (j : Job) (d : Document) (error : CompileError) : Overlay :=
  { o with
    store := o.store.put (d.setVersion j.version)
    stats := { o.stats with failures := o.stats.failures + 1 }
    reports :=
      o.reports ++ [⟨j.source, j.compiled, j.transpiler.extension, j.version, error, none⟩] }

/-- Applies the result of a job, unless the job is out of date. -/
def settle (o : Overlay) (j : Job) (result : Result) : Bool × Overlay :=
  if !o.holds j then (false, o)
  else
    let (d, store) := o.store.reserve j.compiled j.source
    let o := { o with store }
    if j.version ≤ d.version then (false, o)
    else
      let o := { o with stats := { o.stats with compiles := o.stats.compiles + 1 } }
      let o :=
        match result with
        | .ok output => o.accept j d output
        | .error error => o.decline j d error
      (true, { o with cache := o.cache.drop j.compiled })

def call (o : Overlay) (jobs : List Job) : Overlay :=
  { o with calls := o.calls ++ jobs }

/-! ### Snapshots -/

def countHit (o : Overlay) : Overlay :=
  { o with stats := { o.stats with hits := o.stats.hits + 1 } }

def countMiss (o : Overlay) : Overlay :=
  { o with stats := { o.stats with misses := o.stats.misses + 1 } }

def freshOrigin (o : Overlay) : Origin × Overlay :=
  (.loose o.loose, { o with loose := o.loose + 1 })

def serveMissing (o : Overlay) : Snapshot × Overlay :=
  let (origin, o) := o.freshOrigin
  (.empty origin, o)

def remember (o : Overlay) (path : String) (s : Snapshot) : Snapshot × Overlay :=
  (s, { o with cache := o.cache.insert path s })

def serveNative (files : Files) (o : Overlay) (path : String) : Snapshot × Overlay :=
  match o.cache.find? path with
  | some s => (s, o.countHit)
  | none =>
    let o := o.countMiss
    match o.store.find? path with
    | some d => o.remember path (.ofDocument d)
    | none =>
      match files.read? path with
      | some text =>
        let (origin, o) := o.freshOrigin
        o.remember path ⟨⟨origin, text⟩, storedVersion⟩
      | none => o.serveMissing

def bringUp (o : Overlay) (j : Job) (d : Document) : Overlay :=
  if d.version < j.version then ((o.call [j]).settle j j.run).2 else o

def serveDocument (o : Overlay) (j : Job) : Snapshot × Overlay :=
  let (d, store) := o.store.reserve j.compiled j.source
  let s := Snapshot.ofDocument d
  (s, { o with store, cache := o.cache.insertFor j.compiled s j.version })

def serveCompiled (files : Files) (o : Overlay) (path : String) (t : Transpiler) :
    Snapshot × Overlay :=
  let source := Name.withoutExtension path
  match o.sourceText files source with
  | (none, o) => o.serveMissing
  | (some (buffer, version), o) =>
    match o.cache.findFor? path version with
    | some s => (s, o.countHit)
    | none =>
      let j : Job := ⟨t, source, path, buffer, version⟩
      let (d, store) := o.countMiss.store.reserve path source
      ({ o.countMiss with store }.bringUp j d).serveDocument j

def serve (registry : Registry) (files : Files) (o : Overlay) (path : String) :
    Snapshot × Overlay :=
  match registry.owner? path with
  | some t => o.serveCompiled files path t
  | none => o.serveNative files path

/-! ### Refreshing all compiled documents -/

def staleJob (registry : Registry) (files : Files) (o : Overlay) (compiled source : String) :
    Option Job × Overlay :=
  match registry.owner? compiled with
  | none => (none, o)
  | some t =>
    match o.sourceText files source with
    | (none, o) => (none, o)
    | (some (buffer, version), o) =>
      let (d, store) := o.store.reserve compiled source
      (if d.version < version then some ⟨t, source, compiled, buffer, version⟩ else none,
        { o with store })

def collectFrom (registry : Registry) (files : Files) :
    List (String × String) → Overlay → List Job × Overlay
  | [], o => ([], o)
  | (compiled, source) :: rest, o =>
    let (job, o) := o.staleJob registry files compiled source
    let (jobs, o) := collectFrom registry files rest o
    (job.toList ++ jobs, o)

def collect (registry : Registry) (files : Files) (o : Overlay) : List Job × Overlay :=
  collectFrom registry files o.store.pairs o

structure Refreshed where
  compiled : Nat := 0
  failed : Nat := 0
  superseded : Nat := 0
  deriving Repr, DecidableEq

def Refreshed.count (r : Refreshed) (taken ok : Bool) : Refreshed :=
  match taken, ok with
  | false, _ => { r with superseded := r.superseded + 1 }
  | true, true => { r with compiled := r.compiled + 1 }
  | true, false => { r with failed := r.failed + 1 }

def settleAll : List (Job × Result) → Refreshed × Overlay → Refreshed × Overlay
  | [], s => s
  | (j, result) :: rest, (r, o) =>
    let (taken, o) := o.settle j result
    settleAll rest (r.count taken result.toBool, o)

/-- Compiles every stale document. The operation `between` takes place after the jobs were
collected and before any result is settled, if there are jobs at all. -/
def refreshWith {α : Type} (registry : Registry) (files : Files) (idle : α)
    (between : Overlay → α × Overlay) (o : Overlay) : Refreshed × α × Overlay :=
  let (jobs, o) := o.collect registry files
  if jobs.isEmpty then ({}, idle, o)
  else
    let (a, o) := between (o.call jobs)
    let (r, o) := settleAll (jobs.map fun j => (j, j.run)) ({}, o)
    (r, a, o)

def refresh (registry : Registry) (files : Files) (o : Overlay) : Refreshed × Overlay :=
  let (r, _, o) := o.refreshWith registry files () fun o => ((), o)
  (r, o)

/-! ### Queries -/

def unknownVersion : String := "0"

/-- The version the engine sees: that of the source for a compiled path. -/
def versionText (o : Overlay) (path : String) : String :=
  match o.store.find? path with
  | none => unknownVersion
  | some d =>
    match d.source?.bind o.store.find? with
    | some source => toString source.version
    | none => toString d.version

def sourcePosition? (registry : Registry) (o : Overlay) (path : String) (line column : Nat) :
    Option (String × Nat × Nat) := do
  let _ ← registry.owner? path
  let layered ← Name.Layered.split? path
  let p ← o.records.find? layered.source
  let (line, column) ← p.source? line column
  some (p.source, line, column)

end Overlay

end SourceOverlay
