import Std.Data.TreeMap
import SourceOverlay.Document
import SourceOverlay.Registry

/-!
# The document store

The store owns all documents, the paths the engine was told of, in the order in which it was told,
and a counter of registrations. Registering an alternate-syntax file makes its compiled path known
in place of its own. A registration that is older than the document the editor already gave leaves
the text alone. When the editor takes over a source that had been read from disk, the compiled
document counts as uncompiled again.
-/

set_option autoImplicit false

namespace SourceOverlay

inductive Registration where
  | native (path : String)
  | alternate (source compiled : String)
  deriving Repr, DecidableEq

def Registration.invalidated : Registration → List String
  | .native path => [path]
  | .alternate source compiled => [compiled, source]

structure Store where
  known : List String := []
  documents : Std.TreeMap String Document := ∅
  projectVersion : Nat := 0

namespace Store

def find? (s : Store) (path : String) : Option Document := s.documents[path]?

def source? (s : Store) (path : String) : Option Document :=
  (s.find? path).filter fun d => d.source?.isNone

def isKnown (s : Store) (path : String) : Bool := s.known.contains path

def size (s : Store) : Nat := s.documents.size

def put (s : Store) (d : Document) : Store := { s with documents := s.documents.insert d.path d }

def learn (s : Store) (path : String) : Store :=
  if s.isKnown path then s else { s with known := s.known ++ [path] }

def ensure (s : Store) (path : String) (fresh : Document) : Document × Store :=
  match s.find? path with
  | some d => (d, s)
  | none => (fresh, s.put fresh)

def materialize (s : Store) (path text : String) : Document × Store :=
  s.ensure path (.ofDisk path text)

def reserve (s : Store) (compiled source : String) : Document × Store :=
  s.ensure compiled (.ofSource compiled source)

/-- Takes the editor's text. The flag says that a document read from disk was taken over. -/
def receive (s : Store) (path text : String) (version : Version) : Bool × Store :=
  match s.find? path with
  | some d =>
    if d.isEditor && version < d.version then (false, s)
    else (d.isDisk, s.put (d.promote.write text version))
  | none => (false, s.put (.ofEditor path text version))

/-- The compiled document of a registered source, made stale if the source left the disk. -/
def pair (s : Store) (compiled source : String) (takenOver : Bool) : Store :=
  let (d, s) := s.reserve compiled source
  if takenOver then s.put (d.setVersion uncompiled) else s

def register (s : Store) (registry : Registry) (path text : String) (version : Version) :
    Registration × Store :=
  let s := { s with projectVersion := s.projectVersion + 1 }
  let (takenOver, s) := s.receive path text version
  match registry.find? (Name.extension path) with
  | some t =>
    let compiled := t.compiledName path
    (.alternate path compiled, (s.pair compiled path takenOver).learn compiled)
  | none => (.native path, s.learn path)

def pairs (s : Store) : List (String × String) :=
  s.documents.values.filterMap fun d => d.source?.map fun source => (d.path, source)

end Store

end SourceOverlay
