import Std.Data.TreeMap
import SourceOverlay.Document
import SourceOverlay.LineMap

/-!
# Provenance of compiled text

For each source the last successful compile is on record: which document it went to, from which
version, and how positions lead back. Without a line map positions stand for themselves.
-/

set_option autoImplicit false

namespace SourceOverlay

structure Provenance where
  source : String
  compiled : String
  map : Option LineMap
  version : Version
  deriving Repr, DecidableEq

def Provenance.source? (p : Provenance) (line column : Nat) : Option (Nat × Nat) :=
  match p.map with
  | some map => LineMap.source? map line column
  | none => some (line, column)

structure Records where
  entries : Std.TreeMap String Provenance := ∅

namespace Records

def note (r : Records) (p : Provenance) : Records := ⟨r.entries.insert p.source p⟩

def find? (r : Records) (source : String) : Option Provenance := r.entries[source]?

def size (r : Records) : Nat := r.entries.size

end Records

end SourceOverlay
