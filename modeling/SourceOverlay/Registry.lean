import Std.Data.TreeMap
import SourceOverlay.Transpiler

/-!
# The registry of transpilers

There is one transpiler for each source extension. Adding another for the same extension replaces
it, and nothing is ever taken out. A name belongs to a transpiler as a compiled name if its two
extensions are the transpiler's own.
-/

set_option autoImplicit false

namespace SourceOverlay

structure Registry where
  entries : Std.TreeMap String Transpiler := ∅

namespace Registry

def add (r : Registry) (t : Transpiler) : Registry := ⟨r.entries.insert t.extension t⟩

def addAll (r : Registry) (ts : List Transpiler) : Registry := ts.foldl add r

def onDisk (r : Registry) (disk : Disk) : Registry := ⟨r.entries.map fun _ t => t.onDisk disk⟩

def ofList (ts : List Transpiler) : Registry := addAll {} ts

def replaced? (r : Registry) (t : Transpiler) : Option Transpiler := r.entries[t.extension]?

def find? (r : Registry) (extension : String) : Option Transpiler :=
  if Name.isBare extension then none else r.entries[Name.dotted extension]?

def has (r : Registry) (extension : String) : Bool := (r.find? extension).isSome

def size (r : Registry) : Nat := r.entries.size

def extensions (r : Registry) : List String := r.entries.keys

/-- The transpilers in the order of their source extensions. -/
def toList (r : Registry) : List Transpiler := r.entries.values

def owner? (r : Registry) (name : String) : Option Transpiler := do
  let layered ← Name.Layered.split? name
  (r.find? layered.inner).filter fun t => t.target == layered.outer

/-- The name to show a user: a compiled file goes by its source. -/
def shownName (r : Registry) (name : String) : String :=
  match Name.Layered.split? name with
  | some layered => if (r.owner? name).isSome then layered.source else name
  | none => name

end Registry

end SourceOverlay
