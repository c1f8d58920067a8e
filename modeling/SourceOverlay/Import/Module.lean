import Std.Data.TreeMap
import SourceOverlay.Options

/-!
# Imported modules

An import leads from the importing file and a module name to a file. How the engine itself looks
files up is left to a resolver, which sees the files through a host and may keep what it found in a
memo under the importing directory and the name.
-/

set_option autoImplicit false

namespace SourceOverlay.Import

structure Module where
  file : String
  extension : String
  external : Bool := false
  deriving Repr, DecidableEq

structure Host where
  has : String → Bool
  read? : String → Option String

structure Memo where
  root : String
  entries : Std.TreeMap (String × String) Module lexOrd.compare := ∅

namespace Memo

def find? (m : Memo) (dir name : String) : Option Module := m.entries[(dir, name)]?

def insert (m : Memo) (dir name : String) (target : Module) : Memo :=
  { m with entries := m.entries.insert (dir, name) target }

def clear (m : Memo) : Memo := { m with entries := ∅ }

def size (m : Memo) : Nat := m.entries.size

end Memo

abbrev Resolver :=
  (options : Options) → (host : Host) → (memo : Memo) → (importer name : String) →
    Option Module × Memo

end SourceOverlay.Import
