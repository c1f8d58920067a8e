import Std.Data.TreeMap
import SourceOverlay.Disk.Basic

/-!
# Backing stores

Files that no editor has opened are read from a backing store. It is known only by what it answers:
the text at a path, and whether there is a file. It may be a disk or a map of texts in memory.
-/

set_option autoImplicit false

namespace SourceOverlay

structure Files where
  read? : String → Option String
  has : String → Bool

namespace Files

def ofRead (read? : String → Option String) : Files := ⟨read?, fun path => (read? path).isSome⟩

def ofDisk (disk : Disk) : Files := ⟨disk.text?, disk.isFile⟩

end Files

structure MemoryFiles where
  texts : Std.TreeMap String String := ∅

namespace MemoryFiles

def insert (m : MemoryFiles) (path text : String) : MemoryFiles := ⟨m.texts.insert path text⟩

def erase (m : MemoryFiles) (path : String) : MemoryFiles := ⟨m.texts.erase path⟩

def ofList (files : List (String × String)) : MemoryFiles :=
  files.foldl (fun m f => m.insert f.1 f.2) {}

def read? (m : MemoryFiles) (path : String) : Option String := m.texts[path]?

def paths (m : MemoryFiles) : List String := m.texts.keys

def size (m : MemoryFiles) : Nat := m.texts.size

def files (m : MemoryFiles) : Files := .ofRead m.read?

end MemoryFiles

end SourceOverlay
