import Std.Data.TreeMap
import SourceOverlay.Document

/-!
# Snapshots

A snapshot is a text the engine was given, with the version it had. Offsets into it count the bytes
of UTF-8; one that lies beyond the end or inside a character stands for the nearest character
boundary before it.

The cache keeps snapshots by path. Those of compiled paths note the source version they reflect and
answer only for a source that is no newer. Dropping entries loses nothing but time.
-/

set_option autoImplicit false

namespace SourceOverlay

structure Snapshot where
  buffer : Buffer
  version : Version
  deriving Repr, DecidableEq

namespace Snapshot

def text (s : Snapshot) : String := s.buffer.text

def size (s : Snapshot) : Nat := s.text.utf8ByteSize

def sameBuffer (a b : Snapshot) : Bool := a.buffer.same b.buffer

def empty (origin : Origin) : Snapshot := ⟨⟨origin, ""⟩, 0⟩

def ofDocument (d : Document) : Snapshot := ⟨d.buffer, d.version⟩

/-- The first character boundary met from a byte offset downwards. A search that gets below zero
finds none. -/
def boundary? (text : String) (offset : Nat) : Option text.Pos :=
  if h : String.Pos.Raw.IsValid text ⟨offset⟩ then some ⟨⟨offset⟩, h⟩
  else match offset with
    | 0 => none
    | offset + 1 => boundary? text offset

theorem boundary?_of_isValid {text : String} {offset : Nat}
    (h : String.Pos.Raw.IsValid text ⟨offset⟩) : boundary? text offset = some ⟨⟨offset⟩, h⟩ := by
  rw [boundary?, dif_pos h]

theorem boundary?_of_not_isValid {text : String} {offset : Nat}
    (h : ¬ String.Pos.Raw.IsValid text ⟨offset + 1⟩) :
    boundary? text (offset + 1) = boundary? text offset := by
  rw [boundary?, dif_neg h]

structure IsCut (text : String) (offset : Nat) (p : text.Pos) : Prop where
  le : p.offset.byteIdx ≤ offset
  last : ∀ q : text.Pos, q.offset.byteIdx ≤ offset → q.offset.byteIdx ≤ p.offset.byteIdx

theorem isCut_self {text : String} (p : text.Pos) : IsCut text p.offset.byteIdx p :=
  ⟨Nat.le_refl _, fun _ h => h⟩

theorem exists_isCut (text : String) (offset : Nat) :
    ∃ p, boundary? text offset = some p ∧ IsCut text offset p := by
  induction offset with
  | zero =>
    have h := text.startPos.isValid
    exact ⟨text.startPos, boundary?_of_isValid h, isCut_self text.startPos⟩
  | succ offset ih =>
    by_cases h : String.Pos.Raw.IsValid text ⟨offset + 1⟩
    · exact ⟨⟨⟨offset + 1⟩, h⟩, boundary?_of_isValid h, isCut_self ⟨⟨offset + 1⟩, h⟩⟩
    · obtain ⟨p, hp, hcut⟩ := ih
      refine ⟨p, (boundary?_of_not_isValid h).trans hp, Nat.le_succ_of_le hcut.le, ?_⟩
      intro q hq
      apply hcut.last
      have hne : q.offset.byteIdx ≠ offset + 1 := by
        intro heq
        apply h
        rw [← heq]
        exact q.isValid
      omega

/-- The text between two byte offsets: the end is put on a boundary first, and the start is held
before it. A missing boundary, or a start behind the end, would leave nothing to give. -/
def slice? (s : Snapshot) (start stop : Nat) : Option String := do
  let stop ← boundary? s.text (min stop s.size)
  let start ← boundary? s.text (min start stop.offset.byteIdx)
  if start ≤ stop then some (String.extract start stop) else none

theorem slice?_isSome (s : Snapshot) (start stop : Nat) : (s.slice? start stop).isSome = true := by
  obtain ⟨p, hp, -⟩ := exists_isCut s.text (min stop s.size)
  obtain ⟨q, hq, hcut⟩ := exists_isCut s.text (min start p.offset.byteIdx)
  have hqp : q ≤ p := Nat.le_trans hcut.le (Nat.min_le_right _ _)
  simp [slice?, hp, hq, hqp]

def slice (s : Snapshot) (start stop : Nat) : String :=
  (s.slice? start stop).get (s.slice?_isSome start stop)

end Snapshot

structure SnapshotCache.Entry where
  snapshot : Snapshot
  sourceVersion : Option Version := none

structure SnapshotCache where
  entries : Std.TreeMap String SnapshotCache.Entry := ∅

namespace SnapshotCache

def find? (c : SnapshotCache) (path : String) : Option Snapshot :=
  (c.entries[path]?).map (·.snapshot)

/-- The snapshot of a compiled path, if it reflects the source version or a later one. -/
def findFor? (c : SnapshotCache) (path : String) (version : Version) : Option Snapshot :=
  ((c.entries[path]?).filter fun e => e.sourceVersion.any (version ≤ ·)).map (·.snapshot)

def insert (c : SnapshotCache) (path : String) (s : Snapshot) : SnapshotCache :=
  ⟨c.entries.insert path ⟨s, none⟩⟩

def insertFor (c : SnapshotCache) (path : String) (s : Snapshot) (version : Version) :
    SnapshotCache :=
  ⟨c.entries.insert path ⟨s, some version⟩⟩

def has (c : SnapshotCache) (path : String) : Bool := c.entries.contains path

def drop (c : SnapshotCache) (path : String) : SnapshotCache := ⟨c.entries.erase path⟩

def dropAll (c : SnapshotCache) (paths : List String) : SnapshotCache := paths.foldl drop c

def size (c : SnapshotCache) : Nat := c.entries.size

end SnapshotCache

end SourceOverlay
