/-!
# Documents

A document holds the authoritative text of one path with its version. Texts are told apart not by
their characters but by the write that put them there: two buffers are the same when they have the
same origin. A text in a document is known by the document's path and the number of texts written
to it before; a text that belongs to no document is known by a number of its own.
-/

set_option autoImplicit false

namespace SourceOverlay

abbrev Version := Int

def uncompiled : Version := -1

def storedVersion : Version := 0

inductive Origin where
  | document (path : String) (write : Nat)
  | loose (number : Nat)
  deriving Repr, DecidableEq

/-- A text together with its identity. -/
structure Buffer where
  origin : Origin
  text : String
  deriving Repr, DecidableEq

def Buffer.same (a b : Buffer) : Bool := a.origin == b.origin

inductive Kind where
  | editor
  | disk
  | compiled (source : String)
  deriving Repr, DecidableEq

structure Document where
  path : String
  text : String
  version : Version
  kind : Kind
  /-- How many texts were put in place of the first one. -/
  writes : Nat := 0
  deriving Repr, DecidableEq

namespace Document

def ofEditor (path text : String) (version : Version) : Document :=
  ⟨path, text, version, .editor, 0⟩

def ofDisk (path text : String) : Document := ⟨path, text, storedVersion, .disk, 0⟩

def ofSource (path source : String) : Document := ⟨path, "", uncompiled, .compiled source, 0⟩

def buffer (d : Document) : Buffer := ⟨.document d.path d.writes, d.text⟩

def source? (d : Document) : Option String :=
  match d.kind with
  | .compiled source => some source
  | _ => none

def isEditor (d : Document) : Bool := d.kind == .editor

def isDisk (d : Document) : Bool := d.kind == .disk

def write (d : Document) (text : String) (version : Version) : Document :=
  { d with text, version, writes := d.writes + 1 }

def setVersion (d : Document) (version : Version) : Document := { d with version }

def promote (d : Document) : Document := if d.isDisk then { d with kind := .editor } else d

end Document

end SourceOverlay
