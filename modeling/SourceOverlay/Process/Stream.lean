import SourceOverlay.Disk.Basic
import SourceOverlay.Text.Raw

/-!
# Open streams

What programs share is a system: the disk, and the streams that are open on it. A stream is known
by its number; several descriptors may lead to one stream, and then they share its place in a
file. A pipe gives what was put in it. Contents are raw texts.
-/

set_option autoImplicit false

namespace SourceOverlay.Process

open Disk (Refusal)

inductive Access where
  | read
  | write
  | append
  | update
  deriving Repr, DecidableEq

inductive Stream where
  | pipe (front : List Char) (back : List (List Char))
  | file (names : List String) (offset : Nat) (access : Access)
  | folder
  | null
  | zeros
  | full

structure System where
  disk : Disk
  streams : Array Stream := #[]

namespace System

def add (s : System) (stream : Stream) : Nat × System :=
  (s.streams.size, { s with streams := s.streams.push stream })

def set (s : System) (number : Nat) (stream : Stream) : System :=
  { s with streams := s.streams.setIfInBounds number stream }

def fileContent (s : System) (names : List String) : List Char :=
  match s.disk.node? names with
  | some (.file bytes) => bytes.map Text.byteChar
  | _ => []

/-! ### Reading -/

def zeroChars (n : Nat) : List Char := List.replicate n '\x00'

def read (s : System) (number : Nat) (limit : Option Nat) :
    Except Refusal (List Char) × System :=
  let cut (cs : List Char) : List Char × List Char :=
    match limit with
    | none => (cs, [])
    | some n => cs.splitAt n
  match s.streams[number]? with
  | some (.pipe front back) =>
    let (taken, left) := cut (if back.isEmpty then front else front ++ back.reverse.flatten)
    (.ok taken, s.set number (.pipe left []))
  | some (.file names offset access) =>
    if access = .write || access = .append then (.error .badDescriptor, s)
    else
      let (taken, _) := cut ((s.fileContent names).drop offset)
      (.ok taken, s.set number (.file names (offset + taken.length) access))
  | some .folder => (.error .isDirectory, s)
  | some .null => (.ok [], s)
  | some .zeros => (.ok (zeroChars (limit.getD 0)), s)
  | some .full => (.ok (zeroChars (limit.getD 0)), s)
  | none => (.error .badDescriptor, s)

def peek (s : System) (number : Nat) : Except Refusal (List Char) := (s.read number none).1

def skip (s : System) (number count : Nat) : System := (s.read number (some count)).2

def isPipe (s : System) (number : Nat) : Bool :=
  match s.streams[number]? with
  | some (.pipe _ _) => true
  | _ => false

/-! ### Writing -/

def overwrite (content : List Char) (offset : Nat) (text : List Char) : List Char :=
  content.take offset ++ zeroChars (offset - content.length) ++ text ++
    content.drop (offset + text.length)

def write (s : System) (number : Nat) (text : String) : Option Refusal × System :=
  match s.streams[number]? with
  | some (.pipe front back) => (none, s.set number (.pipe front (text.toList :: back)))
  | some (.file names offset access) =>
    let content := s.fileContent names
    let offset := if access = .append then content.length else offset
    if access = .read then (some .badDescriptor, s)
    else
      let bytes := (overwrite content offset text.toList).map Text.charByte
      let s := { s with disk := s.disk.put names (.file bytes) }
      (none, s.set number (.file names (offset + text.length) access))
  | some .folder => (some .badDescriptor, s)
  | some .null => (none, s)
  | some .zeros => (none, s)
  | some .full => (some .noSpace, s)
  | none => (some .badDescriptor, s)

def content (s : System) (number : Nat) : List Char :=
  match s.streams[number]? with
  | some (.pipe front back) => front ++ back.reverse.flatten
  | _ => []

end System

/-! ### Tasks -/

structure Task where
  streams : List (Nat × Nat)
  working : List String

def Task.stream? (t : Task) (descriptor : Nat) : Option Nat := t.streams.lookup descriptor

def System.diskFrom (s : System) (working : List String) : Disk := { s.disk with working }

def descriptorNamed? (path : String) : Option Nat :=
  match Disk.components path with
  | ["dev", "stdin"] => some 0
  | ["dev", "stdout"] => some 1
  | ["dev", "stderr"] => some 2
  | ["dev", "fd", n] => n.toNat?
  | ["proc", "self", "fd", n] => n.toNat?
  | _ => none

def deviceNamed? (path : String) : Option Stream :=
  if !Disk.isRooted path then none
  else
    match Disk.components path with
    | ["dev", "null"] => some .null
    | ["dev", "zero"] => some .zeros
    | ["dev", "full"] => some .full
    | _ => none

structure Opening where
  access : Access
  create : Bool := false
  truncate : Bool := false

def System.openPlace (s : System) (o : Opening) :
    Disk.Place → Except Refusal Nat × System
  | .vacant names =>
    if o.create then
      let (number, s) := s.add (.file names 0 o.access)
      (.ok number, { s with disk := s.disk.put names (.file []) })
    else (.error .notFound, s)
  | .node names (.file bytes) =>
    let (number, s) := s.add (.file names 0 o.access)
    (.ok number, { s with disk := s.disk.put names (.file (if o.truncate then [] else bytes)) })
  | .node _ _ =>
    if o.access = .read then
      let (number, s) := s.add .folder
      (.ok number, s)
    else (.error .isDirectory, s)

def System.openFile (s : System) (t : Task) (o : Opening) (name : String) :
    Except Refusal Nat × System :=
  let path := Text.cooked name
  let again := if Disk.isRooted path then (descriptorNamed? path).bind t.stream? else none
  match again.bind fun n => s.streams[n]?.map (n, ·) with
  | some (_, .file names _ _) =>
    s.openPlace o (.node names (.file ((s.fileContent names).map Text.charByte)))
  | some (number, _) => (.ok number, s)
  | none =>
    match deviceNamed? path with
    | some device =>
      let (number, s) := s.add device
      (.ok number, s)
    | none =>
      match (s.diskFrom t.working).place path with
      | .error refusal => (.error refusal, s)
      | .ok place => s.openPlace o place

inductive Fate where
  | exited (status : Nat)
  | killed (signal : Nat)
  deriving Repr, DecidableEq

def Fate.code : Fate → Nat
  | .exited status => status % 256
  | .killed signal => 128 + signal

abbrev Run := ReaderT Task (StateM System)

def put (descriptor : Nat) (text : String) : Run (Option Refusal) := fun t s =>
  if text.isEmpty then (none, s)
  else
    match t.stream? descriptor with
    | some number => s.write number text
    | none => (some .badDescriptor, s)

def complain (text : String) : Run Unit := do
  let _ ← put 2 (text ++ "\n")

def noStream : Nat := 4294967295

/-- Opens an operand for reading; a hyphen is the input. An input that is closed is only noticed when
it is read. -/
def openOperand (name : String) : Run (Except Refusal Nat) := fun t s =>
  if name == "-" then (.ok ((t.stream? 0).getD noStream), s)
  else s.openFile t { access := .read } name

def readStream (number : Nat) (limit : Option Nat) : Run (Except Refusal (List Char)) :=
  fun _ s => s.read number limit

def closeInput (names : List String) (complaint : String) (status : Nat) : Run Nat := do
  if names.contains "-" && ((← read).stream? 0).isNone then
    complain (complaint ++ ": " ++ Refusal.badDescriptor.reason)
    return 1
  else return status

def finish (program : String) (out : String) (status : Nat) : Run Nat := do
  match ← put 1 out with
  | none => return status
  | some refusal =>
    complain (program ++ ": write error: " ++ refusal.reason)
    return 1

end SourceOverlay.Process
