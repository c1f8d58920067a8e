import SourceOverlay.Process.Arguments
import SourceOverlay.Process.Quote

/-!
# Counting

Counts of lines, words, bytes and of the longest line, in columns. The columns are wide enough for
the bytes of all regular files, and seven wide if there are other streams among them. Counts of
several files are summed up in a last row.
-/

set_option autoImplicit false

namespace SourceOverlay.Process

open Disk (Refusal)

structure Counts where
  lines : Nat := 0
  words : Nat := 0
  bytes : Nat := 0
  longest : Nat := 0
  column : Nat := 0
  inside : Bool := false

namespace Counts

def breakWord (s : Counts) : Counts := { s with inside := false }

def endLine (s : Counts) : Counts := { s with longest := max s.longest s.column, column := 0 }

def step (s : Counts) (c : Char) : Counts :=
  let s := { s with bytes := s.bytes + 1 }
  match c with
  | '\n' => { s.endLine.breakWord with lines := s.lines + 1 }
  | '\r' => s.endLine.breakWord
  | '\x0c' => s.endLine.breakWord
  | '\t' => { s.breakWord with column := s.column + 8 - s.column % 8 }
  | ' ' => { s.breakWord with column := s.column + 1 }
  | '\x0b' => s.breakWord
  | _ =>
    if '!' ≤ c && c ≤ '~' then
      let words := if s.inside then s.words else s.words + 1
      { s with column := s.column + 1, inside := true, words }
    else s

def ofText (cs : List Char) : Counts := (cs.foldl step {}).endLine

def append (a b : Counts) : Counts :=
  { lines := a.lines + b.lines, words := a.words + b.words, bytes := a.bytes + b.bytes,
    longest := max a.longest b.longest }

def row (asked : Char → Bool) (s : Counts) : List Nat :=
  (if asked 'l' then [s.lines] else []) ++ (if asked 'w' then [s.words] else []) ++
    (if asked 'm' then [s.bytes] else []) ++ (if asked 'c' then [s.bytes] else []) ++
    (if asked 'L' then [s.longest] else [])

end Counts

def countRow (width : Nat) (row : List Nat) (name : Option String) : String :=
  let cell (n : Nat) :=
    let digits := toString n
    String.ofList (List.replicate (width - digits.length) ' ') ++ digits
  let shownName (name : String) := if name.toList.contains '\n' then shown name else name
  " ".intercalate (row.map cell ++ (name.map shownName).toList) ++ "\n"

/-! ### Arguments -/

inductive TotalRow where
  | auto
  | always
  | only
  | never
  deriving DecidableEq

def TotalRow.all : List (String × TotalRow) :=
  [("auto", .auto), ("always", .always), ("only", .only), ("never", .never)]

def TotalRow.ofName (name : String) : Except String TotalRow :=
  let listed := "\nValid arguments are:" ++
    String.join (all.map fun (n, _) => "\n  - '" ++ n ++ "'")
  match all.lookup name, all.filter fun (n, _) => name.toList.isPrefixOf n.toList with
  | some t, _ => .ok t
  | none, [(_, t)] => .ok t
  | none, [] => .error ("invalid argument " ++ quote name ++ " for '--total'" ++ listed)
  | none, _ => .error ("ambiguous argument " ++ quote name ++ " for '--total'" ++ listed)

def wcKnown (name : String) : Known where
  program := name
  letters := lettersOf "clLmw"
  long :=
    [⟨"bytes", .nothing, 'c'⟩, ⟨"chars", .nothing, 'm'⟩, ⟨"lines", .nothing, 'l'⟩,
      ⟨"words", .nothing, 'w'⟩, ⟨"debug", .nothing, 'D'⟩, ⟨"files0-from", .value, 'F'⟩,
      ⟨"max-line-length", .nothing, 'L'⟩, ⟨"total", .value, 'T'⟩]

/-! ### Files -/

structure Counted where
  operand : String
  named : Bool
  stream : Except Refusal Nat

def countWidth (system : System) (files : List Counted) (columns : Nat) : Nat :=
  if files.length ≤ 1 && columns = 1 then 1
  else
    let streams := files.filterMap fun f => f.stream.toOption.bind fun n => system.streams[n]?
    let size : Stream → Option Nat
      | .file names _ _ => some (system.fileContent names).length
      | _ => none
    let total := streams.foldl (fun n s => n + (size s).getD 0) 0
    max (if streams.any fun s => (size s).isNone then 7 else 1) (toString total).length

/-- Counts one file. A complaint about reading does not keep its row from being written. -/
def countFile (name : String) (f : Counted) : Run (Option Counts × Bool) := do
  match f.stream with
  | .error refusal =>
    complain (name ++ ": " ++
      if f.operand == "" then "invalid zero-length file name"
      else shown f.operand ++ ": " ++ refusal.reason)
    return (none, false)
  | .ok number =>
    match ← readStream number none with
    | .ok cs => return (some (.ofText cs), true)
    | .error refusal =>
      complain (name ++ ": " ++ shown (if f.named then f.operand else "standard input") ++ ": " ++
        refusal.reason)
      return (some {}, false)

def countFiles (name : String) (asked : Char → Bool) (total : TotalRow) (files : List Counted) :
    Run Nat := do
  let columns := (Counts.row asked {}).length
  let system ← get
  let width := if total = .only then 1 else countWidth system files columns
  let (ok, sum, rows) ← files.foldlM (fun (ok, sum, refused) f => do
    let (counts, good) ← countFile name f
    let refused ← match counts with
      | some counts =>
        if total = .only then pure refused
        else
          let row := countRow width (counts.row asked) (if f.named then some f.operand else none)
          pure (refused.or (← put 1 row))
      | none => pure refused
    return (ok && good, sum.append (counts.getD {}), refused)) (true, ({} : Counts), none)
  let written : Bool :=
    match total with
    | .auto => 1 < files.length
    | .always => true
    | .only => true
    | .never => false
  let last := countRow width (sum.row asked) (if total = .only then none else some "total")
  match rows.or (← put 1 (if written then last else "")) with
  | none => closeInput (files.map (·.operand)) (name ++ ": -") (if ok then 0 else 1)
  | some refusal =>
    complain (name ++ ": write error" ++
      if refusal = .noSpace then "" else ": " ++ refusal.reason)
    return 1

def namesIn (cs : List Char) : List String :=
  let names := (cs.splitOnP (· == '\x00')).map String.ofList
  if names.getLast? == some "" then names.dropLast else names

def openCounted (named : Bool) (operand : String) : Run Counted := do
  return ⟨operand, named, ← openOperand operand⟩

def wcFiles (name : String) (given : List Given) (operands : List String) :
    Run (Except Nat (List Counted)) := do
  match given.reverse.findSome? fun g => if g.1 == 'F' then g.2 else none with
  | none =>
    if operands.isEmpty then return .ok [← openCounted false "-"]
    else return .ok (← operands.mapM (openCounted true))
  | some list =>
    match operands with
    | extra :: _ =>
      complain (name ++ ": extra operand " ++ shellAlways extra)
      complain "file operands cannot be combined with --files0-from"
      complain ("Try '" ++ name ++ " --help' for more information.")
      return .error 1
    | [] =>
      match ← openOperand list with
      | .error refusal =>
        complain (name ++ ": cannot open " ++ shellAlways list ++ " for reading: " ++
          refusal.reason)
        return .error 1
      | .ok number =>
        match ← readStream number none with
        | .ok cs => return .ok (← (namesIn cs).mapM (openCounted true))
        | .error refusal =>
          complain (name ++ ": " ++ shown list ++ ": read error: " ++ refusal.reason)
          return .error 1

def wc (name : String) (args : List String) : Run Nat := do
  let (given, operands) := (wcKnown name).parse args
  let totals := given.filterMap fun g => if g.1 == 'T' then g.2 else none
  let chosen := "lwmcL".toList.filter (gave given)
  let asked (c : Char) :=
    if chosen.isEmpty then c == 'l' || c == 'w' || c == 'c' else chosen.contains c
  match totals.foldlM (fun _ text => TotalRow.ofName text) TotalRow.auto, operands with
  | .error complaint, _ => (wcKnown name).advise complaint
  | .ok _, .error complaint => (wcKnown name).advise complaint
  | .ok total, .ok operands =>
    match ← wcFiles name given operands with
    | .error status => return status
    | .ok files => countFiles name asked total files

end SourceOverlay.Process
