import SourceOverlay.Json.Basic
import SourceOverlay.Text.Blank

/-!
# Line maps

A line map leads positions in compiled text back to the source. Each compiled line has its runs,
in order of the column at which they start; a position belongs to the last run that starts at or
before it and keeps its distance from the start. Lines without runs lead nowhere.
-/

set_option autoImplicit false

namespace SourceOverlay

structure Run where
  column : Nat
  sourceLine : Nat
  sourceColumn : Nat
  deriving Repr, DecidableEq

structure LineMap where
  lines : List (List Run)
  deriving Repr, DecidableEq

namespace LineMap

/-- Runs that start at one column keep their order. -/
def sortLine (line : List Run) : List Run := line.mergeSort fun a b => a.column ≤ b.column

def ofLines (lines : List (List Run)) : LineMap := ⟨lines.map sortLine⟩

def coordinateLimit : Nat := 4294967296

/-- The map of a text onto itself; an empty text has one line. The number of lines is one of 32 bits
as well, and wraps around. -/
def identity (text : String) : LineMap :=
  ⟨(List.range (max (Text.lineCount text) 1 % coordinateLimit)).map fun line => [⟨0, line, 0⟩]⟩

/-- The source line and column of a compiled line and column. The column is a number of 32 bits and
wraps around. -/
def source? (map : LineMap) (line column : Nat) : Option (Nat × Nat) := do
  let runs ← map.lines[line]?
  let run ← (runs.takeWhile fun r => r.column ≤ column).getLast?
  some (run.sourceLine, (run.sourceColumn + (column - run.column)) % coordinateLimit)

/-! ### JSON form -/

def coordinate? (value : Json) : Option Nat :=
  value.natural?.filter (· < coordinateLimit)

def run? : Json → Option Run
  | .array (column :: line :: sourceColumn :: _) => do
    let column ← coordinate? column
    let line ← coordinate? line
    let sourceColumn ← coordinate? sourceColumn
    some ⟨column, line, sourceColumn⟩
  | _ => none

def line? (value : Json) : Option (List Run) := do
  (← value.array?).mapM run?

def ofJson? (value : Json) : Option LineMap := do
  let lines ← (← value.array?).mapM line?
  some (ofLines lines)

def number (n : Nat) : Json := .number (.integer n)

def toJson (map : LineMap) : Json :=
  .array (map.lines.map fun line =>
    .array (line.map fun r => .array [number r.column, number r.sourceLine, number r.sourceColumn]))

end LineMap

end SourceOverlay
