import SourceOverlay.Process.Shell.Pattern

/-!
# Fields

Expanding a word gives a row of cells. Some of them come from substitutions outside quotes, and
there the row is cut into fields wherever a separator stands. Blanks that separate are gathered; any
other separator ends a field of its own, and takes the blanks around it along.
-/

set_option autoImplicit false

namespace SourceOverlay.Process.Shell

inductive Cell where
  | char (c : Char) (quoted loose : Bool)
  | mark
  | cut
  | start (argsOnly : Bool)
  | stop
  deriving DecidableEq

def patternOf (cells : List Cell) : Pattern :=
  cells.filterMap fun
    | .char c quoted _ => some (c, quoted)
    | _ => none

def textOf (cells : List Cell) : String := String.ofList ((patternOf cells).map (·.1))

def defaultSeparators : List Char := [' ', '\t', '\n']

structure Cutting where
  fields : List (List Cell) := []
  field : List Cell := []
  afterBlank : Bool := false
  inside : Bool := false
  argsOnly : Bool := false
  afterArgs : Bool := false
  left : Option Nat := none
  trimmed : Option (List Cell) := none

namespace Cutting

def keep (s : Cutting) (cell : Cell) : Cutting :=
  { s with field := cell :: s.field, afterBlank := false }

def gather (s : Cutting) (cell : Cell) (separates blank : Bool) : Cutting :=
  let trimmed :=
    if blank then s.trimmed.or (some s.field)
    else if separates && s.afterBlank then s.trimmed
    else none
  { s with field := cell :: s.field, trimmed, afterBlank := blank && s.afterBlank }

def separate (s : Cutting) (cell : Cell) (blank : Bool) : Cutting :=
  let afterBlank := if s.afterArgs || s.argsOnly then s.afterBlank else blank
  if s.field.isEmpty && afterBlank then { s with afterBlank := false }
  else
    match s.left with
    | some 1 =>
      { s with left := some 0, afterBlank, trimmed := some s.field, field := cell :: s.field }
    | left =>
      { s with
        left := left.map (· - 1), afterBlank, fields := s.field.reverse :: s.fields, field := [] }

def loose (s : Cutting) (cell : Cell) (separates blank : Bool) : Cutting :=
  if s.left = some 0 then s.gather cell separates blank
  else if s.afterBlank then
    if blank then s
    else if separates then { s with afterBlank := false }
    else s.keep cell
  else if separates then s.separate cell blank
  else s.keep cell

def step (separators : List Char) (s : Cutting) (cell : Cell) : Cutting :=
  match cell with
  | .start argsOnly =>
    { s with inside := true, afterBlank := false, argsOnly, afterArgs := s.argsOnly }
  | .stop => { s with inside := false }
  | .cut => s.loose cell true true
  | .char c _ true =>
    let separates := !s.argsOnly && separators.contains c
    s.loose cell separates (separates && defaultSeparators.contains c)
  | .char _ _ false => { s with field := cell :: s.field }
  | .mark => { s with field := cell :: s.field }

def finish (s : Cutting) : List (List Cell) :=
  let last := (s.trimmed.getD s.field).reverse
  (if s.argsOnly || !last.isEmpty then last :: s.fields else s.fields).reverse

end Cutting

def fieldsOf (separators : List Char) (limit : Option Nat) (cells : List Cell) : List (List Cell) :=
  (cells.foldl (Cutting.step separators) { left := limit }).finish

end SourceOverlay.Process.Shell
