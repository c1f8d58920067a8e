import SourceOverlay.Process.Arguments
import SourceOverlay.Process.Number
import SourceOverlay.Process.Quote

/-!
# Front parts of files

A number of lines or of bytes from the front of each file, or all but so many at the end. Several
files get a heading each. A file that is read on by others is left right after the part; of a pipe
whole blocks are used up.
-/

set_option autoImplicit false

namespace SourceOverlay.Process

structure Front where
  bytes : Bool := false
  fromEnd : Bool := false
  count : Nat := 10
  headings : Option Bool := none
  ending : Char := '\n'

def blockSize : Nat := 8192

namespace Front

def linesLength (ending : Char) : Nat → Nat → List Char → Nat
  | 0, done, _ => done
  | _, done, [] => done
  | n + 1, done, c :: cs => linesLength ending (if c == ending then n else n + 1) (done + 1) cs

def lineCount (ending : Char) (cs : List Char) : Nat :=
  let whole := cs.count ending
  if cs.getLast?.any (· != ending) then whole + 1 else whole

def length (f : Front) (cs : List Char) : Nat :=
  if f.bytes then (if f.fromEnd then cs.length - f.count else min f.count cs.length)
  else
    linesLength f.ending (if f.fromEnd then lineCount f.ending cs - f.count else f.count) 0 cs

def usedUp (f : Front) (pipe : Bool) (total part : Nat) : Nat :=
  if f.fromEnd then total
  else if f.bytes || !pipe then part
  else min total ((part + blockSize - 1) / blockSize * blockSize)

end Front

/-! ### Numbers with a unit -/

def unitFactor? (unit : List Char) : Option Nat :=
  match unit with
  | [] => some 1
  | ['b'] => some 512
  | c :: more => do
    let power ← "KMGTPEZYRQ".toList.findIdx? (· == (if c == 'k' || c == 'm' then c.toUpper else c))
    let base ← match more with
      | [] => some 1024
      | ['i', 'B'] => some 1024
      | ['B'] => some 1000
      | ['D'] => some 1000
      | _ => none
    some (Nat.pow base (power + 1))

/-- A number with a unit. A unit alone counts once. The flag says that the number is too large. -/
def scanCount? (text : List Char) : Option (Nat × Bool) :=
  let cs := text.dropWhile isSpaceChar
  if cs.head? == some '-' then none
  else do
    let (_, cs) := spanSign cs
    let (n, unit) := spanNumber 10 cs.length 0 cs
    let n ← if unit.length < cs.length then some n else if unit.isEmpty then none else some 1
    let factor ← unitFactor? unit
    some (n * factor, fullWord ≤ n * factor)

namespace Front

def setCount (f : Front) (bytes : Bool) (text : String) : Except String Front :=
  let (fromEnd, cs) :=
    match text.toList with
    | '-' :: rest => (true, rest)
    | cs => (false, cs)
  let what := if bytes then "bytes" else "lines"
  let complaint := "invalid number of " ++ what ++ ": " ++ quote (String.ofList cs)
  match scanCount? cs with
  | some (count, false) => .ok { f with bytes, fromEnd, count }
  | some (_, true) => .error (complaint ++ ": Value too large for defined data type")
  | none => .error complaint

end Front

/-! ### Arguments -/

def headKnown (name : String) : Known where
  program := name
  letters := [('c', .value), ('n', .value)] ++ lettersOf "qvz0123456789"
  long :=
    [⟨"bytes", .value, 'c'⟩, ⟨"lines", .value, 'n'⟩, ⟨"quiet", .nothing, 'q'⟩,
      ⟨"silent", .nothing, 'q'⟩, ⟨"verbose", .nothing, 'v'⟩, ⟨"zero-terminated", .nothing, 'z'⟩]

abbrev HeadFault := String × Bool

def readOldLetters (number : String) : Front → Bool → String → List Char → Except HeadFault Front
  | f, bytes, unit, [] => (f.setCount bytes (number ++ unit)).mapError (·, false)
  | f, bytes, unit, c :: cs =>
    match c with
    | 'c' => readOldLetters number f true "" cs
    | 'b' => readOldLetters number f true "b" cs
    | 'k' => readOldLetters number f true "k" cs
    | 'm' => readOldLetters number f true "m" cs
    | 'l' => readOldLetters number f false unit cs
    | 'q' => readOldLetters number { f with headings := some false } bytes unit cs
    | 'v' => readOldLetters number { f with headings := some true } bytes unit cs
    | 'z' => readOldLetters number { f with ending := '\x00' } bytes unit cs
    | _ => .error ("invalid trailing option -- " ++ c.toString, true)

def readOldStyle (args : List String) : Except HeadFault (Front × List String) :=
  match args with
  | arg :: rest =>
    match arg.toList with
    | '-' :: c :: cs =>
      if c.isDigit then do
        let digits := (c :: cs).takeWhile Char.isDigit
        let f ← readOldLetters (String.ofList digits) {} false "" ((c :: cs).drop digits.length)
        return (f, rest)
      else .ok ({}, args)
    | _ => .ok ({}, args)
  | [] => .ok ({}, [])

def Front.apply (f : Front) (given : Given) : Except HeadFault Front :=
  match given with
  | ('c', value) => (f.setCount true (value.getD "")).mapError (·, false)
  | ('n', value) => (f.setCount false (value.getD "")).mapError (·, false)
  | ('q', _) => .ok { f with headings := some false }
  | ('v', _) => .ok { f with headings := some true }
  | ('z', _) => .ok { f with ending := '\x00' }
  | (c, _) => .error ("invalid trailing option -- " ++ c.toString, true)

def readHead (name : String) (args : List String) : Except HeadFault (Front × List String) := do
  let (f, args) ← readOldStyle args
  let (given, operands) := (headKnown name).parse args
  let f ← given.foldlM Front.apply f
  return (f, ← operands.mapError (·, true))

/-! ### Parts -/

def headTitle (operand : String) : String := if operand == "-" then "standard input" else operand

def headPart (name : String) (f : Front) (heading : Bool) (first : Bool) (operand : String) :
    Run (Bool × Bool) := do
  match ← openOperand operand with
  | .error refusal =>
    complain (name ++ ": cannot open " ++ shellAlways (headTitle operand) ++ " for reading: " ++
      refusal.reason)
    return (false, first)
  | .ok number =>
    if heading then
      let _ ← put 1 ((if first then "" else "\n") ++ "==> " ++ headTitle operand ++ " <==\n")
    let system ← get
    let found :=
      if f.count = 0 && !f.fromEnd then .ok []
      else if f.bytes && !f.fromEnd then (system.read number (some f.count)).1
      else system.peek number
    match found with
    | .error refusal =>
      let unseen := f.fromEnd && system.streams.size ≤ number
      let doing := if unseen then "cannot fstat " else "error reading "
      complain (name ++ ": " ++ doing ++ shellAlways (headTitle operand) ++ ": " ++ refusal.reason)
      return (false, false)
    | .ok cs =>
      let part := f.length cs
      set (system.skip number (f.usedUp (system.isPipe number) cs.length part))
      match ← put 1 (String.ofList (cs.take part)) with
      | none => return (true, false)
      | some refusal =>
        complain (name ++ ": write error: " ++ refusal.reason)
        return (false, false)

def head (name : String) (args : List String) : Run Nat := do
  match readHead name args with
  | .error (complaint, true) => (headKnown name).advise complaint
  | .error (complaint, false) =>
    complain (name ++ ": " ++ complaint)
    return 1
  | .ok (f, operands) =>
    let names := if operands.isEmpty then ["-"] else operands
    let heading := f.headings.getD (1 < names.length)
    let (ok, _) ← names.foldlM (fun (ok, first) operand => do
      let (good, first) ← headPart name f heading first operand
      return (ok && good, first)) (true, true)
    closeInput names (name ++ ": -") (if ok then 0 else 1)

end SourceOverlay.Process
