import SourceOverlay.Process.Arguments
import SourceOverlay.Process.Quote

/-!
# Copying files

The files that are named are copied to the output one after the other. Lines may be numbered, ends
of lines and characters that cannot be printed may be shown, and runs of empty lines may be cut to
one. Where one file leaves off in the middle of a line the next one goes on.
-/

set_option autoImplicit false

namespace SourceOverlay.Process

structure CopyStyle where
  number : Bool := false
  numberFilled : Bool := false
  squeeze : Bool := false
  showEnds : Bool := false
  showTabs : Bool := false
  showControls : Bool := false

structure CopyState where
  line : Nat := 0
  newlines : Int := 0

namespace CopyStyle

def isPlain (o : CopyStyle) : Bool :=
  !(o.number || o.numberFilled || o.squeeze || o.showEnds || o.showTabs || o.showControls)

def lineNumber (n : Nat) : String :=
  let digits := toString n
  String.ofList (List.replicate (6 - digits.length) ' ') ++ digits ++ "\t"

def caret (n : Nat) : List Char :=
  if n == 127 then ['^', '?'] else if n < 32 then ['^', Char.ofNat (n + 64)] else [Char.ofNat n]

def showChar (o : CopyStyle) (c : Char) (next : Option Char) : List Char :=
  let n := c.toNat
  if c == '\t' then (if o.showTabs then ['^', 'I'] else [c])
  else if o.showControls then (if n < 128 then caret n else 'M' :: '-' :: caret (n - 128))
  else if c == '\r' && o.showEnds && next == some '\n' then ['^', 'M']
  else [c]

def step (o : CopyStyle) (s : CopyState) (c : Char) (next : Option Char) : List Char × CopyState :=
  if c == '\n' then
    let newlines := min 2 (s.newlines + 1)
    if newlines = 2 && o.squeeze then ([], { s with newlines })
    else
      let numbered := 0 < newlines && o.number && !o.numberFilled
      let line := if numbered then s.line + 1 else s.line
      ((if numbered then (lineNumber line).toList else []) ++ (if o.showEnds then ['$'] else []) ++
        ['\n'], ⟨line, newlines⟩)
  else
    let numbered := 0 ≤ s.newlines && (o.number || o.numberFilled)
    let line := if numbered then s.line + 1 else s.line
    ((if numbered then (lineNumber line).toList else []) ++ o.showChar c next, ⟨line, -1⟩)

def copy (o : CopyStyle) : List Char → CopyState → List Char → List Char × CopyState
  | done, s, [] => (done.reverse, s)
  | done, s, c :: cs =>
    let (shown, s) := o.step s c cs.head?
    copy o (shown.reverse ++ done) s cs

end CopyStyle

def catKnown (name : String) : Known where
  program := name
  letters := lettersOf "benstuvAET"
  long :=
    [⟨"number-nonblank", .nothing, 'b'⟩, ⟨"number", .nothing, 'n'⟩,
      ⟨"squeeze-blank", .nothing, 's'⟩,
      ⟨"show-nonprinting", .nothing, 'v'⟩, ⟨"show-ends", .nothing, 'E'⟩,
      ⟨"show-tabs", .nothing, 'T'⟩, ⟨"show-all", .nothing, 'A'⟩]

def copyStyle (given : List Given) : CopyStyle :=
  let has (letters : String) := letters.toList.any (gave given)
  { number := has "n", numberFilled := has "b", squeeze := has "s", showEnds := has "eAE",
    showTabs := has "tAT", showControls := has "vetA" }

def copiesToItself (input output : Option Stream) : Bool :=
  match input, output with
  | some (.file a _ _), some (.file b _ access) => a == b && access != .read
  | _, _ => false

def copyFile (name : String) (o : CopyStyle) (s : CopyState) (operand : String) :
    Run (Bool × CopyState) := do
  match ← openOperand operand with
  | .error refusal =>
    complain (name ++ ": " ++ shown operand ++ ": " ++ refusal.reason)
    return (false, s)
  | .ok number =>
    let task ← read
    let system ← get
    let output := (task.stream? 1).bind fun n => system.streams[n]?
    let content := system.peek number
    if copiesToItself system.streams[number]? output && content.toOption.any (!·.isEmpty) then
      complain (name ++ ": " ++ shown operand ++ ": input file is output file")
      return (false, s)
    else
      match ← readStream number none with
      | .error refusal =>
        complain (name ++ ": " ++ shown operand ++ ": " ++ refusal.reason)
        return (false, s)
      | .ok cs =>
        let (text, s) := if o.isPlain then (cs, s) else o.copy [] s cs
        match ← put 1 (String.ofList text) with
        | none => return (true, s)
        | some refusal =>
          complain (name ++ ": write error: " ++ refusal.reason)
          return (false, s)

def cat (name : String) (args : List String) : Run Nat := do
  match (catKnown name).parse args with
  | (_, .error complaint) => (catKnown name).advise complaint
  | (given, .ok operands) =>
    if ((← read).stream? 1).isNone then
      complain (name ++ ": standard output: Bad file descriptor")
      return 1
    else
      let names := if operands.isEmpty then ["-"] else operands
      let (ok, _) ← names.foldlM (fun (ok, s) operand => do
        let (good, s) ← copyFile name (copyStyle given) s operand
        return (ok && good, s)) (true, {})
      closeInput names (name ++ ": closing standard input") (if ok then 0 else 1)

end SourceOverlay.Process
