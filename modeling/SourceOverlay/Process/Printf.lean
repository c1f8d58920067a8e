import SourceOverlay.Process.Echo
import SourceOverlay.Process.Field
import SourceOverlay.Process.Quote

/-!
# Printing by a format

A format is copied to the output. Each field in it takes one argument, an absent one counting as
empty or zero, and writes it. The format is used again as long as it takes arguments and some are
left. The printing program and the printing command of the shell share this and differ in what
they know and in how they complain, which is kept in a `Dialect`.
-/

set_option autoImplicit false

namespace SourceOverlay.Process

structure Printed where
  pieces : List (Except String String) := []
  status : Nat := 0
  args : List String
  used : Bool := false
  on : Bool := true
  fault : Option String := none

namespace Printed

def write (s : Printed) (text : String) : Printed := { s with pieces := .ok text :: s.pieces }

def warn (s : Printed) (complaint : String) : Printed :=
  { s with pieces := .error complaint :: s.pieces }

def blame (s : Printed) (complaint : String) : Printed := { s.warn complaint with status := 1 }

def stop (s : Printed) : Printed := { s with on := false }

def fail (s : Printed) (complaint : String) : Printed :=
  { s with on := false, fault := some complaint }

def take (s : Printed) : Option String × Printed :=
  match s.args with
  | [] => (none, s)
  | arg :: args => (some arg, { s with args, used := true })

def text (s : Printed) : String :=
  String.join (s.pieces.reverse.filterMap fun
    | .ok text => some text
    | .error _ => none)

def complaints (s : Printed) : List String :=
  s.pieces.reverse.filterMap fun
    | .ok _ => none
    | .error complaint => some complaint

end Printed

structure Dialect where
  name : String → String
  notNumber : String
  leftover : String
  warns : Bool
  precision : Precision
  flags : String
  letters : List Char → Bool → String
  sizes : String
  badField : String
  escape : List Char → Printed → List Char × Printed
  argumentEscape : List Char → Printed → List Char × Printed

/-! ### Arguments -/

def outOfRange : String := "Numerical result out of range"

namespace Dialect

def check (d : Dialect) (arg : String) (rest : Option (List Char)) (fits : Bool) (s : Printed) :
    Printed :=
  if d.warns && !fits then s.blame (d.name arg ++ ": " ++ outOfRange)
  else
    match rest with
    | some [] => if fits then s else s.blame (d.name arg ++ ": " ++ outOfRange)
    | some _ => s.blame (d.name arg ++ ": " ++ d.leftover)
    | none => if arg == "" && !d.warns then s else s.blame (d.name arg ++ ": " ++ d.notNumber)

def quoted? (d : Dialect) (arg : String) (s : Printed) : Option (Nat × Printed) :=
  match arg.toList with
  | q :: c :: rest =>
    if q == '\x27' || q == '"' then
      let s :=
        if d.warns && !rest.isEmpty then
          s.warn ("warning: " ++ String.ofList rest ++
            ": character(s) following character constant have been ignored")
        else s
      some (c.toNat, s)
    else none
  | [q] => if !d.warns && (q == '\x27' || q == '"') then some (0, s) else none
  | [] => none

def integer (d : Dialect) (s : Printed) : Int × Printed :=
  match s.take with
  | (none, s) => (0, s)
  | (some arg, s) =>
    match d.quoted? arg s with
    | some (n, s) => (n, s)
    | none =>
      match scanInteger? none arg.toList with
      | some n => (n.clamped, d.check arg (some n.rest) n.fits s)
      | none => (0, if arg == "" then s else d.check arg none true s)

def natural (d : Dialect) (s : Printed) : Nat × Printed :=
  match s.take with
  | (none, s) => (0, s)
  | (some arg, s) =>
    match d.quoted? arg s with
    | some (n, s) => (n, s)
    | none =>
      match scanInteger? none arg.toList with
      | some n => (n.unsigned, d.check arg (some n.rest) n.fitsUnsigned s)
      | none => (0, if arg == "" then s else d.check arg none true s)

def fraction (d : Dialect) (s : Printed) : Fraction × Printed :=
  let zero : Fraction := { negative := false, magnitude := .finite 0 0 }
  match s.take with
  | (none, s) => (zero, s)
  | (some arg, s) =>
    match d.quoted? arg s with
    | some (n, s) => ({ zero with magnitude := d.precision.round n 1 }, s)
    | none =>
      match scanFraction? d.precision arg.toList with
      | some (value, rest) => (value, d.check arg (some rest) value.fits s)
      | none => (zero, if arg == "" then s else d.check arg none true s)

/-! ### Fields -/

def expandArgument (d : Dialect) : Nat → List Char → Printed → Printed
  | 0, _, s => s
  | _, [], s => s
  | fuel + 1, '\\' :: cs, s =>
    let (rest, s) := d.argumentEscape cs s
    if s.on then expandArgument d fuel rest s else s
  | fuel + 1, c :: cs, s => expandArgument d fuel cs (s.write c.toString)

def writeExpanded (d : Dialect) (f : Field) (arg : String) (s : Printed) : Printed :=
  let inner := d.expandArgument (arg.length + 1) arg.toList { s with pieces := [] }
  { inner with pieces := .ok (f.text inner.text) :: s.pieces }

def writeField (d : Dialect) (f : Field) (s : Printed) : Printed :=
  match f.letter with
  | 'b' =>
    let (arg, s) := s.take
    d.writeExpanded f (arg.getD "") s
  | 'q' =>
    match s.take with
    | (some arg, s) => s.write (shellQuote arg)
    | (none, s) => s
  | 's' =>
    let (arg, s) := s.take
    s.write (f.text (arg.getD ""))
  | 'c' =>
    let (arg, s) := s.take
    s.write (f.pad (((arg.getD "").toList.headD '\x00').toString))
  | 'd' => let (n, s) := d.integer s; s.write (f.signed n)
  | 'i' => let (n, s) := d.integer s; s.write (f.signed n)
  | 'o' => let (n, s) := d.natural s; s.write (f.unsigned n)
  | 'u' => let (n, s) := d.natural s; s.write (f.unsigned n)
  | 'x' => let (n, s) := d.natural s; s.write (f.unsigned n)
  | 'X' => let (n, s) := d.natural s; s.write (f.unsigned n)
  | _ => let (x, s) := d.fraction s; s.write (f.fraction d.precision x)

def measureLimit : Int := 2147483647

/-- A width or a precision: a number, or a star that takes an argument, of which as much counts as
fits the measure. -/
def readMeasure (d : Dialect) (measure : String) (least : Int) (cs : List Char) (s : Printed) :
    Int × List Char × Printed :=
  match cs with
  | '*' :: rest =>
    let arg := s.args.headD ""
    let (n, s) := d.integer s
    if d.warns && (n < least || measureLimit < n) then
      (0, rest, s.fail ("invalid " ++ measure ++ ": " ++ d.name arg))
    else (if d.warns then n else n.bmod 4294967296, rest, s)
  | _ =>
    let (n, rest) := spanNumber 10 cs.length 0 cs
    (n, rest, s)

def printField (d : Dialect) (cs : List Char) (s : Printed) : List Char × Printed :=
  let flags := cs.takeWhile d.flags.toList.contains
  let (width, rest, s) :=
    d.readMeasure "field width" (-measureLimit - 1) (cs.drop flags.length) s
  let (precision, rest, s) :=
    match s.on, rest with
    | true, '.' :: rest =>
      let (n, rest, s) := d.readMeasure "precision" (-(halfWord : Int)) rest s
      (some n, rest, s)
    | _, _ => (none, rest, s)
  let pointed := precision.isSome
  let rest := rest.dropWhile d.sizes.toList.contains
  let plain := cs.length - rest.length
  if !s.on then ([], s)
  else match rest with
  | letter :: left =>
    if (d.letters flags pointed).toList.contains letter &&
        !(d.warns && (letter == 'b' || letter == 'q') && plain ≠ 0) then
      let f : Field := { flags, precision := (precision.filter (0 ≤ ·)).map Int.toNat, letter }
      (left, d.writeField (f.setWidth width) s)
    else
      ([], s.fail (String.ofList ('%' :: cs.take (plain + 1)) ++ ": " ++ d.badField))
  | [] =>
    if d.warns then ([], s.fail (String.ofList ('%' :: cs) ++ ": " ++ d.badField))
    else ([], s.fail "missing format character")

def printPass (d : Dialect) : Nat → List Char → Printed → Printed
  | 0, _, s => s
  | _, [], s => s
  | fuel + 1, c :: cs, s =>
    if !s.on then s
    else if c == '\\' then
      let (rest, s) := d.escape cs s
      printPass d fuel rest s
    else if c == '%' then
      match cs with
      | '%' :: rest => printPass d fuel rest (s.write "%")
      | _ =>
        let (rest, s) := d.printField cs s
        printPass d fuel rest s
    else printPass d fuel cs (s.write c.toString)

def printAll (d : Dialect) (format : List Char) : Nat → Printed → Printed
  | 0, s => s
  | fuel + 1, s =>
    let s := d.printPass (format.length + 1) format { s with used := false }
    if s.on && s.used && !s.args.isEmpty then printAll d format fuel s else s

def print (d : Dialect) (format : String) (args : List String) : Printed :=
  d.printAll format.toList (args.length + 1) { args }

end Dialect

/-! ### The printing program -/

def characterName (n : Nat) : String :=
  if n < 128 then (Char.ofNat n).toString
  else
    let digits := (String.ofList (Nat.toDigits 16 n)).toUpper
    if n < 0x10000 then "\\u" ++ Field.zeros (4 - digits.length) ++ digits
    else "\\U" ++ Field.zeros (8 - digits.length) ++ digits

def isUnnamed (n : Nat) : Bool :=
  (n ≤ 0x9F && n != 0x24 && n != 0x40 && n != 0x60) || (0xD800 ≤ n && n ≤ 0xDFFF)

def escapeCharacter (letter : Char) (cs : List Char) (s : Printed) : List Char × Printed :=
  let width := if letter == 'u' then 4 else 8
  let digits := cs.take width
  if digits.length < width || digits.any fun c => (Text.hexValue? c).isNone then
    ([], s.fail "missing hexadecimal number in escape")
  else
    let (n, _) := spanNumber 16 width 0 digits
    if isUnnamed n then
      ([], s.fail ("invalid universal character name \\" ++ letter.toString ++
        (String.ofList digits).toLower))
    else (cs.drop width, s.write (characterName n))

/-- The escapes of the printing program. In an argument, a zero may stand in front of the three
digits of an octal number. The escape that ends the output makes it a success, whatever failed
before. -/
def printEscape (argument : Bool) (cs : List Char) (s : Printed) : List Char × Printed :=
  match cs with
  | [] => ([], s.write "\\")
  | 'c' :: _ => ([], { s.stop with status := 0 })
  | 'e' :: rest => (rest, s.write "\x1b")
  | '"' :: rest => (rest, s.write "\"")
  | 'x' :: rest =>
    if (rest.head?.bind Text.hexValue?).isNone then
      ([], s.fail "missing hexadecimal number in escape")
    else
      let (n, rest) := spanNumber 16 2 0 rest
      (rest, s.write (byteOf n).toString)
  | c :: rest =>
    if isOctal c then
      let (e, rest) := spanOctal 3 (if argument && c == '0' then rest else cs)
      (rest, s.write e.toString)
    else if c == 'u' || c == 'U' then escapeCharacter c rest s
    else
      match letterEscape? c with
      | some e => (rest, s.write e.toString)
      | none => (rest, s.write (String.ofList ['\\', c]))

def printLetters (flags : List Char) (pointed : Bool) : String :=
  let has (c : Char) := flags.contains c
  String.ofList ("aAbcdeEfFgGioqsuxX".toList.filter fun letter =>
    !(has '\x27' && "aAceEosxX".toList.contains letter) &&
      !(has 'I' && "aAceEosxX".toList.contains letter) &&
      !(has '#' && "cdisu".toList.contains letter) &&
      !(has '0' && "cs".toList.contains letter) && !(pointed && letter == 'c'))

def printDialect : Dialect where
  name := quote
  notNumber := "expected a numeric value"
  leftover := "value not completely converted"
  warns := true
  precision := .extended
  flags := "-+ #0I\x27"
  letters := printLetters
  sizes := "lLhjtz"
  badField := "invalid conversion specification"
  escape := printEscape false
  argumentEscape := printEscape true

def printfKnown (name : String) : Known := { program := name, letters := [] }

def putPieces (name : String) (pieces : List (Except String String)) :
    Run (Option Disk.Refusal) := do
  pieces.foldlM (fun refused piece => do
    match piece with
    | .error complaint =>
      complain (name ++ ": " ++ complaint)
      return refused
    | .ok text => return refused.or (← put 1 text)) none

def printf (name : String) (args : List String) : Run Nat := do
  match if args.head? == some "--" then args.tail else args with
  | [] => (printfKnown name).advise "missing operand"
  | format :: args =>
    let s := printDialect.print format args
    let s :=
      match s.fault with
      | some fault => s.blame fault
      | none =>
        if s.on && !s.args.isEmpty then
          s.warn ("warning: ignoring excess arguments, starting with " ++ quote (s.args.headD ""))
        else s
    match ← putPieces name s.pieces.reverse with
    | none => return s.status
    | some refusal =>
      complain (name ++ ": write error: " ++ refusal.reason)
      return 1

/-! ### The printing command of the shell -/

def shellPrintEscape (cs : List Char) (s : Printed) : List Char × Printed :=
  match cs with
  | 'e' :: rest => (rest, s.write "\x1b")
  | c :: rest =>
    if isOctal c then
      let (e, rest) := spanOctal 3 cs
      (rest, s.write e.toString)
    else
      match letterEscape? c with
      | some e => (rest, s.write e.toString)
      | none => (cs, s.write "\\")
  | [] => ([], s.write "\\")

def shellArgumentEscape (cs : List Char) (s : Printed) : List Char × Printed :=
  match shellEscape cs with
  | .stop => ([], s.stop)
  | .char c rest => (rest, s.write c.toString)
  | .unknown => (cs, s.write "\\")

def shellPrintDialect : Dialect where
  name := id
  notNumber := "expected numeric value"
  leftover := "not completely converted"
  warns := false
  precision := .double
  flags := "#-+ 0"
  letters _ _ := "aAbcdeEfFgGiosuxX"
  sizes := ""
  badField := "invalid directive"
  escape := shellPrintEscape
  argumentEscape := shellArgumentEscape

end SourceOverlay.Process
