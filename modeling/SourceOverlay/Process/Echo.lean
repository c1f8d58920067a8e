import SourceOverlay.Process.Arguments
import SourceOverlay.Process.Number

/-!
# Escapes, and programs that echo

A backslash and what follows it may stand for a byte. Which escapes are known depends on the
program; one that is not known stands for itself. An escape with a `c` ends all output.
-/

set_option autoImplicit false

namespace SourceOverlay.Process

def letterEscape? (c : Char) : Option Char :=
  match c with
  | '\\' => some '\\'
  | 'a' => some '\x07'
  | 'b' => some '\x08'
  | 'f' => some '\x0c'
  | 'n' => some '\n'
  | 'r' => some '\r'
  | 't' => some '\t'
  | 'v' => some '\x0b'
  | _ => none

def isOctal (c : Char) : Bool := '0' ≤ c && c ≤ '7'

def byteOf (n : Nat) : Char := Char.ofNat (n % 256)

def spanOctal (limit : Nat) (cs : List Char) : Char × List Char :=
  let (n, rest) := spanNumber 8 limit 0 cs
  (byteOf n, rest)

inductive Escape where
  | char (c : Char) (rest : List Char)
  | stop
  | unknown

def echoEscape : List Char → Escape
  | 'c' :: _ => .stop
  | 'e' :: cs => .char '\x1b' cs
  | 'x' :: cs =>
    if (cs.head?.bind Text.hexValue?).isSome then
      let (n, rest) := spanNumber 16 2 0 cs
      .char (byteOf n) rest
    else .unknown
  | '0' :: cs => let (c, rest) := spanOctal 3 cs; .char c rest
  | c :: cs =>
    if isOctal c then let (c, rest) := spanOctal 3 (c :: cs); .char c rest
    else
      match letterEscape? c with
      | some e => .char e cs
      | none => .unknown
  | [] => .unknown

def shellEscape : List Char → Escape
  | 'c' :: _ => .stop
  | 'e' :: cs => .char '\x1b' cs
  | c :: cs =>
    if isOctal c then
      let digits := if c == '0' && cs.head?.any isOctal then cs else c :: cs
      let (e, rest) := spanOctal 3 digits
      .char e rest
    else
      match letterEscape? c with
      | some e => .char e cs
      | none => .unknown
  | [] => .unknown

/-- Replaces the escapes of a text. The flag says that output goes on after it. -/
def expandEscapes (escape : List Char → Escape) : Nat → List Char → List Char → List Char × Bool
  | 0, done, _ => (done.reverse, true)
  | _, done, [] => (done.reverse, true)
  | fuel + 1, done, '\\' :: cs =>
    match escape cs with
    | .stop => (done.reverse, false)
    | .char c rest => expandEscapes escape fuel (c :: done) rest
    | .unknown => expandEscapes escape fuel ('\\' :: done) cs
  | fuel + 1, done, c :: cs => expandEscapes escape fuel (c :: done) cs

def expand (escape : List Char → Escape) (text : String) : String × Bool :=
  let (cs, on) := expandEscapes escape (text.length + 1) [] text.toList
  (String.ofList cs, on)

/-! ### Echoing -/

def isEchoFlag (arg : String) : Bool :=
  match arg.toList with
  | '-' :: c :: cs => (c :: cs).all fun c => c == 'n' || c == 'e' || c == 'E'
  | _ => false

def echoText (args : List String) : String :=
  let flags := args.takeWhile isEchoFlag
  let letters := flags.flatMap String.toList
  let escapes := (letters.filter fun c => c == 'e' || c == 'E').getLast? == some 'e'
  let text := " ".intercalate (args.drop flags.length)
  let (text, on) := if escapes then expand echoEscape text else (text, true)
  if letters.contains 'n' || !on then text else text ++ "\n"

def echo (name : String) (args : List String) : Run Nat := finish name (echoText args) 0

def shellEchoText (args : List String) : String :=
  let bare := args.head? == some "-n"
  let (text, on) := expand shellEscape (" ".intercalate (if bare then args.tail else args))
  if bare || !on then text else text ++ "\n"

end SourceOverlay.Process
