import SourceOverlay.Json.Basic
import SourceOverlay.Text.Hex

/-!
# Reading JSON texts

A text is read in two steps. `Tree.read` checks the grammar alone: numbers keep their spelling, a
string that spells half of a surrogate pair is noted as no text, members keep their order and
their repetitions, and nesting is not limited. What a caller takes from the tree is checked when
it is taken: `Tree.value?` demands numbers in range, proper texts and limited nesting, while a part
that nobody takes is held to the grammar only.
-/

set_option autoImplicit false

namespace SourceOverlay.Json

inductive Tree where
  | null
  | bool (value : Bool)
  | number (literal : Literal)
  | string (text : Option String)
  | array (elements : List Tree)
  | object (members : List (Option String × Tree))
  deriving Repr

structure Fault where
  reason : String
  line : Nat
  column : Nat
  deriving Repr, DecidableEq

namespace Fault

def message (f : Fault) : String :=
  f.reason ++ " at line " ++ toString f.line ++ " column " ++ toString f.column

def after (reason : String) (before : List Char) : Fault :=
  ⟨reason, 1 + before.count '\n', (before.reverse.takeWhile (· != '\n')).length⟩

end Fault

abbrev Reader (α : Type) := List Char → Except (List Char) (α × List Char)

def isSpace (c : Char) : Bool := c == ' ' || c == '\n' || c == '\t' || c == '\r'

def skipSpace (cs : List Char) : List Char := cs.dropWhile isSpace

def hex4? (a b c d : Char) : Option Nat := do
  let a ← Text.hexValue? a
  let b ← Text.hexValue? b
  let c ← Text.hexValue? c
  let d ← Text.hexValue? d
  some (((a * 16 + b) * 16 + c) * 16 + d)

def isHighSurrogate (n : Nat) : Bool := 0xD800 ≤ n && n ≤ 0xDBFF

def isLowSurrogate (n : Nat) : Bool := 0xDC00 ≤ n && n ≤ 0xDFFF

def pairValue (high low : Nat) : Nat := 0x10000 + (high - 0xD800) * 0x400 + (low - 0xDC00)

def escaped? (c : Char) : Option Char :=
  match c with
  | '"' => some '"'
  | '\\' => some '\\'
  | '/' => some '/'
  | 'b' => some '\x08'
  | 'f' => some '\x0c'
  | 'n' => some '\n'
  | 'r' => some '\r'
  | 't' => some '\t'
  | _ => none

/-- A string read so far: its characters in reverse, a high surrogate that waits for its partner,
and whether every surrogate before it found one. -/
structure TextState where
  chars : List Char := []
  high : Option Nat := none
  whole : Bool := true

namespace TextState

def settle (s : TextState) : TextState := ⟨s.chars, none, s.whole && s.high.isNone⟩

def char (s : TextState) (c : Char) : TextState :=
  let s := s.settle
  { s with chars := c :: s.chars }

def unit (s : TextState) (n : Nat) : TextState :=
  match s.high, isLowSurrogate n with
  | some high, true => ⟨Char.ofNat (pairValue high n) :: s.chars, none, s.whole⟩
  | none, true => { s with whole := false }
  | _, false =>
    if isHighSurrogate n then { s.settle with high := some n } else s.char (Char.ofNat n)

def text? (s : TextState) : Option String :=
  let s := s.settle
  if s.whole then some (String.ofList s.chars.reverse) else none

end TextState

def readText (s : TextState) : Reader (Option String)
  | '"' :: rest => .ok (s.text?, rest)
  | '\\' :: 'u' :: a :: b :: c :: d :: rest =>
    match hex4? a b c d with
    | none => .error (a :: b :: c :: d :: rest)
    | some n => readText (s.unit n) rest
  | '\\' :: c :: rest =>
    match escaped? c with
    | none => .error (c :: rest)
    | some e => readText (s.char e) rest
  | c :: rest =>
    if c.toNat < 0x20 || c == '\\' then .error (c :: rest) else readText (s.char c) rest
  | [] => .error []

def spanDigits (cs : List Char) : List Char × List Char :=
  (cs.takeWhile Char.isDigit, cs.dropWhile Char.isDigit)

def readDigits : Reader (List Char) := fun cs =>
  let (digits, rest) := spanDigits cs
  if digits.isEmpty then .error rest else .ok (digits, rest)

def readFraction : Reader (Option (List Char))
  | '.' :: rest => (readDigits rest).map fun (digits, rest) => (some digits, rest)
  | cs => .ok (none, cs)

def readExponent : Reader (Option (Bool × List Char))
  | c :: rest =>
    if c == 'e' || c == 'E' then
      let (down, rest) :=
        match rest with
        | '-' :: rest => (true, rest)
        | '+' :: rest => (false, rest)
        | _ => (false, rest)
      (readDigits rest).map fun (digits, rest) => (some (down, digits), rest)
    else .ok (none, c :: rest)
  | [] => .ok (none, [])

def readNumber : Reader Literal := fun cs => do
  let (negative, cs) :=
    match cs with
    | '-' :: rest => (true, rest)
    | _ => (false, cs)
  let (whole, rest) ← readDigits cs
  if whole.head? == some '0' && 1 < whole.length then throw rest
  let (fraction, rest) ← readFraction rest
  let (exponent, rest) ← readExponent rest
  return (⟨negative, whole, fraction, exponent⟩, rest)

def readWord (w : String) (t : Tree) : Reader Tree := fun cs =>
  if w.toList.isPrefixOf cs then .ok (t, cs.drop w.length) else .error cs

namespace Tree

mutual

/-- Reads one value. The first argument bounds the number of nested calls. -/
def readValue : Nat → Reader Tree
  | 0, cs => .error cs
  | fuel + 1, cs =>
    match skipSpace cs with
    | '"' :: rest => (readText {} rest).map fun (text, rest) => (.string text, rest)
    | '[' :: rest =>
      match skipSpace rest with
      | ']' :: rest => .ok (.array [], rest)
      | rest => readElements fuel [] rest
    | '{' :: rest =>
      match skipSpace rest with
      | '}' :: rest => .ok (.object [], rest)
      | rest => readMembers fuel [] rest
    | 'n' :: rest => readWord "null" .null ('n' :: rest)
    | 't' :: rest => readWord "true" (.bool true) ('t' :: rest)
    | 'f' :: rest => readWord "false" (.bool false) ('f' :: rest)
    | rest => (readNumber rest).map fun (literal, rest) => (.number literal, rest)

def readElements : Nat → List Tree → Reader Tree
  | 0, _, cs => .error cs
  | fuel + 1, read, cs => do
    let (t, rest) ← readValue fuel cs
    match skipSpace rest with
    | ',' :: rest => readElements fuel (t :: read) rest
    | ']' :: rest => return (.array (t :: read).reverse, rest)
    | rest => throw rest

def readMembers : Nat → List (Option String × Tree) → Reader Tree
  | 0, _, cs => .error cs
  | fuel + 1, read, cs => do
    match skipSpace cs with
    | '"' :: rest =>
      let (key, rest) ← readText {} rest
      match skipSpace rest with
      | ':' :: rest =>
        let (t, rest) ← readValue fuel rest
        match skipSpace rest with
        | ',' :: rest => readMembers fuel ((key, t) :: read) rest
        | '}' :: rest => return (.object ((key, t) :: read).reverse, rest)
        | rest => throw rest
      | rest => throw rest
    | rest => throw rest

end

/-- Reads a whole text. Two calls are made for each character at most. -/
def read (text : String) : Except Fault Tree :=
  let cs := text.toList
  let fault (rest : List Char) := Fault.after "unexpected text" (cs.take (cs.length - rest.length))
  match readValue (2 * cs.length + 2) cs with
  | .error rest => .error (fault rest)
  | .ok (t, rest) =>
    match skipSpace rest with
    | [] => .ok t
    | rest => .error (fault rest)

def nestingLimit : Nat := 127

mutual

def value? : Nat → Tree → Option Json
  | _, .null => some .null
  | _, .bool value => some (.bool value)
  | _, .number literal => literal.value?.map .number
  | _, .string text => text.map .string
  | 0, .array _ => none
  | 0, .object _ => none
  | nesting + 1, .array elements => (values? nesting elements).map .array
  | nesting + 1, .object members => (memberValues? nesting members).map ofMembers

def values? : Nat → List Tree → Option (List Json)
  | _, [] => some []
  | nesting, t :: ts => do
    let v ← value? nesting t
    let vs ← values? nesting ts
    some (v :: vs)

def memberValues? : Nat → List (Option String × Tree) → Option (List (String × Json))
  | _, [] => some []
  | nesting, (key, t) :: ms => do
    let key ← key
    let v ← value? nesting t
    let vs ← memberValues? nesting ms
    some ((key, v) :: vs)

end

end Tree

def Fault.shape (text : String) : Fault := Fault.after "unexpected shape" text.toList

def read (text : String) : Except Fault Json := do
  let tree ← Tree.read text
  match Tree.value? Tree.nestingLimit tree with
  | some value => return value
  | none => throw (Fault.shape text)

end SourceOverlay.Json
