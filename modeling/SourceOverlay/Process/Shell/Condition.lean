import SourceOverlay.Process.Number
import SourceOverlay.Process.Shell.State

/-!
# Conditions

Tests of texts, numbers and files, joined by operators. A word is an operator only where it has
operands: one that stands alone or in front of an operator with two operands is an operand itself.
-/

set_option autoImplicit false

namespace SourceOverlay.Process.Shell

inductive Operator where
  | unary
  | binary
  | negation
  | conjunction
  | disjunction
  | opening
  | closing
  deriving DecidableEq

def operator? (word : String) : Option Operator :=
  match word with
  | "!" => some .negation
  | "-a" => some .conjunction
  | "-o" => some .disjunction
  | "(" => some .opening
  | ")" => some .closing
  | _ =>
    if ["=", "!=", "<", ">", "-eq", "-ne", "-ge", "-gt", "-le", "-lt", "-nt", "-ot",
        "-ef"].contains word then some .binary
    else if word.length = 2 && word.toList.head? == some '-' &&
        "rwxefdcbpugkstznhOGLS".toList.contains (word.toList.getD 1 ' ') then some .unary
    else none

structure Test where
  words : Array String
  disk : Disk
  stream? : Nat → Option Stream

abbrev Testing := ReaderT Test (StateT Nat (Except String))

namespace Testing

def word? (i : Nat) : Testing (Option String) := return (← read).words[i]?

def isOperand (i : Nat) : Testing Bool := do
  match ← word? (i + 1), ← word? (i + 2) with
  | none, _ => return true
  | some _, none => return false
  | some next, some _ => return operator? next == some .binary

def operatorAt (i : Nat) : Testing (Option Operator) := do
  match ← word? i with
  | none => return none
  | some word =>
    match operator? word with
    | some .unary => return if ← isOperand i then none else some .unary
    | some .opening => return if (← word? (i + 1)).isNone then none else some .opening
    | other => return other

def complain {α : Type} (word message : String) : Testing α :=
  throw (if word == "" then message else word ++ ": " ++ message)

def number (text : String) : Testing Int :=
  match scanInteger? (some 10) text.toList with
  | some n =>
    if n.fits && n.rest.all isSpaceChar then return n.value
    else throw ("Illegal number: " ++ text)
  | none => throw ("Illegal number: " ++ text)

inductive Kind where
  | file (size : Nat) (runs : Bool)
  | directory
  | device
  | pipe
  deriving DecidableEq

def kindOf : Disk.Node → Option Kind
  | .file bytes => some (.file bytes.length false)
  | .directory => some .directory
  | .link _ => none

def streamKind? (disk : Disk) : Stream → Option Kind
  | .pipe _ _ => some .pipe
  | .file names _ _ => (disk.node? names).bind kindOf
  | .folder => some .directory
  | _ => some .device

def descriptorAt? (path : String) : Option Nat :=
  if Disk.isRooted path then descriptorNamed? path else none

def kind? (test : Test) (path : String) : Option Kind :=
  match descriptorAt? path with
  | some number => (test.stream? number).bind (streamKind? test.disk)
  | none =>
    if (programAt? path).isSome then some (.file 1 true)
    else if (deviceNamed? path).isSome then some .device
    else (test.disk.find (Text.cooked path)).toOption.bind fun found => kindOf found.2

def isLink (test : Test) (path : String) : Bool :=
  match descriptorAt? path, test.disk.placeWith false (Text.cooked path) with
  | some number, _ => (test.stream? number).isSome
  | none, .ok (.node _ (.link _)) => true
  | none, _ => false

def isLarge : Kind → Bool
  | .file size _ => 0 < size
  | .directory => true
  | _ => false

def canRun : Kind → Bool
  | .file _ runs => runs
  | .directory => true
  | _ => false

def isPlain : Kind → Bool
  | .file _ _ => true
  | _ => false

def unary (letter : Char) (operand : String) : Testing Bool := do
  let kind := kind? (← read) operand
  match letter with
  | 'z' => return operand == ""
  | 'n' => return operand != ""
  | 't' =>
    let _ ← number operand
    return false
  | 'e' => return kind.isSome
  | 'r' => return kind.isSome
  | 'w' => return kind.isSome
  | 'O' => return kind.isSome
  | 'G' => return kind.isSome
  | 'x' => return kind.any canRun
  | 'f' => return kind.any isPlain
  | 'd' => return kind == some .directory
  | 'c' => return kind == some .device
  | 's' => return kind.any isLarge
  | 'p' => return kind == some .pipe
  | 'h' => return isLink (← read) operand
  | 'L' => return isLink (← read) operand
  | _ => return false

def samePlace (disk : Disk) (a b : String) : Bool :=
  match disk.find (Text.cooked a), disk.find (Text.cooked b) with
  | .ok (m, _), .ok (n, _) => m == n
  | _, _ => false

def binary (sign a b : String) : Testing Bool := do
  match sign with
  | "=" => return a == b
  | "!=" => return a != b
  | "<" => return a < b
  | ">" => return b < a
  | "-ef" => return samePlace (← read).disk a b
  | "-nt" => return false
  | "-ot" => return false
  | _ =>
    let m ← number a
    let n ← number b
    match sign with
    | "-eq" => return m == n
    | "-ne" => return m != n
    | "-ge" => return n ≤ m
    | "-gt" => return n < m
    | "-le" => return m ≤ n
    | _ => return m < n

def primary (inner : Option Operator → Testing Bool) (start : Option Operator) : Testing Bool := do
  let i ← get
  match ← word? i, start with
  | none, _ => return false
  | some _, some .opening =>
    set (i + 1)
    let next ← operatorAt (i + 1)
    if next == some .closing then return false
    let result ← inner next
    let j ← get
    set (j + 1)
    if (← operatorAt (j + 1)) ≠ some .closing then complain "" "closing paren expected"
    return result
  | some word, some .unary =>
    set (i + 1)
    match ← word? (i + 1) with
    | some operand => unary (word.toList.getD 1 ' ') operand
    | none => complain word "argument expected"
  | some word, _ =>
    if (← operatorAt (i + 1)) = some .binary then
      set (i + 2)
      let sign := (← word? (i + 1)).getD ""
      match ← word? (i + 2) with
      | some operand => binary sign word operand
      | none => complain sign "argument expected"
    else return word != ""

def negated (inner : Option Operator → Testing Bool) : Nat → Option Operator → Testing Bool
  | 0, _ => return false
  | fuel + 1, start => do
    if start ≠ some .negation then primary inner start
    else
      let i ← get
      let next ← operatorAt (i + 1)
      set (i + 1)
      return !(← negated inner fuel next)

def allOf (inner : Option Operator → Testing Bool) : Nat → Option Operator → Testing Bool
  | 0, _ => return false
  | fuel + 1, start => do
    let first ← negated inner fuel start
    let i ← get
    if (← operatorAt (i + 1)) = some .conjunction then
      set (i + 2)
      let rest ← allOf inner fuel (← operatorAt (i + 2))
      return first && rest
    else return first

def anyOf (inner : Option Operator → Testing Bool) : Nat → Option Operator → Testing Bool
  | 0, _ => return false
  | fuel + 1, start => do
    let first ← allOf inner fuel start
    let i ← get
    if (← operatorAt (i + 1)) = some .disjunction then
      set (i + 2)
      let rest ← anyOf inner fuel (← operatorAt (i + 2))
      return first || rest
    else return first

def nested : Nat → Option Operator → Testing Bool
  | 0, _ => return false
  | depth + 1, start => do
    let fuel := (← read).words.size + 2
    anyOf (nested depth) fuel start

def whole (place : Nat) (looked : Bool) : Testing Bool := do
  set place
  let start ← if looked then operatorAt place else pure none
  let result ← nested ((← read).words.size + 1) start
  let i ← get
  match ← word? i, ← word? (i + 1) with
  | some word, some _ => complain word "unexpected operator"
  | _, _ => return result

end Testing

/-- Whether a condition holds. Few words are read by rules of their own: three with an operator in
the middle are that test, and parentheses or a negation around them are taken off first. -/
def holds (disk : Disk) (stream? : Nat → Option Stream) :
    Bool → List String → Except String Bool
  | _, [] => .ok false
  | negate, words =>
    let run (place : Nat) (looked : Bool) (ws : List String) : Except String Bool := do
      let (result, _) ← ((Testing.whole place looked).run ⟨ws.toArray, disk, stream?⟩).run 0
      return result != negate
    match words with
    | [a, b, c] =>
      if operator? b == some .binary then run 0 false words
      else if a == "(" && c == ")" then run 0 true [b]
      else if a == "!" then holds disk stream? (!negate) [b, c]
      else run 0 true words
    | [a, b, c, d] =>
      if a == "(" && d == ")" then run 0 true [b, c]
      else if a == "!" then holds disk stream? (!negate) [b, c, d]
      else run 0 true words
    | _ => run 0 true words

end SourceOverlay.Process.Shell
