import SourceOverlay.Process.Number
import SourceOverlay.Process.Shell.Script

/-!
# Sums

Expressions over 64-bit integers, with the operators and the precedence of the C language as far
as they concern integers without side effects, and with assignments. Variables hold texts that are
read as numbers when they are needed. Operands that a condition leaves out are read but neither
looked up nor assigned.
-/

set_option autoImplicit false

namespace SourceOverlay.Process.Shell

structure Ledger where
  value? : String → Option String
  fixed : String → Bool

inductive SumFault where
  | expression (message : String)
  | badNumber (text : String)
  | fixed (name : String)

inductive SumToken where
  | number (n : Int)
  | name (text : String)
  | sign (text : String)
  | ended
  deriving DecidableEq

def sumSigns : List String :=
  ["<<=", ">>=", "<<", ">>", "<=", ">=", "==", "!=", "&&", "||", "+=", "-=", "*=", "/=", "%=", "&=",
    "^=", "|=", "+", "-", "*", "/", "%", "&", "^", "|", "<", ">", "=", "!", "~", "?", ":", "(", ")"]

structure SumState where
  input : List Char
  token : SumToken := .ended
  assigned : List (String × String) := []

abbrev Sum := StateT SumState (Except SumFault)

namespace Sum

def fail {α : Type} (message : String) : Sum α := fun _ => .error (.expression message)

def advance : Sum Unit := do
  let s ← get
  let cs := s.input.dropWhile fun c => c == ' ' || c == '\t' || c == '\n'
  match cs with
  | [] => set { s with input := [], token := .ended }
  | c :: _ =>
    if c.isDigit then
      match scanInteger? none cs with
      | some n => set { s with input := n.rest, token := .number n.clamped }
      | none => set { s with input := cs, token := .sign c.toString }
    else if isNameStart c then
      let name := cs.takeWhile isNameChar
      set { s with input := cs.drop name.length, token := .name (String.ofList name) }
    else
      match sumSigns.find? fun sign => sign.toList.isPrefixOf cs with
      | some sign => set { s with input := cs.drop sign.length, token := .sign sign }
      | none => set { s with input := cs.drop 1, token := .sign "bad" }

def token : Sum SumToken := return (← get).token

def numberOf? (text : String) : Option Int :=
  let cs := text.toList
  if cs.all isSpaceChar then some 0
  else
    match scanInteger? none cs with
    | some n => if n.fits && n.rest.all isSpaceChar then some n.value else none
    | none => none

def lookUp (l : Ledger) (name : String) : Sum Int := do
  let s ← get
  match (s.assigned.lookup name).or (l.value? name) with
  | none => return 0
  | some text =>
    match numberOf? text with
    | some n => return n
    | none => fun _ => .error (.badNumber text)

def assign (l : Ledger) (name : String) (value : Int) : Sum Int := do
  if l.fixed name then fun _ => .error (.fixed name)
  else
    modify fun s => { s with assigned := (name, toString value) :: s.assigned }
    return value

def strength? (sign : String) : Option Nat :=
  match sign with
  | "*" => some 0
  | "/" => some 0
  | "%" => some 0
  | "+" => some 1
  | "-" => some 1
  | "<<" => some 2
  | ">>" => some 2
  | "<" => some 3
  | "<=" => some 3
  | ">" => some 3
  | ">=" => some 3
  | "==" => some 4
  | "!=" => some 4
  | "&" => some 5
  | "^" => some 6
  | "|" => some 7
  | _ => none

def truth (b : Bool) : Int := if b then 1 else 0

def bits (n : Int) : Nat := (n % (fullWord : Int)).toNat

def calculate (sign : String) (a b : Int) : Sum Int :=
  match sign with
  | "*" => return wrap (a * b)
  | "/" => if b = 0 then fail "division by zero" else return wrap (a.tdiv b)
  | "%" => if b = 0 then fail "division by zero" else return wrap (a.tmod b)
  | "+" => return wrap (a + b)
  | "-" => return wrap (a - b)
  | "<<" => return wrap (a * (Nat.pow 2 (bits b % 64) : Nat))
  | ">>" => return a.fdiv (Nat.pow 2 (bits b % 64) : Nat)
  | "<" => return truth (a < b)
  | "<=" => return truth (a ≤ b)
  | ">" => return truth (b < a)
  | ">=" => return truth (b ≤ a)
  | "==" => return truth (a = b)
  | "!=" => return truth (a ≠ b)
  | "&" => return wrap (bits a &&& bits b : Nat)
  | "^" => return wrap (bits a ^^^ bits b : Nat)
  | _ => return wrap (bits a ||| bits b : Nat)

def assignSign? (sign : String) : Option String :=
  if ["<<=", ">>=", "+=", "-=", "*=", "/=", "%=", "&=", "^=", "|="].contains sign then
    some (String.ofList sign.toList.dropLast)
  else none

/-- The readers of an expression, each one level less deep than the one that calls it. The flag
says that the expression does not count. -/
structure Depth where
  assignment : Bool → Sum Int
  primary : Bool → Sum Int
  conditional : Bool → Sum Int

def primaryStep (l : Ledger) (d : Depth) (idle : Bool) : Sum Int := do
  match ← token with
  | .number n =>
    advance
    return n
  | .name name =>
    advance
    if idle then return 0 else lookUp l name
  | .sign "(" =>
    advance
    let n ← d.assignment idle
    if (← token) ≠ .sign ")" then fail "expecting ')'"
    advance
    return n
  | .sign "+" =>
    advance
    d.primary idle
  | .sign "-" =>
    advance
    return wrap (-(← d.primary idle))
  | .sign "!" =>
    advance
    return truth ((← d.primary idle) = 0)
  | .sign "~" =>
    advance
    return wrap (-(← d.primary idle) - 1)
  | _ => fail "expecting primary"

def climb (d : Depth) (idle : Bool) : Nat → Nat → Int → Sum Int
  | 0, _, a => return a
  | fuel + 1, limit, a => do
    match ← token with
    | .sign sign =>
      match strength? sign with
      | some s =>
        if limit ≤ s then return a
        advance
        let b ← d.primary idle
        let b ← climb d idle fuel s b
        let c ← if idle then pure b else calculate sign a b
        climb d idle fuel limit c
      | none => return a
    | _ => return a

def operand (d : Depth) (idle : Bool) : Sum Int := do
  let a ← d.primary idle
  climb d idle ((← get).input.length + 2) 8 a

def conjunction (d : Depth) (idle : Bool) : Nat → Sum Int
  | 0 => return 0
  | fuel + 1 => do
    let a ← operand d idle
    if (← token) ≠ .sign "&&" then return a
    advance
    let b ← conjunction d (idle || a = 0) fuel
    return truth (a ≠ 0 && b ≠ 0)

def disjunction (d : Depth) (idle : Bool) : Nat → Sum Int
  | 0 => return 0
  | fuel + 1 => do
    let a ← conjunction d idle ((← get).input.length + 2)
    if (← token) ≠ .sign "||" then return a
    advance
    let b ← disjunction d (idle || a ≠ 0) fuel
    return truth (a ≠ 0 || b ≠ 0)

def conditionalStep (d : Depth) (idle : Bool) : Sum Int := do
  let a ← disjunction d idle ((← get).input.length + 2)
  if (← token) ≠ .sign "?" then return a
  advance
  let b ← d.assignment (idle || a = 0)
  if (← token) ≠ .sign ":" then fail "expecting ':'"
  advance
  let c ← d.conditional (idle || a ≠ 0)
  return if a ≠ 0 then b else c

def assignmentStep (l : Ledger) (d : Depth) (idle : Bool) : Sum Int := do
  let start ← get
  match start.token with
  | .name name =>
    advance
    match ← token with
    | .sign sign =>
      match sign == "=", assignSign? sign with
      | true, _ =>
        advance
        let n ← d.assignment idle
        if idle then return n else assign l name n
      | false, some operator =>
        advance
        let n ← d.assignment idle
        if idle then return n
        let old ← lookUp l name
        assign l name (← calculate operator old n)
      | false, none =>
        set start
        conditionalStep d idle
    | _ =>
      set start
      conditionalStep d idle
  | _ => conditionalStep d idle

def depth (l : Ledger) : Nat → Depth
  | 0 => ⟨fun _ => fail "expecting primary", fun _ => fail "expecting primary",
      fun _ => fail "expecting primary"⟩
  | n + 1 =>
    let d := depth l n
    ⟨assignmentStep l d, primaryStep l d, conditionalStep d⟩

def whole (l : Ledger) (fuel : Nat) : Sum Int := do
  advance
  let n ← (depth l fuel).assignment false
  if (← token) ≠ .ended then fail "expecting EOF"
  return n

def evaluate (l : Ledger) (text : String) : Except SumFault (Int × List (String × String)) := do
  let (n, s) ← (whole l (text.length + 3)).run { input := text.toList }
  return (n, s.assigned)

end Sum

end SourceOverlay.Process.Shell
