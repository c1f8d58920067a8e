import SourceOverlay.Text.Hex
import SourceOverlay.Text.Raw

/-!
# Numbers in arguments

Integers and fractions as programs read them: blanks and a sign in front, a mark for the base, as
many digits as there are, and whatever is left. Fractions are kept exactly and then rounded to a
number of bits, a half to the even neighbour.
-/

set_option autoImplicit false

namespace SourceOverlay.Process

/-! ### Integers -/

def isSpaceChar (c : Char) : Bool := c == ' ' || ('\t' ≤ c && c ≤ '\r')

def digitIn? (base : Nat) (c : Char) : Option Nat :=
  (Text.hexValue? c).filter (· < base)

def spanNumber (base : Nat) : Nat → Nat → List Char → Nat × List Char
  | 0, n, cs => (n, cs)
  | _ + 1, n, [] => (n, [])
  | limit + 1, n, c :: cs =>
    match digitIn? base c with
    | some v => spanNumber base limit (n * base + v) cs
    | none => (n, c :: cs)

def spanSign : List Char → Bool × List Char
  | '-' :: cs => (true, cs)
  | '+' :: cs => (false, cs)
  | cs => (false, cs)

def spanBase (cs : List Char) : Nat × List Char :=
  match cs with
  | '0' :: x :: d :: rest =>
    if (x == 'x' || x == 'X') && (digitIn? 16 d).isSome then (16, d :: rest) else (8, cs)
  | '0' :: _ => (8, cs)
  | _ => (10, cs)

structure Scanned where
  negative : Bool
  magnitude : Nat
  rest : List Char

def scanInteger? (base : Option Nat) (cs : List Char) : Option Scanned :=
  let (negative, cs) := spanSign (cs.dropWhile isSpaceChar)
  let (base, digits) :=
    match base with
    | some base => (base, cs)
    | none => spanBase cs
  if (digits.head?.bind (digitIn? base)).isNone then none
  else
    let (magnitude, rest) := spanNumber base digits.length 0 digits
    some ⟨negative, magnitude, rest⟩

def halfWord : Nat := 9223372036854775808

def fullWord : Nat := 18446744073709551616

namespace Scanned

def value (s : Scanned) : Int := if s.negative then -(s.magnitude : Int) else s.magnitude

def fits (s : Scanned) : Bool :=
  if s.negative then s.magnitude ≤ halfWord else s.magnitude < halfWord

def clamped (s : Scanned) : Int :=
  if s.fits then s.value else if s.negative then -(halfWord : Int) else halfWord - 1

def fitsUnsigned (s : Scanned) : Bool := s.magnitude < fullWord

def unsigned (s : Scanned) : Nat :=
  if !s.fitsUnsigned then fullWord - 1
  else if s.negative then (fullWord - s.magnitude) % fullWord
  else s.magnitude

end Scanned

def wrap (n : Int) : Int := Int.bmod n fullWord

/-! ### Fractions -/

inductive Magnitude where
  | finite (mantissa : Nat) (exponent : Int)
  | infinite
  | undefined
  deriving Repr, DecidableEq

structure Fraction where
  negative : Bool
  magnitude : Magnitude
  fits : Bool := true
  deriving Repr, DecidableEq

structure Precision where
  bits : Nat
  least : Int
  beyond : Nat

def Precision.double : Precision := ⟨53, -1074, 1024⟩

def Precision.extended : Precision := ⟨64, -16445, 16384⟩

def roundQuotient (num den : Nat) : Nat :=
  let q := num / den
  let twice := 2 * (num % den)
  if den < twice || (twice == den && q % 2 == 1) then q + 1 else q

def shifted (num den : Nat) (e : Int) : Nat × Nat :=
  if 0 ≤ e then (num, den * Nat.pow 2 e.toNat) else (num * Nat.pow 2 (-e).toNat, den)

def Precision.round (p : Precision) (num den : Nat) : Magnitude :=
  if num = 0 then .finite 0 0
  else
    let guess : Int := (num.log2 : Int) - den.log2 - (p.bits - 1 : Nat)
    let (n, d) := shifted num den guess
    let exact :=
      if n / d < Nat.pow 2 (p.bits - 1) then guess - 1
      else if Nat.pow 2 p.bits ≤ n / d then guess + 1
      else guess
    let e := max exact p.least
    let (n, d) := shifted num den e
    let m := roundQuotient n d
    let (m, e) := if m = Nat.pow 2 p.bits then (m / 2, e + 1) else (m, e)
    if 0 ≤ e && Nat.pow 2 p.beyond ≤ m * Nat.pow 2 e.toNat then .infinite
    else .finite m e

/-- Whether a quotient keeps its bits: it is not beyond all magnitudes, and if it is so small that
it has fewer bits than others, none is lost. -/
def Precision.keeps (p : Precision) (num den : Nat) : Bool :=
  match p.round num den with
  | .infinite => false
  | .undefined => true
  | .finite _ _ =>
    let (n, d) := shifted num den p.least
    let (half, den) := shifted num den (p.least - 1)
    n % d == 0 || Nat.pow 2 p.bits ≤ roundQuotient half den

def lowerText (cs : List Char) : List Char := cs.map Char.toLower

def dropWord? (word : String) (cs : List Char) : Option (List Char) :=
  if word.toList.isPrefixOf (lowerText cs) then some (cs.drop word.length) else none

def spanExponent (letter : Char) (cs : List Char) : Int × List Char :=
  match cs with
  | c :: rest =>
    let (negative, digits) := spanSign rest
    if c.toLower == letter && (digits.head?.bind (digitIn? 10)).isSome then
      let (n, left) := spanNumber 10 digits.length 0 digits
      (if negative then -(n : Int) else n, left)
    else (0, cs)
  | [] => (0, [])

def spanPoint? (base : Nat) (cs : List Char) : Option (Nat × Nat × List Char) :=
  let (whole, rest) := spanNumber base cs.length 0 cs
  let before := cs.length - rest.length
  match rest with
  | '.' :: after =>
    let (all, left) := spanNumber base after.length whole after
    let places := after.length - left.length
    if before + places = 0 then none else some (all, places, left)
  | _ => if before = 0 then none else some (whole, 0, rest)

def clampExponent (e : Int) : Int := max (-20000) (min 20000 e)

def scanQuotient? (cs : List Char) : Option (Nat × Nat × List Char) :=
  let hex? : Option (Nat × Nat × List Char) :=
    match cs with
    | '0' :: x :: rest =>
      if x == 'x' || x == 'X' then do
        let (n, places, rest) ← spanPoint? 16 rest
        let (e, rest) := spanExponent 'p' rest
        let (num, den) := shifted n 1 (4 * places - clampExponent e)
        some (num, den, rest)
      else none
    | _ => none
  match hex? with
  | some found => some found
  | none => do
    let (n, places, rest) ← spanPoint? 10 cs
    let (e, rest) := spanExponent 'e' rest
    let e := clampExponent e - places
    some (if 0 ≤ e then (n * Nat.pow 10 e.toNat, 1, rest) else (n, Nat.pow 10 (-e).toNat, rest))

def dropNote (cs : List Char) : List Char :=
  match cs with
  | '(' :: rest =>
    let note := rest.takeWhile fun c => c.isAlphanum || c == '_'
    match rest.drop note.length with
    | ')' :: left => left
    | _ => cs
  | _ => cs

def scanFraction? (p : Precision) (cs : List Char) : Option (Fraction × List Char) :=
  let (negative, cs) := spanSign (cs.dropWhile isSpaceChar)
  match (dropWord? "infinity" cs).orElse fun _ => dropWord? "inf" cs with
  | some rest => some (⟨negative, .infinite, true⟩, rest)
  | none =>
    match dropWord? "nan" cs with
    | some rest => some (⟨negative, .undefined, true⟩, dropNote rest)
    | none =>
      (scanQuotient? cs).map fun (num, den, rest) =>
        (⟨negative, p.round num den, p.keeps num den⟩, rest)

end SourceOverlay.Process
