/-!
# Numbers of JSON texts

A number written as plain digits is an integer if it fits 64 bits. Every other number is a
binary64 value, kept as a mantissa and a power of two. It is read in two steps: the leading
digits that fit 64 bits are rounded first, and the result is then multiplied or divided by a
rounded power of ten. A number too large for binary64 has no value.
-/

set_option autoImplicit false

namespace SourceOverlay.Json

inductive Number where
  | integer (value : Int)
  | binary (negative : Bool) (mantissa : Nat) (exponent : Int)
  deriving Repr, DecidableEq

structure Literal where
  negative : Bool
  whole : List Char
  fraction : Option (List Char)
  exponent : Option (Bool × List Char)
  deriving Repr, DecidableEq

structure Binary where
  mantissa : Nat
  exponent : Int
  deriving Repr, DecidableEq

namespace Binary

def zero : Binary := ⟨0, 0⟩

def roundDiv (num den : Nat) : Nat :=
  let q := num / den
  let twice := 2 * (num % den)
  if den < twice || (twice == den && q % 2 == 1) then q + 1 else q

def scaleDown (num den : Nat) (e : Int) : Nat × Nat :=
  if 0 ≤ e then (num, den * Nat.pow 2 e.toNat) else (num * Nat.pow 2 (-e).toNat, den)

def ofFraction? (num den : Nat) : Option Binary :=
  if num = 0 then some zero
  else
    let guess : Int := (num.log2 : Int) - den.log2 - 52
    let (n, d) := scaleDown num den guess
    let exact :=
      if n / d < Nat.pow 2 52 then guess - 1
      else if Nat.pow 2 53 ≤ n / d then guess + 1
      else guess
    let e := max exact (-1074)
    let (n, d) := scaleDown num den e
    let m := roundDiv n d
    if 0 ≤ e && Nat.pow 2 1024 ≤ m * Nat.pow 2 e.toNat then none else some ⟨m, e⟩

def ofNat? (n : Nat) : Option Binary := ofFraction? n 1

def mul? (a b : Binary) : Option Binary :=
  let (n, d) := scaleDown (a.mantissa * b.mantissa) 1 (-(a.exponent + b.exponent))
  ofFraction? n d

def div? (a b : Binary) : Option Binary :=
  let (n, d) := scaleDown a.mantissa b.mantissa (b.exponent - a.exponent)
  ofFraction? n d

def largestPower : Nat := 308

def power? (k : Nat) : Option Binary := ofNat? (Nat.pow 10 k)

/-- Multiplies by a power of ten. A division beyond the largest power is done in several steps,
which end once nothing is left; three steps exhaust every 64-bit significand. -/
def scale? : Nat → Binary → Int → Option Binary
  | steps, f, e =>
    if e.natAbs ≤ largestPower then do
      let p ← power? e.natAbs
      if 0 ≤ e then f.mul? p else f.div? p
    else if f.mantissa = 0 then some f
    else if 0 ≤ e then none
    else match steps with
      | 0 => some zero
      | steps + 1 => do
        let p ← power? largestPower
        let g ← f.div? p
        scale? steps g (e + largestPower)

end Binary

def digitValue (c : Char) : Nat := c.toNat - '0'.toNat

def word : Nat := 18446744073709551616

/-- Appends digits to a significand as long as it fits 64 bits. Gives the significand, how many
digits it took and how many it left. -/
def appendDigits : Nat → List Char → Nat × Nat × Nat
  | significand, [] => (significand, 0, 0)
  | significand, c :: cs =>
    let next := significand * 10 + digitValue c
    if next < word then
      let (s, taken, left) := appendDigits next cs
      (s, taken + 1, left)
    else (significand, 0, cs.length + 1)

namespace Literal

def exponentLimit : Nat := 2147483648

def binary? (l : Literal) (significand : Nat) (power : Int) : Option Number := do
  let magnitude ←
    match l.exponent with
    | none => (Binary.ofNat? significand).bind fun f => Binary.scale? 3 f power
    | some (down, digits) =>
      let e := digits.foldl (fun n c => n * 10 + digitValue c) 0
      if exponentLimit ≤ e then
        if significand ≠ 0 && !down then none else some Binary.zero
      else
        (Binary.ofNat? significand).bind fun f =>
          Binary.scale? 3 f (if down then power - e else power + e)
  some (.binary l.negative magnitude.mantissa magnitude.exponent)

def value? (l : Literal) : Option Number :=
  let (whole, _, left) := appendDigits 0 l.whole
  match l.fraction with
  | some fraction =>
    let (significand, taken, _) := appendDigits whole fraction
    l.binary? significand (left - taken : Int)
  | none =>
    if l.exponent.isSome || left ≠ 0 then l.binary? whole left
    else if !l.negative then some (.integer whole)
    else if whole = 0 || word / 2 < whole then l.binary? whole 0
    else some (.integer (-whole))

end Literal

end SourceOverlay.Json
