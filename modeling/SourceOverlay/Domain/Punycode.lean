/-!
# Labels in plain letters

A label with other than plain characters can be spelled with these alone. The plain characters it
has come first, then a hyphen, and then for each of the others in turn how far it is from the one
before, counted through all code points and all places. Such a distance is a number with digits
from `a` to `9`, whose place values follow from the distances before it.
-/

set_option autoImplicit false

namespace SourceOverlay.Domain.Punycode

def base : Nat := 36

def limit : Nat := 0xFFFFFFFF

def digit? (c : Char) : Option Nat :=
  if 'a' ≤ c ∧ c ≤ 'z' then some (c.toNat - 'a'.toNat)
  else if 'A' ≤ c ∧ c ≤ 'Z' then some (c.toNat - 'A'.toNat)
  else if '0' ≤ c ∧ c ≤ '9' then some (c.toNat - '0'.toNat + 26)
  else none

def threshold (place bias : Nat) : Nat := max 1 (min 26 (place - bias))

def bounded? (n : Nat) : Option Nat := if n ≤ limit then some n else none

def readDistance (bias : Nat) : List Char → (place weight reached : Nat) → Option (Nat × List Char)
  | [], _, _, _ => none
  | c :: cs, place, weight, reached => do
    let digit ← digit? c
    let reached ← bounded? (reached + (← bounded? (digit * weight)))
    let least := threshold place bias
    if digit < least then some (reached, cs)
    else readDistance bias cs (place + base) (← bounded? (weight * (base - least))) reached

def shorten (distance bias : Nat) : Nat :=
  if 455 < distance then shorten (distance / 35) (bias + base)
  else bias + base * distance / (distance + 38)
  termination_by distance
  decreasing_by exact Nat.div_lt_self (by omega) (by omega)

def adapt (distance size : Nat) (isFirst : Bool) : Nat :=
  let distance := if isFirst then distance / 700 else distance / 2
  shorten (distance + distance / size) 0

def insertAll : Nat → List Char → (code reached bias : Nat) → List Char → Option (List Char)
  | 0, _, _, _, _, text => some text
  | fuel + 1, cs, code, reached, bias, text =>
    if cs.isEmpty then some text
    else do
      let (next, rest) ← readDistance bias cs base 1 reached
      let size := text.length + 1
      let code := code + next / size
      let place := next % size
      if code < 0xD800 ∨ (0xDFFF < code ∧ code < 0x110000) then
        let text := text.take place ++ Char.ofNat code :: text.drop place
        insertAll fuel rest code (place + 1) (adapt (next - reached) size (reached == 0)) text
      else none

def decode? (spelling : List Char) : Option (List Char) :=
  let tail := (spelling.reverse.takeWhile (· != '-')).reverse
  let plain := (spelling.take (spelling.length - tail.length)).dropLast
  let cs := if plain.isEmpty then spelling else tail
  insertAll cs.length cs 128 0 72 plain

end SourceOverlay.Domain.Punycode
