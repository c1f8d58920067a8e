import SourceOverlay.Text.Hex

/-!
# Numbers for hosts

A host may be named by a number. An address of four bytes is written as up to four numbers with
points between them, each decimal, octal after a zero or hexadecimal after `0x`; the last one fills
all bytes that are left. An address of eight pieces has hexadecimal numbers with colons between
them. A double colon stands once for pieces that are zero, and the last two pieces may be written
as four decimal numbers.
-/

set_option autoImplicit false

namespace SourceOverlay.Uri.Address

def natural? (base : Nat) (digits : List Char) : Option Nat :=
  digits.foldlM (fun n c => do
    let digit ← Text.hexValue? c
    if digit < base then some (n * base + digit) else none) 0

/-! ### Four bytes -/

def number? : List Char → Option Nat
  | [] => none
  | '0' :: 'x' :: digits => natural? 16 digits
  | '0' :: 'X' :: digits => natural? 16 digits
  | '0' :: digit :: digits => natural? 8 (digit :: digits)
  | digits => natural? 10 digits

def parts (labels : List (List Char)) : List (List Char) :=
  if labels.getLast? == some [] then labels.dropLast else labels

def isNumeric (labels : List (List Char)) : Bool :=
  (parts labels).getLast?.any fun last =>
    (!last.isEmpty && last.all fun c => '0' ≤ c && c ≤ '9') || (number? last).isSome

def ofNumbers? (numbers : List Nat) : Option Nat :=
  match numbers.reverse with
  | [] => none
  | last :: firsts =>
    let left := 4 - firsts.length
    if firsts.length ≤ 3 && last < Nat.pow 256 left && firsts.all (· < 256) then
      some (firsts.reverse.foldl (fun n byte => n * 256 + byte) 0 * Nat.pow 256 left + last)
    else none

def four? (labels : List (List Char)) : Option Nat := do
  ofNumbers? (← (parts labels).mapM number?)

/-! ### Eight pieces -/

def byte? : List Char → Option Nat
  | '0' :: _ :: _ => none
  | [] => none
  | digits => do
    let n ← natural? 10 digits
    if n < 256 then some n else none

def dotted? (cs : List Char) : Option (List Nat) := do
  match ← (cs.splitOnP (· == '.')).mapM byte? with
  | [a, b, c, d] => some [a * 256 + b, c * 256 + d]
  | _ => none

def piece? (cs : List Char) : Option Nat :=
  if cs.isEmpty || 4 < cs.length then none else natural? 16 cs

/-- The pieces between colons. The last ones may be written as decimal numbers if `dotted` says
so. -/
def pieces? (dotted : Bool) : List (List Char) → Option (List Nat)
  | [] => some []
  | [last] =>
    if dotted && last.contains '.' then dotted? last else (piece? last).map fun piece => [piece]
  | first :: rest => do
    let piece ← piece? first
    some (piece :: (← pieces? dotted rest))

def side? (dotted : Bool) (cs : List Char) : Option (List Nat) :=
  if cs.isEmpty then some [] else pieces? dotted (cs.splitOnP (· == ':'))

def splitDouble? : List Char → Option (List Char × List Char)
  | ':' :: ':' :: after => some ([], after)
  | c :: cs => (splitDouble? cs).map fun (before, after) => (c :: before, after)
  | [] => none

def eight? (cs : List Char) : Option (List Nat) := do
  match splitDouble? cs with
  | none =>
    let pieces ← side? true cs
    if pieces.length = 8 then some pieces else none
  | some (before, after) =>
    let before ← side? false before
    let after ← side? true after
    let given := before.length + after.length
    if given ≤ 7 then some (before ++ List.replicate (8 - given) 0 ++ after) else none

end SourceOverlay.Uri.Address
