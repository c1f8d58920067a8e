import SourceOverlay.Text.Hex

/-!
# Properties of characters

A property of characters is given by runs of code points that follow one another from zero. Its
text has a word for each run: the number of its code points, which is left out when it is one, a
small letter for the kind of the run, and with points between them the code points that belong to
the kind. All numbers are hexadecimal with capital letters. What comes after the last run has no
kind.
-/

set_option autoImplicit false

namespace SourceOverlay.Text

structure Run where
  first : Nat
  count : Nat
  kind : Char
  codes : List Nat
  deriving Repr, DecidableEq

namespace Run

def covers (r : Run) (c : Char) : Bool := r.first ≤ c.toNat && c.toNat < r.first + r.count

def offset (r : Run) (c : Char) : Nat := c.toNat - r.first

def isDigit (c : Char) : Bool := ('0' ≤ c && c ≤ '9') || ('A' ≤ c && c ≤ 'F')

def number (digits : List Char) : Nat :=
  digits.foldl (fun n c => n * 16 + (hexValue? c).getD 0) 0

def ofWord (first : Nat) (word : List Char) : Run :=
  let digits := word.takeWhile isDigit
  let count := if digits.isEmpty then 1 else number digits
  match word.drop digits.length with
  | [] => ⟨first, count, ' ', []⟩
  | kind :: codes =>
    ⟨first, count, kind, ((codes.splitOnP (· == '.')).filter (· != [])).map number⟩

end Run

abbrev Property := List Run

namespace Property

def ofWords : Nat → List (List Char) → Property
  | _, [] => []
  | first, word :: words =>
    let run := Run.ofWord first word
    run :: ofWords (first + run.count) words

def ofText (text : String) : Property :=
  ofWords 0 ((text.toList.splitOnP fun c => c == ' ' || c == '\n').filter (· != []))

def run? (p : Property) (c : Char) : Option Run := p.find? (·.covers c)

def kind? (p : Property) (c : Char) : Option Char := (p.run? c).map Run.kind

end Property

end SourceOverlay.Text
