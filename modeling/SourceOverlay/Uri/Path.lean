/-!
# The path of a file URI

A path is read segment by segment, each of them ended by a slash or a backslash. Dot segments, also
when their dots are escaped, are resolved on the way, but a drive is never taken back. A drive at
the front is spelled with a colon, and makes a host void. Tabs and line breaks count for nothing,
except that one behind a drive at the front parts it from what follows in the segment, which is
then taken as it is.
-/

set_option autoImplicit false

namespace SourceOverlay.Uri

def isLetter (c : Char) : Bool := ('a' ≤ c && c ≤ 'z') || ('A' ≤ c && c ≤ 'Z')

def lower (c : Char) : Char := if 'A' ≤ c && c ≤ 'Z' then Char.ofNat (c.toNat + 32) else c

def isSlash (c : Char) : Bool := c == '/' || c == '\\'

def isLineBreakOrTab (c : Char) : Bool := c == '\t' || c == '\n' || c == '\r'

def withoutBreaks (cs : List Char) : List Char := cs.filter fun c => !isLineBreakOrTab c

def afterBreaks (cs : List Char) : List Char := cs.dropWhile isLineBreakOrTab

def endsPath (c : Char) : Bool := c == '?' || c == '#'

def isDrive : List Char → Bool
  | [letter, mark] => isLetter letter && (mark == ':' || mark == '|')
  | _ => false

def plainDots (segment : List Char) : List Char :=
  match segment with
  | '%' :: '2' :: e :: rest => if lower e == 'e' then '.' :: plainDots rest else segment
  | '.' :: rest => '.' :: plainDots rest
  | _ => segment

def isSingleDot (segment : List Char) : Bool := plainDots segment == ['.']

def isDoubleDot (segment : List Char) : Bool := plainDots segment == ['.', '.']

def partedDrive? (segment : List Char) : Option (List Char × List Char) :=
  match afterBreaks segment with
  | letter :: cs =>
    match afterBreaks cs with
    | ':' :: gap :: rest =>
      let rest := withoutBreaks rest
      if isLetter letter && isLineBreakOrTab gap && !rest.isEmpty then some ([letter, ':'], rest)
      else none
    | _ => none
  | [] => none

structure Walk where
  kept : List (List Char) := []
  hosted : Bool := false

namespace Walk

def seat (w : Walk) (segment : List Char) : Walk :=
  match w.kept, segment with
  | [], [letter, _] =>
    if isDrive segment then ⟨[[letter, ':']], false⟩ else { w with kept := [segment] }
  | kept, _ => { w with kept := segment :: kept }

def back (w : Walk) : Walk :=
  match w.kept with
  | last :: before => if isDrive last then w else { w with kept := before }
  | [] => w

/-- One segment. A dot segment at the end of the path leaves it with a slash. -/
def step (w : Walk) (isLast : Bool) (segment : List Char) : Walk :=
  let text := withoutBreaks segment
  let closed (w : Walk) : Walk := if isLast then { w with kept := [] :: w.kept } else w
  match if w.kept.isEmpty then partedDrive? segment else none with
  | some (drive, rest) => { w with kept := [rest, drive] }
  | none =>
    if isDoubleDot text then closed w.back
    else if isSingleDot text then closed w
    else w.seat text

def steps (w : Walk) : List (List Char) → Walk
  | [] => w
  | [last] => w.step true last
  | segment :: segments => (w.step false segment).steps segments

def path (w : Walk) : List Char :=
  '/' :: (['/'].intercalate w.kept.reverse).dropWhile (· == '/')

end Walk

def readPath? (hosted : Bool) (cs : List Char) : Option (List Char) :=
  let segments := (cs.takeWhile fun c => !endsPath c).splitOnP isSlash
  let walk := Walk.steps { hosted } segments
  if walk.hosted then none else some walk.path

end SourceOverlay.Uri
