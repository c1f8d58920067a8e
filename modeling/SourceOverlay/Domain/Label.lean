import SourceOverlay.Domain.Folding
import SourceOverlay.Domain.Punycode
import SourceOverlay.Text.Composition
import SourceOverlay.Text.Direction
import SourceOverlay.Text.Joining

/-!
# Labels of domain names

A label is what stands between two points of a domain name. It does not begin with a mark, has
joiners only between letters that they part or join, and keeps to one direction when some label of
the name is written to the left. A label that begins with `xn--` is the plain spelling of another
one, which must need it.
-/

set_option autoImplicit false

namespace SourceOverlay.Domain

abbrev Label := List Char

namespace Label

def isAscii (label : Label) : Bool := label.all fun c => c.toNat < 0x80

def spellingMark : List Char := ['x', 'n', '-', '-']

def isFolded (label : Label) : Bool := label.all isPlain && Text.compose label == label

def meant? (label : Label) : Option Label :=
  if spellingMark.isPrefixOf label then do
    let spelled ← Punycode.decode? (label.drop spellingMark.length)
    if isAscii spelled || !isFolded spelled || spellingMark.isPrefixOf spelled then none
    else some spelled
  else some label

/-! ### Joiners -/

def nonJoiner : Char := Char.ofNat 0x200C

def joiner : Char := Char.ofNat 0x200D

def meets (joins : Text.Joining → Bool) (cs : List Char) : Bool :=
  ((cs.map Text.Joining.ofChar).dropWhile (· == .transparent)).head?.any joins

def joinersFit : List Char → List Char → Bool
  | _, [] => true
  | before, c :: after =>
    let afterVirama := before.head?.any fun b => Text.combiningClass b == Text.viramaClass
    let fits :=
      if c == nonJoiner then
        afterVirama ||
          (meets Text.Joining.joinsNext before && meets Text.Joining.joinsPrevious after)
      else c != joiner || afterVirama
    fits && joinersFit (c :: before) after

/-! ### Directions -/

/-- What may stand in a label that is written to the right. -/
def isRightwardPart : Text.Direction → Bool
  | .rightward | .europeanNumber | .numberSeparator | .commonSeparator | .numberTerminator
  | .neutral | .boundary | .nonspacing => true
  | _ => false

def isLeftwardPart : Text.Direction → Bool
  | .leftward | .arabic | .arabicNumber | .europeanNumber | .numberSeparator | .commonSeparator
  | .numberTerminator | .neutral | .boundary | .nonspacing => true
  | _ => false

/-- Whether a label keeps to the direction of its first character, which must have one. Numbers of
two kinds do not stand in one label. -/
def keepsDirection (label : Label) : Bool :=
  let all := label.map Text.Direction.ofChar
  let last := (all.reverse.dropWhile (· == .nonspacing)).head?
  match all with
  | [] => true
  | .rightward :: _ =>
    all.all isRightwardPart && last.any fun d => d == .rightward || d == .europeanNumber
  | first :: _ =>
    (first == .leftward || first == .arabic) && all.all isLeftwardPart &&
      (last.any fun d =>
        d == .leftward || d == .arabic || d == .europeanNumber || d == .arabicNumber) &&
      !(all.contains .europeanNumber && all.contains .arabicNumber)

def turns (label : Label) : Bool := label.any fun c => (Text.Direction.ofChar c).turns

def isSound (label : Label) : Bool := !label.head?.any Text.isMark && joinersFit [] label

end Label

end SourceOverlay.Domain
