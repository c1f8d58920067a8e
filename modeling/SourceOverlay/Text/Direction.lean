import SourceOverlay.Text.Mark

/-!
# Directions of writing

Scripts are written to the right or to the left, and what is not a letter takes part in the
direction of its neighbours in one of several ways.
-/

set_option autoImplicit false

namespace SourceOverlay.Text

inductive Direction where
  | rightward
  | leftward
  | arabic
  | arabicNumber
  | europeanNumber
  | numberSeparator
  | numberTerminator
  | commonSeparator
  | neutral
  | boundary
  | nonspacing
  | blank
  deriving Repr, DecidableEq

namespace Direction

def ofKind : Char → Direction
  | 'r' => leftward
  | 'a' => arabic
  | 'n' => arabicNumber
  | 'e' => europeanNumber
  | 's' => numberSeparator
  | 't' => numberTerminator
  | 'c' => commonSeparator
  | 'o' => neutral
  | 'b' => boundary
  | 'w' => blank
  | _ => rightward

def table : Property := .ofText "
  9b 5w Eb 5w 2o 3t 5o s c s 2c Ae c 26o 1Al 4o b 21l o 4t 9o l 2t 4l 22o 1Fl o 1C1l 2o 7l Eo 2l
  1Co l 11o 75l o 80l o 193l 5o t 2El 37r 11l 2o a 2t a c a 2o Bl 30a 15l An t 2n 69a 8l o 6l 2a
  2l o 4l 2a Ae B8a El 36r 4o 65r l 6Aa 128l 2t 7l t F5l t 101l 6o t o 7Dl 7o 1C0l t FAl 4o 452l
  Ao 66l o 29Al 2o 13El t 14l 1Bo 135l 6o 98l 22o 60Cl 2b 2l 18o 8l 3t 2l Fo c 1Ao 41l 22t 42l 26o
  4l t Bl 14o 3Cl 88o s t 122o 45l 1Ao l 91o 19l 26Co l 153o 100l 296o l 69o E5l 6o El 7o 100l
  205o 3l 19o Fl o 6l o 5l 3o 60l o 5Al o C4l 24o 1BDCl 40o 5690l 37o 146l 3o 63l Do 80l 22o 66l o
  9Fl 4o Cl 2t 3Al 4o 2F2l 2o 5046l 21a 16Bl 12o 40l 3Fa 78o 2Cl a 28Dl o 3El 4Do 3l 11o 140l 1Be
  504l 11Cr 3l o 216r 3l 7o 1C0r 24a Cl An 6l 50r D0l 1Fn l 32r 10l 17a 27l 28r 8l 2Aa 16l 87r 5Bl
  14o 5FAl Do B1l m 8B6l 8o 4t 11o 4FF0l o 6206l 5Do BAl 57o FA8l t 500l 160r 311l CDa 1B2l 240o
  3Dl 3o 3Dl o B2l 478o 4l 9Bo 4l 137o 4El 154o Cl 29o 7l 2Eo l 7o 8l Eo 4l 9o 7l DBo"

def letterLike : List Nat := [0xCBF, 0xCC6, 0x11A07, 0x11A08, 0x11C3F]

def ofChar (c : Char) : Direction :=
  if letterLike.contains c.toNat then rightward
  else if isNonspacing c then nonspacing
  else ((table.kind? c).map ofKind).getD rightward

def turns (d : Direction) : Bool := d == leftward || d == arabic || d == arabicNumber

end Direction

end SourceOverlay.Text
