import SourceOverlay.Text.Mark

/-!
# Joining letters

The letters of some scripts join the letters beside them. Marks do not stand in their way.
-/

set_option autoImplicit false

namespace SourceOverlay.Text

inductive Joining where
  | apart
  | before
  | after
  | both
  | transparent
  deriving Repr, DecidableEq

namespace Joining

def table : Property := .ofText "
  620z d z 4r d r d r 5d 4r Dd z 7d r 2d 23z 2d z 3r 5z Fd 12r 26d r 2d 9r d r d r 2d 2r z r 18z
  2r Az 3d 2z d 10z r z 3d 5r 4d r 9d r d r d r 2d 1Fr Bd 3r Fd 2r 4d r d 2r 3d 2r 6d 4Az 21d 55z
  r 5d 2r d r Ad r d 3r 7z d z 4d z r d 1Ar 3z d 2z 5d r 1Bd 3r z r 2d 2r 6d r Fd F3Ez d 18z 59d
  Ez 24d 8F95z 32d l 624Dz 5d r z r z 2r 2z l 5r 4d l 5d r 3d r 2z r 6z 4d r 90z d r d 3r 3d r 2d
  r d 2r d r 17z 4r 2d 151z l 21d r d 19Ez r 2d z 2d 68z 3d r 11d Cz 3d r 1Bz 4d 2r Cd 2Ez d z 2d
  3r z d 2r 2d r 2d z d 2r d 4z r d l D956z 22d 7z t"

def ofChar (c : Char) : Joining :=
  if isNonspacing c then transparent
  else
    match table.kind? c with
    | some 'd' => both
    | some 'r' => before
    | some 'l' => after
    | some 't' => transparent
    | _ => apart

def joinsNext (j : Joining) : Bool := j == both || j == after

def joinsPrevious (j : Joining) : Bool := j == both || j == before

end Joining

end SourceOverlay.Text
