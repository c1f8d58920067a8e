import SourceOverlay.Domain.Label

/-!
# Domain names

`Domain.labels?` reads a domain name: its characters are folded to plain ones and composed, and its
labels are checked. Points of other scripts are folded to the plain point as well.
-/

set_option autoImplicit false

namespace SourceOverlay.Domain

def refusedChars : List Char :=
  ['#', '/', ':', '<', '>', '?', '@', '[', '\\', ']', '^', '|', '%']

def isRefused (c : Char) : Bool := c.toNat ≤ 0x20 || c.toNat == 0x7F || refusedChars.contains c

def labels? (name : List Char) : Option (List Label) := do
  let folded ← name.mapM fold?
  let text := Text.compose folded.flatten
  let labels := text.splitOnP (· == '.')
  let meant ← labels.mapM Label.meant?
  if text.any isRefused || !meant.all Label.isSound then none
  else if meant.any Label.turns && !meant.all Label.keepsDirection then none
  else some labels

end SourceOverlay.Domain
