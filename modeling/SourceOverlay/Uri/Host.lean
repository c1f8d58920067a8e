import SourceOverlay.Domain.Name
import SourceOverlay.Uri.Address
import SourceOverlay.Uri.Escape

/-!
# Hosts

The host of a URI is an address in brackets or a domain name. Escapes in a name are read first. A
name whose last label is a number has to be an address.
-/

set_option autoImplicit false

namespace SourceOverlay.Uri

inductive Host where
  | named (labels : List (List Char))
  | address (number : Nat)
  | longAddress (pieces : List Nat)
  deriving Repr, DecidableEq

namespace Host

def ofLabels? (labels : List (List Char)) : Option Host :=
  if labels == [[]] then none
  else if Address.isNumeric labels then (Address.four? labels).map .address
  else some (.named labels)

def read? : List Char → Option Host
  | '[' :: cs =>
    if cs.getLast? == some ']' then (Address.eight? cs.dropLast).map .longAddress else none
  | cs => do
    let name ← Text.decodeStrict? (meantBytes cs)
    ofLabels? (← Domain.labels? name.toList)

def isHere (h : Host) : Bool := h == .named ["localhost".toList]

end Host

end SourceOverlay.Uri
