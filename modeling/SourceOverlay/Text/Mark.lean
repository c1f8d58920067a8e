import SourceOverlay.Text.Property

/-!
# Combining marks

A mark belongs to the character in front of it. One that takes no room of its own is nonspacing.
The class of a mark says where it is put: marks of different classes may change places without a
change of meaning, and zero is the class of everything that may not.
-/

set_option autoImplicit false

namespace SourceOverlay.Text

/-- The marks: nonspacing ones are of kind `n` and the others of kind `s`, each with its class
unless that is zero. -/
def marks : Property := .ofText "
  300z 15nE6 nE8 4nDC nE8 nD8 5nDC 2nCA 4nDC 2nCA BnDC 5n1 4nDC AnE6 3nDC 3nE6 2nDC z 3nE6 4nDC
  nE6 nE8 2nDC nE6 nE9 2nEA nE9 2nEA nE9 DnE6 113z 5nE6 2n 107z nDC 4nE6 nDC 3nE6 nDE nDC 6nE6
  6nDC 2nE6 nDC 2nE6 nDE nE4 nE6 nA nB nC nD nE nF n10 n11 n12 2n13 n14 n15 n16 z n17 z n18 n19 z
  nE6 nDC z n12 48z 8nE6 n1E n1F n20 30z n1B n1C n1D n1E n1F n20 n21 n22 2nE6 2nDC 5nE6 nDC 2nE6
  nDC 10z n23 65z 7nE6 2z 4nE6 nDC nE6 2z 2nE6 z nDC 2nE6 nDC 23z n24 1Ez nE6 nDC 2nE6 nDC 2nE6
  3nDC nE6 2nDC nE6 nDC 3nE6 nDC nE6 nDC nE6 nDC nE6 nDC 2nE6 5Bz Bn 3Az 7nE6 nDC nE6 9z nDC 18z
  4nE6 z 9nE6 z 3nE6 z 5nE6 2Bz 3nDC 3Bz 2nE6 3nDC 4nE6 2Az 5nE6 5nDC EnE6 z nDC 2nE6 nDC 2nE6 nDC
  3nE6 3nDC n1B n1C n1D 3nE6 nDC 2nE6 2nDC 5nE6 3n s 36z n s n7 z 3s 8n 4s n9 2s z nE6 nDC 2nE6 3n
  Az 2n 1Dz n 2s 38z n7 z 3s 4n 2z 6s n9 9z s Az 2n 1Az nE6 2z 2n s 38z n7 z 3s Cn n9 3z n 1Ez 2n
  3z n Bz 2n s 38z n7 z 3s 8n 4s n9 14z 2n 16z 8n 2s 38z n7 z s n s 4n 2z 6s n9 7z 2n s Az 2n 1Ez
  n 3Bz 2s n Cs n9 9z s 28z n 3s n 37z n7 z 3n 4s z 7n n9 7z n54 n5B Bz 2n 1Dz n 2s 38z n7 z s n
  5s z n 5s n n9 7z 2s Bz 2n Fz s Cz 2n 2s 37z 2n9 z 3s 4n z 7s n9 9z s Az 2n 1Dz n 2s 46z n9 4z
  3s 5n z 8s 12z 2s 3Dz n 2z 4n 2n67 n9 Cz n 4n6B 3n 62z n 2z 4n 2n76 n9 2n Bz 4n7A 3n 49z 2nDC
  1Bz nDC z nDC z nD8 4z 2s 31z n81 n82 z n84 5z 4n82 n s n82 z 2nE6 n9 z 2nE6 5z 30n 9z nDC 64z
  2s 4n s 5n n7 s 2n9 2s 2n 17z 2s 2n 4z 3n z 3s 2z 7s 3z 4n Dz n 2s 2n 6s nDC z s Az 3s n 2BFz
  3nE6 3B2z 2n n9 s9 1Cz 2n s9 1Dz 2n 1Ez 2n 42z s 7n 8s n 2s 9n n9 n 9z nE6 A7z 2n 22z nE4 76z 3n
  4s 2n 9s n 6s nDE nE6 nDC DBz nE6 nDC 2s n 39z s n s 7n z n9 s n 2s 8n 6s 2n 8nE6 2z nDC 30z
  5nE6 6nDC 2nE6 nDC n 2nDC 2nE6 2nDC 5nE6 nDC 12nE6 nDC 2z 6nE6 nDC 4nE6 nEA 14z 4n s 2Fz n7 s 5n
  s n 5s n s s9 26z nE6 nDC 7nE6 Cz 2n s 1Ez s 4n 2s 2n s9 n9 2n 38z n7 s 2n 3s n s 3n 2s9 30z 8s
  8n 2s n n7 98z 3nE6 z n1 5nDC 2nE6 4nDC nE6 s 7n1 4z nDC 6z nE6 2z s 2nE6 C6z 2nE6 nDC 7nE6 nDC
  2nE6 nEA nD6 nDC nCA 25nE6 nE8 2nE4 nDC nDA nE6 nE9 nDC nE6 nDC 2D0z 2nE6 2n1 4nE6 3n1 2nE6 4n
  nE6 3n 2n1 nE6 nDC nE6 2n1 4nDC nE6 BFEz 3nE6 8Dz n9 60z 20nE6 22Az nDA nE4 nE8 nDE 2sE0 69z 2n8
  75D4z nE6 3n z AnE6 20z 2nE6 50z 2nE6 110z n 3z n9 4z n 17z 2s 2n s 4z n9 53z 2s 32z 10s n9 n
  1Az 12nE6 Dz n 26z 5n 3nDC 19z Bn s s9 2Cz 3n s 2Fz n7 2s 4n 2s 2n 2s s9 24z n 43z 6n 2s 2n 2s
  2n Cz n 8z n s 2Dz s n s 32z nE6 z 2nE6 nDC 2z 2nE6 5z 2nE6 z nE6 29z s 2n 2s 5z s n9 ECz 2s n
  2s n 2s z s n9 4F30z n1A 301z 7nE6 7nDC 2nE6 3CDz nDC E2z nDC 95z 5nE6 686z Cn nDC n nE6 28z nE6
  n1 nDC 4z n9 A5z nE6 nDC 23Dz 4nE6 41z 5nE6 13Dz 2nE6 4Dz 2nDC n 3nDC 46z 2nDC 3nE6 nDC nE6 4nDC
  31z nE6 nDC nE6 nDC 7Az s n s 35z En n9 29z n9 2z 2n Az n9 2n s 2Dz 3s 4n 2s n9 n7 7z n 3Dz 3nE6
  24z 5n s 6n 2n9 10z 2s 2Cz n7 Cz 2n s 30z 3s 9n s s9 8z n n7 2n z s n 5Cz 3s 3n 2s n s9 n7 n 6z
  n 2z n 9Dz n 3s 6n n7 n9 15z 2n 2s 37z 2n7 z 2s n Cs s9 9z s Az 2s 2z FnE6 43z 3s 6n z Cs n9 s9
  n9 z n Ez 2n 52z 3s 8n 2s n9 2n s n7 17z nE6 51z 3s 6n s n 4s 2n s n9 n7 EBz 3s 4n 2z 4s 2n s n9
  n7 1Bz 2n 52z 3s 8n 2s n s n9 n 6Az n s n 2s 6n s9 n7 65z n s n 2s 4n s 4n n9 100z 3s 9n s n9 n7
  F5z 9s 2z 2n s9 n9 z s z s n7 8Dz 3s 8n 4s n9 3z s 1Cz An 28z n n9 4n s z 4n 8z n9 9z 6n 2s 3n
  2Ez Dn s n n9 C6z n s 3n s n s C7z s En s n9 52z 16n z s 7n s 2n s 2n 7Az 11n n7 n 2n9 z n 42z
  5s z 2n z 2s n s n9 15Bz 2n 2s 9z 2n z s 30z 2s 5n 3z 2s n s9 n9 17z n 14E5z n 6z Fn 2CC8z Cn 3s
  2n n9 9C0z 5n1 3Bz 7nE6 418z n z 37s 7z 4n 51z n Bz 2s6 4CABz n n1 1261z 47n 21Ez 2sD8 3n1 3z
  sE2 5sD8 8z 8nDC 2z 5nE6 2nDC 1Ez 4nE6 94z 3nE6 7BBz 37n 4z 32n 8z n Ez n 16z 15n 550z 90nE6 A0z
  7nE6 177z nE6 3Dz 4nE6 1FCz 2nE8 nDC nE6 FEz nE6 nDC F3z nE6 2z nE6 7z 2nE6 5z nE6 1DAz 7nDC 6Dz
  6nE6 n7"

def isMark (c : Char) : Bool := (marks.kind? c).any fun kind => kind == 'n' || kind == 's'

def isNonspacing (c : Char) : Bool := marks.kind? c == some 'n'

def combiningClass (c : Char) : Nat := ((marks.run? c).map fun run => run.codes.headD 0).getD 0

def viramaClass : Nat := 9

end SourceOverlay.Text
