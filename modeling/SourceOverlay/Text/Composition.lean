import SourceOverlay.Text.Mark

/-!
# Composed characters

A letter with marks can be written as one character or as several. `compose` writes a text with
the fewest: it takes all characters apart, puts the marks of each letter in the order of their
classes, and joins each letter with every mark it can be joined with. Korean syllables are joined
from their letters by arithmetic.
-/

set_option autoImplicit false

namespace SourceOverlay.Text

/-- The composed characters, each with the two it is made of. Capital letters and characters for
compatibility are not among them. -/
def composites : Property := .ofText "
  E0z c61.300 c61.301 c61.302 c61.303 c61.308 c61.30A z c63.327 c65.300 c65.301 c65.302 c65.308
  c69.300 c69.301 c69.302 c69.308 z c6E.303 c6F.300 c6F.301 c6F.302 c6F.303 c6F.308 2z c75.300
  c75.301 c75.302 c75.308 c79.301 z c79.308 z c61.304 z c61.306 z c61.328 z c63.301 z c63.302 z
  c63.307 z c63.30C z c64.30C 3z c65.304 z c65.306 z c65.307 z c65.328 z c65.30C z c67.302 z
  c67.306 z c67.307 z c67.327 z c68.302 3z c69.303 z c69.304 z c69.306 z c69.328 5z c6A.302 z
  c6B.327 2z c6C.301 z c6C.327 z c6C.30C 5z c6E.301 z c6E.327 z c6E.30C 4z c6F.304 z c6F.306 z
  c6F.30B 3z c72.301 z c72.327 z c72.30C z c73.301 z c73.302 z c73.327 z c73.30C z c74.327 z
  c74.30C 3z c75.303 z c75.304 z c75.306 z c75.30A z c75.30B z c75.328 z c77.302 z c79.302 2z
  c7A.301 z c7A.307 z c7A.30C 22z c6F.31B Ez c75.31B 1Dz c61.30C z c69.30C z c6F.30C z c75.30C z
  cFC.304 z cFC.301 z cFC.30C z cFC.300 2z cE4.304 z c227.304 z cE6.304 3z c67.30C z c6B.30C z
  c6F.328 z c1EB.304 z c292.30C c6A.30C 4z c67.301 3z c6E.300 z cE5.301 z cE6.301 z cF8.301 z
  c61.30F z c61.311 z c65.30F z c65.311 z c69.30F z c69.311 z c6F.30F z c6F.311 z c72.30F z
  c72.311 z c75.30F z c75.311 z c73.326 z c74.326 3z c68.30C 7z c61.307 z c65.327 z cF6.304 z
  cF5.304 z c6F.307 z c22F.304 z c79.304 15Cz c3CA.301 1Bz c3B1.301 c3B5.301 c3B7.301 c3B9.301
  c3CB.301 19z c3B9.308 c3C5.308 c3BF.301 c3C5.301 c3C9.301 6Az c438.306 16z c435.300 c435.308 z
  c433.301 3z c456.308 4z c43A.301 c438.300 c443.306 18z c475.30F 4Az c436.306 Ez c430.306 z
  c430.308 3z c435.306 3z c4D9.308 z c436.308 z c437.308 3z c438.304 z c438.308 z c43E.308 3z
  c4E9.308 z c44D.308 z c443.304 z c443.308 z c443.30B z c447.308 3z c44B.308 128z c627.653
  c627.654 c648.654 c627.655 c64A.654 99z c6D5.654 z c6C1.654 10z c6D2.654 255z c928.93C 7z
  c930.93C 2z c933.93C 96z c9C7.9BE c9C7.9D7 17Bz cB47.B56 2z cB47.B3E cB47.B57 47z cB92.BD7 35z
  cBC6.BBE cBC7.BBE cBC6.BD7 7Bz cC46.C56 77z cCBF.CD5 6z cCC6.CD5 cCC6.CD6 z cCC6.CC2 cCCA.CD5
  7Ez cD46.D3E cD47.D3E cD46.D57 8Dz cDD9.DCA z cDD9.DCF cDDC.DCA cDD9.DDF 247z c1025.102E ADFz
  c1B05.1B35 z c1B07.1B35 z c1B09.1B35 z c1B0B.1B35 z c1B0D.1B35 3z c1B11.1B35 28z c1B3A.1B35 z
  c1B3C.1B35 2z c1B3E.1B35 c1B3F.1B35 z c1B42.1B35 2BDz c61.325 z c62.307 z c62.323 z c62.331 z
  cE7.301 z c64.307 z c64.323 z c64.331 z c64.327 z c64.32D z c113.300 z c113.301 z c65.32D z
  c65.330 z c229.306 z c66.307 z c67.304 z c68.307 z c68.323 z c68.308 z c68.327 z c68.32E z
  c69.330 z cEF.301 z c6B.301 z c6B.323 z c6B.331 z c6C.323 z c1E37.304 z c6C.331 z c6C.32D z
  c6D.301 z c6D.307 z c6D.323 z c6E.307 z c6E.323 z c6E.331 z c6E.32D z cF5.301 z cF5.308 z
  c14D.300 z c14D.301 z c70.301 z c70.307 z c72.307 z c72.323 z c1E5B.304 z c72.331 z c73.307 z
  c73.323 z c15B.307 z c161.307 z c1E63.307 z c74.307 z c74.323 z c74.331 z c74.32D z c75.324 z
  c75.330 z c75.32D z c169.301 z c16B.308 z c76.303 z c76.323 z c77.300 z c77.301 z c77.308 z
  c77.307 z c77.323 z c78.307 z c78.308 z c79.307 z c7A.302 z c7A.323 z c7A.331 c68.331 c74.308
  c77.30A c79.30A 7z c61.323 z c61.309 z cE2.301 z cE2.300 z cE2.309 z cE2.303 z c1EA1.302 z
  c103.301 z c103.300 z c103.309 z c103.303 z c1EA1.306 z c65.323 z c65.309 z c65.303 z cEA.301 z
  cEA.300 z cEA.309 z cEA.303 z c1EB9.302 z c69.309 z c69.323 z c6F.323 z c6F.309 z cF4.301 z
  cF4.300 z cF4.309 z cF4.303 z c1ECD.302 z c1A1.301 z c1A1.300 z c1A1.309 z c1A1.303 z c1A1.323 z
  c75.323 z c75.309 z c1B0.301 z c1B0.300 z c1B0.309 z c1B0.303 z c1B0.323 z c79.300 z c79.323 z
  c79.309 z c79.303 6z c3B1.313 c3B1.314 c1F00.300 c1F01.300 c1F00.301 c1F01.301 c1F00.342
  c1F01.342 8z c3B5.313 c3B5.314 c1F10.300 c1F11.300 c1F10.301 c1F11.301 Az c3B7.313 c3B7.314
  c1F20.300 c1F21.300 c1F20.301 c1F21.301 c1F20.342 c1F21.342 8z c3B9.313 c3B9.314 c1F30.300
  c1F31.300 c1F30.301 c1F31.301 c1F30.342 c1F31.342 8z c3BF.313 c3BF.314 c1F40.300 c1F41.300
  c1F40.301 c1F41.301 Az c3C5.313 c3C5.314 c1F50.300 c1F51.300 c1F50.301 c1F51.301 c1F50.342
  c1F51.342 8z c3C9.313 c3C9.314 c1F60.300 c1F61.300 c1F60.301 c1F61.301 c1F60.342 c1F61.342 8z
  c3B1.300 z c3B5.300 z c3B7.300 z c3B9.300 z c3BF.300 z c3C5.300 z c3C9.300 33z c3B1.306 c3B1.304
  4z c3B1.342 Fz c3B7.342 9z c3B9.306 c3B9.304 c3CA.300 3z c3B9.342 c3CA.342 8z c3C5.306 c3C5.304
  c3CB.300 z c3C1.313 c3C1.314 c3C5.342 c3CB.342 Ez c3C9.342 1A3z c2190.338 c2192.338 12z
  c2194.338 1Ez c21D0.338 c21D4.338 c21D2.338 34z c2203.338 4z c2208.338 2z c220B.338 17z
  c2223.338 z c2225.338 1Az c223C.338 2z c2243.338 2z c2245.338 z c2248.338 16z c3D.338 z
  c2261.338 Az c224D.338 c3C.338 c3E.338 c2264.338 c2265.338 2z c2272.338 c2273.338 2z c2276.338
  c2277.338 6z c227A.338 c227B.338 2z c2282.338 c2283.338 2z c2286.338 c2287.338 22z c22A2.338
  c22A8.338 c22A9.338 c22AB.338 30z c227C.338 c227D.338 c2291.338 c2292.338 6z c22B2.338 c22B3.338
  c22B4.338 c22B5.338 D5Ez c304B.3099 z c304D.3099 z c304F.3099 z c3051.3099 z c3053.3099 z
  c3055.3099 z c3057.3099 z c3059.3099 z c305B.3099 z c305D.3099 z c305F.3099 z c3061.3099 2z
  c3064.3099 z c3066.3099 z c3068.3099 6z c306F.3099 c306F.309A z c3072.3099 c3072.309A z
  c3075.3099 c3075.309A z c3078.3099 c3078.309A z c307B.3099 c307B.309A 16z c3046.3099 9z
  c309D.3099 Dz c30AB.3099 z c30AD.3099 z c30AF.3099 z c30B1.3099 z c30B3.3099 z c30B5.3099 z
  c30B7.3099 z c30B9.3099 z c30BB.3099 z c30BD.3099 z c30BF.3099 z c30C1.3099 2z c30C4.3099 z
  c30C6.3099 z c30C8.3099 6z c30CF.3099 c30CF.309A z c30D2.3099 c30D2.309A z c30D5.3099 c30D5.309A
  z c30D8.3099 c30D8.309A z c30DB.3099 c30DB.309A 16z c30A6.3099 2z c30EF.3099 c30F0.3099
  c30F1.3099 c30F2.3099 3z c30FD.3099 D4CAz c105D2.307 1Az c105DA.307 AB5z c11099.110BA z
  c1109B.110BA Ez c110A5.110BA 82z c11131.11127 c11132.11127 21Bz c11347.1133E c11347.11357 36z
  c11382.113C9 z c11384.113BB 8z c1138B.113C2 2z c11390.113C9 33z c113C2.113C2 z c113C2.113B8
  c113C2.113C9 F2z c114B9.114BA c114B9.114B0 z c114B9.114BD FBz c115B8.115AF c115B9.115AF 37Cz
  c11935.11930 47E8z c1611E.1611E c1611E.16129 c1611E.1611F c16129.1611F c1611E.16120 c16121.1611F
  c16122.1611F c16121.16120 C3Fz c16D67.16D67 c16D63.16D67 c16D69.16D67"

/-! ### Korean syllables -/

def syllableBase : Nat := 0xAC00

def leadBase : Nat := 0x1100

def vowelBase : Nat := 0x1161

def trailBase : Nat := 0x11A7

def leadCount : Nat := 19

def vowelCount : Nat := 21

def trailCount : Nat := 28

def syllableCount : Nat := leadCount * vowelCount * trailCount

def syllable? (c : Char) : Option Nat :=
  let n := c.toNat
  if syllableBase ≤ n && n < syllableBase + syllableCount then some (n - syllableBase) else none

def splitSyllable (i : Nat) : List Char :=
  let trail := i % trailCount
  let letters :=
    [leadBase + i / (vowelCount * trailCount), vowelBase + i / trailCount % vowelCount] ++
      if trail = 0 then [] else [trailBase + trail]
  letters.map Char.ofNat

def joinSyllable? (a b : Char) : Option Char :=
  let lead := a.toNat - leadBase
  let vowel := b.toNat - vowelBase
  let trail := b.toNat - trailBase
  if leadBase ≤ a.toNat && lead < leadCount && vowelBase ≤ b.toNat && vowel < vowelCount then
    some (Char.ofNat (syllableBase + (lead * vowelCount + vowel) * trailCount))
  else
    match syllable? a with
    | some i =>
      if i % trailCount = 0 && trailBase < b.toNat && trail < trailCount then
        some (Char.ofNat (a.toNat + trail))
      else none
    | none => none

/-! ### Taking apart and joining -/

def compositeDepth : Nat := 4

def split : Nat → Char → List Char
  | 0, c => [c]
  | depth + 1, c =>
    match syllable? c, composites.run? c with
    | some i, _ => splitSyllable i
    | none, some ⟨_, _, 'c', [a, b]⟩ => split depth (Char.ofNat a) ++ [Char.ofNat b]
    | _, _ => [c]

/-- Puts a character behind a text, the last character first, and in front of the marks at its end
that have higher classes. -/
def insertMark (c : Char) : List Char → List Char
  | [] => [c]
  | d :: ds =>
    if combiningClass c != 0 && combiningClass c < combiningClass d then d :: insertMark c ds
    else c :: d :: ds

def decompose (text : List Char) : List Char :=
  ((text.flatMap (split compositeDepth)).foldl (fun done c => insertMark c done) []).reverse

def join? (a b : Char) : Option Char :=
  match joinSyllable? a b with
  | some c => some c
  | none =>
    (composites.find? fun run => run.codes == [a.toNat, b.toNat]).map fun run =>
      Char.ofNat run.first

structure Composing where
  done : List Char := []
  letter : Option Char := none
  marks : List Char := []

namespace Composing

def text (s : Composing) : List Char := s.marks ++ s.letter.toList ++ s.done

/-- One more character. A mark that was left blocks those after it whose class is not higher. -/
def add (s : Composing) (c : Char) : Composing :=
  let free := s.marks.head?.all fun mark => combiningClass mark < combiningClass c
  match s.letter.bind fun letter => if free then join? letter c else none with
  | some joined => { s with letter := some joined }
  | none =>
    if combiningClass c = 0 then ⟨s.text, some c, []⟩ else { s with marks := c :: s.marks }

end Composing

def compose (text : List Char) : List Char :=
  ((decompose text).foldl Composing.add {}).text.reverse

end SourceOverlay.Text
