import SourceOverlay.Process.Arguments
import SourceOverlay.Process.Echo
import SourceOverlay.Process.Quote

/-!
# Translating bytes

Sets of bytes are written as characters, escapes, ranges, classes and repetitions. Bytes of the
first set are replaced by those of the second at the same places, the last of which counts for all
places after it; or they are deleted; or runs of one byte are squeezed into one.
-/

set_option autoImplicit false

namespace SourceOverlay.Process

/-! ### Sets -/

abbrev SetChar := Char × Bool

inductive Case where
  | upper
  | lower
  deriving DecidableEq

inductive Element where
  | single (c : Char)
  | range (first last : Char)
  | family (name : String)
  | same (c : Char)
  | repeated (c : Char) (count : Nat)

def charsFrom (low high : Nat) : List Char :=
  (List.range (high + 1 - low)).map fun i => Char.ofNat (low + i)

def allBytes : List Char := charsFrom 0 255

def inFamily? (name : String) : Option (Char → Bool) :=
  let digit (c : Char) := '0' ≤ c && c ≤ '9'
  let upper (c : Char) := 'A' ≤ c && c ≤ 'Z'
  let lower (c : Char) := 'a' ≤ c && c ≤ 'z'
  let graphic (c : Char) := '!' ≤ c && c ≤ '~'
  match name with
  | "digit" => some digit
  | "upper" => some upper
  | "lower" => some lower
  | "alpha" => some fun c => upper c || lower c
  | "alnum" => some fun c => upper c || lower c || digit c
  | "space" => some fun c => c == ' ' || ('\t' ≤ c && c ≤ '\r')
  | "blank" => some fun c => c == ' ' || c == '\t'
  | "cntrl" => some fun c => c.toNat < 32 || c.toNat == 127
  | "graph" => some graphic
  | "print" => some fun c => c == ' ' || graphic c
  | "punct" => some fun c => graphic c && !(upper c || lower c || digit c)
  | "xdigit" => some fun c => digit c || ('A' ≤ c && c ≤ 'F') || ('a' ≤ c && c ≤ 'f')
  | _ => none

namespace Element

def chars : Element → List Char
  | .single c => [c]
  | .range first last => charsFrom first.toNat last.toNat
  | .family name => allBytes.filter ((inFamily? name).getD fun _ => false)
  | .same c => [c]
  | .repeated c count => List.replicate count c

def case? : Element → Option Case
  | .family "upper" => some .upper
  | .family "lower" => some .lower
  | _ => none

def isFamily : Element → Bool
  | .family _ => true
  | _ => false

def isSame : Element → Bool
  | .same _ => true
  | _ => false

def isOpen : Element → Bool
  | .repeated _ 0 => true
  | _ => false

end Element

def elementsLength (es : List Element) : Nat := es.foldl (fun n e => n + e.chars.length) 0

/-! ### Reading sets -/

def unescapeSet : Nat → List Char → List SetChar × List String
  | 0, _ => ([], [])
  | _, [] => ([], [])
  | _, ['\\'] =>
    ([('\\', false)], ["warning: an unescaped backslash at end of string is not portable"])
  | fuel + 1, '\\' :: c :: cs =>
    if isOctal c then
      let (n, rest) := spanNumber 8 3 0 (c :: cs)
      if n < 256 then
        let (more, warnings) := unescapeSet fuel rest
        ((byteOf n, true) :: more, warnings)
      else
        let digits := (c :: cs).take 3
        let (n, rest) := spanNumber 8 2 0 (c :: cs)
        let (more, warnings) := unescapeSet fuel rest
        ((byteOf n, true) :: more,
          ("warning: the ambiguous octal escape \\" ++ String.ofList digits ++
            " is being\n\tinterpreted as the 2-byte sequence \\0" ++
            String.ofList (digits.take 2) ++ ", " ++ String.ofList (digits.drop 2)) :: warnings)
    else
      let (more, warnings) := unescapeSet fuel cs
      (((letterEscape? c).getD c, true) :: more, warnings)
  | fuel + 1, c :: cs =>
    let (more, warnings) := unescapeSet fuel cs
    ((c, false) :: more, warnings)

def isSpecial (c : Char) (s : SetChar) : Bool := s.1 == c && !s.2

def printable (c : Char) : String := if isPrintable c then c.toString else "\\" ++ octal c.toNat

def printableText (cs : List SetChar) : String :=
  String.join (cs.map fun s => if isPrintable s.1 then s.1.toString else escaped s.1)

def spanClosing (mark : Char) : List SetChar → List SetChar → Option (List SetChar × List SetChar)
  | done, a :: b :: rest =>
    if isSpecial mark a && isSpecial ']' b then some (done.reverse, rest)
    else spanClosing mark (a :: done) (b :: rest)
  | _, _ => none

def isStarred : List SetChar → Bool
  | star :: rest =>
    isSpecial '*' star && (rest.dropWhile fun s => s.1.isDigit).head?.any (isSpecial ']')
  | [] => false

def readRepeat (cs : List SetChar) : Except String (Option (Element × List SetChar)) :=
  match cs with
  | c :: star :: rest =>
    if !isSpecial '*' star then .ok none
    else
      let number := rest.takeWhile fun s => !s.2 && s.1 != ']'
      match rest.drop number.length with
      | close :: rest =>
        if !isSpecial ']' close then .ok none
        else
          let digits := number.map (·.1)
          let base := if digits.head? == some '0' then 8 else 10
          let (n, left) := spanNumber base digits.length 0 digits
          if left.isEmpty && n < fullWord then .ok (some (.repeated c.1 n, rest))
          else
            .error ("invalid repeat count " ++ quote (printableText number) ++
              " in [c*n] construct")
      | [] => .ok none
  | _ => .ok none

def readFamily (mark : Char) (cs : List SetChar) :
    Except String (Option (Element × List SetChar)) :=
  match spanClosing mark [] cs with
  | none => .ok none
  | some (inside, rest) =>
    if inside.isEmpty then
      .error (if mark == ':' then "missing character class name '[::]'"
        else "missing equivalence class character '[==]'")
    else if mark == ':' then
      let name := String.ofList (inside.map (·.1))
      if (inFamily? name).isSome then .ok (some (.family name, rest))
      else if isStarred cs then .ok none
      else .error ("invalid character class " ++ quote (printableText inside))
    else
      match inside with
      | [c] => .ok (some (.same c.1, rest))
      | _ =>
        if isStarred cs then .ok none
        else
          .error (printableText inside ++
            ": equivalence class operand must be a single character")

def readBracket (cs : List SetChar) : Except String (Option (Element × List SetChar)) := do
  let family ← match cs with
    | mark :: rest =>
      if isSpecial ':' mark || isSpecial '=' mark then readFamily mark.1 rest else .ok none
    | [] => .ok none
  match family with
  | some found => return some found
  | none => readRepeat cs

def readRange (first last : Char) : Except String Element :=
  if last < first then
    .error ("range-endpoints of '" ++ printable first ++ "-" ++ printable last ++
      "' are in reverse collating sequence order")
  else .ok (.range first last)

def readElements : Nat → List SetChar → Except String (List Element)
  | 0, _ => .ok []
  | _, [] => .ok []
  | fuel + 1, c :: cs => do
    let bracket ← if isSpecial '[' c && 2 ≤ cs.length then readBracket cs else .ok none
    match bracket with
    | some (e, rest) => return e :: (← readElements fuel rest)
    | none =>
      match cs with
      | hyphen :: last :: rest =>
        if isSpecial '-' hyphen then
          let e ← readRange c.1 last.1
          return e :: (← readElements fuel rest)
        else return .single c.1 :: (← readElements fuel cs)
      | _ => return .single c.1 :: (← readElements fuel cs)

/-! ### Pairs of sets -/

structure Exchange where
  delete : Bool
  squeeze : Bool
  complement : Bool
  truncate : Bool

def complementOf (es : List Element) : List Char :=
  let members := es.flatMap Element.chars
  allBytes.filter fun c => !members.contains c

def fillUp (missing : Nat) (e : Element) : Element :=
  match e with
  | .repeated c 0 => .repeated c missing
  | _ => e

abbrev Place := List Char × List Element

def nextChar : Nat → Bool → Option Case → Place → Option (Char × Option Case × Bool × Place)
  | _, fresh, case, (c :: cs, es) => some (c, case, fresh, (cs, es))
  | 0, _, _, _ => none
  | _, _, _, ([], []) => none
  | fuel + 1, _, _, ([], e :: es) => nextChar fuel true e.case? (e.chars, es)

structure Walk where
  first : Place
  firstCase : Option Case := none
  second : Place
  secondCase : Option Case := none

def Walk.next (w : Walk) : Option (Char × Char × Bool × Bool × Walk) := do
  let (a, aCase, aFresh, first) ← nextChar (w.first.2.length + 1) false w.firstCase w.first
  let (b, bCase, bFresh, second) ← nextChar (w.second.2.length + 1) false w.secondCase w.second
  some (a, b, aFresh, bFresh, ⟨first, aCase, second, bCase⟩)

def Walk.leave (w : Walk) : Walk := { w with first := ([], w.first.2), second := ([], w.second.2) }

/-- Whether each change of case in the second set meets one in the first, and how much shorter the
sets count when a change of case counts once. -/
def alignCases : Nat → Walk → Option Nat
  | 0, _ => some 0
  | fuel + 1, w =>
    match w.next with
    | none =>
      let second := nextChar (w.second.2.length + 1) false w.secondCase w.second
      match second with
      | some (_, some _, true, _) => none
      | _ => some 0
    | some (_, _, aFresh, bFresh, w) =>
      if w.secondCase.isSome then
        if bFresh && !(aFresh && w.firstCase.isSome) then none
        else (alignCases fuel w.leave).map (· + 25)
      else alignCases fuel w

/-- What becomes of each byte. Where a class of one case meets that of the other, case changes. -/
def changes : Nat → Walk → List (Char × Char)
  | 0, _ => []
  | fuel + 1, w =>
    match w.next with
    | none => []
    | some (a, b, _, _, w) =>
      match w.firstCase, w.secondCase with
      | some .lower, some .upper =>
        (charsFrom 97 122).map (fun c => (c, c.toUpper)) ++ changes fuel w.leave
      | some .upper, some .lower =>
        (charsFrom 65 90).map (fun c => (c, c.toLower)) ++ changes fuel w.leave
      | _, _ => (a, b) :: changes fuel w

def extend (missing : Nat) (es : List Element) : Except String (List Element) :=
  match es.getLast? with
  | some (.family _) =>
    .error ("when translating with string1 longer than string2,\n" ++
      "the latter string must not end with a character class")
  | some (.single c) => .ok (es ++ [.repeated c missing])
  | some (.range _ last) => .ok (es ++ [.repeated last missing])
  | some (.same c) => .ok (es ++ [.repeated c missing])
  | some (.repeated c _) => .ok (es ++ [.repeated c missing])
  | none => .ok es

def exchange (o : Exchange) (first second : List Element) :
    Except String (List (Char × Char)) := do
  let sources := if o.complement then complementOf first else first.flatMap Element.chars
  if 1 < (second.filter Element.isOpen).length then
    throw "only one [c*] repeat construct may appear in string2"
  let second := second.map (fillUp (sources.length - elementsLength second))
  if second.any Element.isSame then
    throw "[=c=] expressions may not appear in string2 when translating"
  if second.any fun e => e.isFamily && e.case?.isNone then
    throw ("when translating, the only character classes that may appear in\n" ++
      "string2 are 'upper' and 'lower'")
  let walk : Walk := { first := ([], first), second := ([], second) }
  let steps := sources.length + elementsLength second + 2
  let shorter ← if o.complement || !second.any Element.isFamily then pure 0
    else match alignCases steps walk with
      | some n => pure n
      | none => throw "misaligned [:upper:] and/or [:lower:] construct"
  let long := sources.length - shorter
  let short := elementsLength second - shorter
  let second ← if short < long && !o.truncate then
      if elementsLength second = 0 then
        throw "when not truncating set1, string2 must be non-empty"
      else extend (long - short) second
    else pure second
  let targets := second.flatMap Element.chars
  if o.complement && first.any Element.isFamily &&
      !(targets.length = sources.length && targets.all (some · == targets.head?)) then
    throw ("when translating with complemented character classes,\n" ++
      "string2 must map all characters in the domain to one")
  if o.complement then return sources.zip targets
  return changes (steps + long) { walk with second := ([], second) }

/-! ### The program -/

def changeTable (pairs : List (Char × Char)) : Array Char :=
  pairs.foldl (fun table (a, b) => table.setIfInBounds a.toNat b) allBytes.toArray

def memberTable (members : List Char) : Array Bool :=
  members.foldl (fun table c => table.setIfInBounds c.toNat true) (Array.replicate 256 false)

def isMember (table : Array Bool) (c : Char) : Bool := (table[c.toNat]?).getD false

def squeeze (set : Array Bool) (cs : List Char) : List Char :=
  (cs.foldl (fun done c =>
    if done.head? == some c && isMember set c then done else c :: done) []).reverse

def transformation (o : Exchange) (first : List Element) (second : Option (List Element)) :
    Except String (List Char → List Char) := do
  if first.any Element.isOpen then
    throw "the [c*] repeat construct may not appear in string1"
  let chosen := if o.complement then complementOf first else first.flatMap Element.chars
  let table := memberTable chosen
  let without (cs : List Char) := cs.filter fun c => !isMember table c
  match second with
  | none => return if o.delete then without else squeeze table
  | some second =>
    if o.delete then
      if second.any Element.isOpen then
        throw "the [c*] construct may appear in string2 only when translating"
      let set := memberTable (second.flatMap Element.chars)
      return fun cs => squeeze set (without cs)
    else
      let pairs ← exchange o first second
      let map := changeTable pairs
      let change (cs : List Char) := cs.map fun c => (map[c.toNat]?).getD c
      if o.squeeze then
        let filled := second.map (fillUp (chosen.length - elementsLength second))
        let set := memberTable (filled.flatMap Element.chars)
        return fun cs => squeeze set (change cs)
      else return change

def trKnown (name : String) : Known where
  program := name
  letters := lettersOf "AcCdst"
  long :=
    [⟨"complement", .nothing, 'c'⟩, ⟨"delete", .nothing, 'd'⟩, ⟨"squeeze-repeats", .nothing, 's'⟩,
      ⟨"truncate-set1", .nothing, 't'⟩]
  mixed := false

def operandFault? (o : Exchange) (operands : List String) : Option String :=
  let least := if o.delete == o.squeeze then 2 else 1
  let most := if o.delete && !o.squeeze then 1 else 2
  match operands with
  | [] => some "missing operand"
  | _ =>
    if operands.length < least then
      some ("missing operand after " ++ quote (operands.getLastD "") ++ "\n" ++
        (if o.squeeze then "Two strings must be given when both deleting and squeezing repeats."
          else "Two strings must be given when translating."))
    else if most < operands.length then
      some ("extra operand " ++ quote (operands.getD most "") ++
        (if operands.length = 2 then
          "\nOnly one string may be given when deleting without squeezing repeats." else ""))
    else none

def readSet (name : String) (text : String) : Run (Except String (List Element)) := do
  let (chars, warnings) := unescapeSet (text.length + 1) text.toList
  warnings.forM fun w => complain (name ++ ": " ++ w)
  return readElements (chars.length + 1) chars

def tr (name : String) (args : List String) : Run Nat := do
  match (trKnown name).parse args with
  | (_, .error complaint) => (trKnown name).advise complaint
  | (given, .ok operands) =>
    let o : Exchange :=
      ⟨gave given 'd', gave given 's', gave given 'c' || gave given 'C', gave given 't'⟩
    match operandFault? o operands with
    | some complaint => (trKnown name).advise complaint
    | none =>
      let first ← readSet name (operands.headD "")
      let second ← if first.toBool then operands[1]?.mapM (readSet name) else pure none
      let work := do
        let first ← first
        let second ← match second with
          | none => .ok none
          | some set => set.map some
        transformation o first second
      match work with
      | .error complaint =>
        complain (name ++ ": " ++ complaint)
        return 1
      | .ok work =>
        match ← openOperand "-" with
        | .error refusal =>
          complain (name ++ ": read error: " ++ refusal.reason)
          return 1
        | .ok number =>
          match ← readStream number none with
          | .error refusal =>
            complain (name ++ ": read error: " ++ refusal.reason)
            return 1
          | .ok cs => finish name (String.ofList (work cs)) 0

end SourceOverlay.Process
